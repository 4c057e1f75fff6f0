import Mimirsbrunn.Places.Bano

namespace Mimirsbrunn.Places
open Regex

def removeFirst (word : Text) : Text → Text
  | [] => []
  | c :: text =>
      if word.isPrefixOf (c :: text) then (c :: text).drop word.length
      else c :: removeFirst word text

def normalizeId (kind id : Text) : Text :=
  if kind = "stop_area".toList then
    kind ++ ":".toList ++ replaceChar ' ' [] (removeFirst "StopArea:".toList id)
  else kind ++ ":".toList ++ replaceChar ' ' [] id

end Mimirsbrunn.Places
