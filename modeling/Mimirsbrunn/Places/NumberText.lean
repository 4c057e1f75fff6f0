import Mimirsbrunn.Places.Float64

-- How `serde_json` writes the numbers from 1e-5 up to 1e16, and how it reads what it wrote.
namespace Mimirsbrunn.F64
open Regex

-- The digits are the fewest; a whole number keeps a fraction.
def toJson (x : Float) : Text :=
  let digits := display x
  if '.' ∈ digits then digits else digits ++ ".0".toList

def digitValue (c : Char) : Nat := c.toNat - '0'.toNat

-- Without the feature `float_roundtrip`: the digits are rounded to a number, which is then divided
-- by a power of ten and rounded again.
def f64FromParts (negative : Bool) (significand exponent : Nat) : Float :=
  let f := Float.ofNat significand / Float.ofScientific 1 false exponent
  if negative then -f else f

def ofJson (text : Text) : Option Float :=
  let negative := text.head? == some '-'
  let (whole, fraction) := (text.dropWhile (· == '-')).span (· != '.')
  let digits := whole ++ fraction.drop 1
  if whole.isEmpty || !digits.all Char.isDigit then none
  else some (f64FromParts negative (digits.foldl (fun n c => 10 * n + digitValue c) 0)
    (fraction.length - 1))

example : toJson 3 = "3.0".toList := by decide +kernel

example : ofJson (toJson 2.37715) = some 2.37715 := by decide +kernel

example : ofJson (toJson (-0.5)) = some (-0.5) := by decide +kernel

theorem ofJson_toJson_moves :
    ofJson (toJson 100.78399658203125) = some 100.78399658203124 := by decide +kernel

end Mimirsbrunn.F64
