import Mimirsbrunn.Places.Lines

namespace Mimirsbrunn.Places
open Regex Std

variable {Shape Geometry Color : Type}

def feedPublisherFrom (contributor : Transit.Contributor) : FeedPublisher where
  id := contributor.id
  license := contributor.license.getD []
  name := contributor.name
  url := contributor.website.getD []

def commentsOf (navitia : Transit.Model Color) (stop_area : Transit.StopArea) : List Comment :=
  (stop_area.comment_links.filterMap (fun comment_id =>
    navitia.comments.find? (fun comment => comment.id = comment_id))).map (fun comment =>
      ⟨comment.name⟩)

def toMimir (human_sort : Text → Text → Ordering) (point : Float → Float → Geometry)
    (navitia : Transit.Model Color) (stop_area : Transit.StopArea) : Stop Shape Geometry Color where
  id := normalizeId "stop_area".toList stop_area.id
  label := stop_area.name
  name := stop_area.name
  approx_coord := some (point stop_area.coord.lon stop_area.coord.lat)
  coord := ⟨stop_area.coord.lon, stop_area.coord.lat⟩
  administrative_regions := []
  weight := 0
  zip_codes := []
  commercial_modes := (navitia.commercial_modes_of stop_area).map commercialModeFrom
  physical_modes := (navitia.physical_modes_of stop_area).map physicalModeFrom
  coverages := []
  comments := commentsOf navitia stop_area
  timezone := stop_area.timezone.getD []
  codes := ExtTreeMap.ofList stop_area.codes
  properties := stop_area.object_properties
  feed_publishers := (navitia.contributors_of stop_area).map feedPublisherFrom
  distance := none
  lines := getLines human_sort navitia stop_area
  country_codes := []
  context := none

end Mimirsbrunn.Places
