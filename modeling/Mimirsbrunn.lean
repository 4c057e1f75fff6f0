import Mimirsbrunn.Imports.AddrReader
import Mimirsbrunn.Imports.BanoLines
import Mimirsbrunn.Imports.Walk
import Mimirsbrunn.Imports.Pois
import Mimirsbrunn.Imports.Stops
import Mimirsbrunn.Places.AddrIds
import Mimirsbrunn.Places.OpenAddresses
import Mimirsbrunn.Places.Float64
import Mimirsbrunn.Places.NormalizeId
import Mimirsbrunn.Places.Lines
import Mimirsbrunn.Places.Stops
import Mimirsbrunn.Osm.PoiRules
import Mimirsbrunn.Bragi.Radius
import Mimirsbrunn.Bragi.ProximityOverride
import Mimirsbrunn.Bragi.Translations
import Mimirsbrunn.Library.Greatest
import Mimirsbrunn.Places.ZipCodes
import Mimirsbrunn.Library.Fused
import Mimirsbrunn.Library.Decimals
import Mimirsbrunn.Library.Shortest
import Mimirsbrunn.Library.Comparisons
import Mimirsbrunn.Library.Mixing
import Mimirsbrunn.Library.Exact
import Mimirsbrunn.Places.CityLabels
import Mimirsbrunn.Osm.WayNodes
import Mimirsbrunn.Places.Branches
import Mimirsbrunn.Places.ZoneTypes
import Mimirsbrunn.Common.Layering
import Mimirsbrunn.Common.Config
import Mimirsbrunn.Library.Layers
import Mimirsbrunn.Library.Outcome
import Mimirsbrunn.Cosmogony.Weights
import Mimirsbrunn.Cosmogony.Hierarchy
import Mimirsbrunn.Places.DecodesBack
import Mimirsbrunn.Places.Documents
import Mimirsbrunn.Bragi.FilterSemantics
import Mimirsbrunn.Library.BoolQuery
import Mimirsbrunn.Library.Json
import Mimirsbrunn.Bragi.Validation
import Mimirsbrunn.Places.FinderEntries
import Mimirsbrunn.Library.Tiers
import Mimirsbrunn.Osm.OsmStore
import Mimirsbrunn.Bragi.Indices
import Mimirsbrunn.Library.Numeral
import Mimirsbrunn.Osm.StreetIds
import Mimirsbrunn.Osm.Coverage
import Mimirsbrunn.Osm.Relations
import Mimirsbrunn.Osm.WayStreets
import Mimirsbrunn.Osm.Merging
import Mimirsbrunn.Osm.Street
import Mimirsbrunn.Places.AdminGeoFinder
import Mimirsbrunn.Library.Least
import Mimirsbrunn.Library.Grouping
import Mimirsbrunn.Elasticsearch.Listing
import Mimirsbrunn.Elasticsearch.Bulk
import Mimirsbrunn.Publication.Switch
import Mimirsbrunn.Publication.Rollback
import Mimirsbrunn.Publication.ShardLayout
import Mimirsbrunn.Publication.Concurrent
import Mimirsbrunn.Publication.Completion
import Mimirsbrunn.Domain.GenerateIndex
import Mimirsbrunn.Elasticsearch.Replies
import Mimirsbrunn.Elasticsearch.Store
import Mimirsbrunn.Library.Client
import Mimirsbrunn.Library.Regex
import Mimirsbrunn.Domain.Configuration
import Mimirsbrunn.Library.Watching
import Mimirsbrunn.Elasticsearch.Searching
import Mimirsbrunn.Elasticsearch.Documents
import Mimirsbrunn.Bragi.Geocoding
import Mimirsbrunn.Bragi.Served
import Mimirsbrunn.Bragi.Handlers
import Mimirsbrunn.Bragi.Answers
import Mimirsbrunn.Publication.Readers
import Mimirsbrunn.Publication.Versions
import Mimirsbrunn.Bragi.Consistency
import Mimirsbrunn.Publication.Lookups
import Mimirsbrunn.Bragi.Lookups
import Mimirsbrunn.Elasticsearch.PointInTime
import Mimirsbrunn.Publication.Listings
import Mimirsbrunn.Imports.Admins
import Mimirsbrunn.Publication.Promises
import Mimirsbrunn.Bragi.Types
import Mimirsbrunn.Osm.Pois
import Mimirsbrunn.Imports.Osm2Mimir
import Mimirsbrunn.Imports.Streets
import Mimirsbrunn.Imports.Ntfs2Mimir
import Mimirsbrunn.Elasticsearch.Frames
import Mimirsbrunn.Publication.Apart
import Mimirsbrunn.Publication.Together
import Mimirsbrunn.Bragi.Amid
import Mimirsbrunn.Bragi.Dispatch
