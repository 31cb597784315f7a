import Provenance.Mapping.DebugId
import Provenance.Position

/-!
# Structured maps

A structured map is a list of segments, each placing a piece of generated code and saying which
position of which source it came from, under which name. Segments refer to sources and names by
number. The segments of a map are ordered by their place in the generated code; those of one
place keep the order in which they came.
-/

namespace Provenance

/-- Where a piece of generated code came from: a source by number, a place in it, and perhaps a
name by number. -/
structure Origin where
  source : UInt32
  point : Point
  name : Option UInt32
deriving DecidableEq, Repr

/-- A piece of generated code and where it came from, if that is known. -/
structure Segment where
  generated : Point
  origin : Option Origin
  isRange : Bool
deriving DecidableEq, Repr

/-- A structured map. -/
structure SourceMap where
  file : Option String
  sourceRoot : Option String
  sources : List String
  contents : List (Option String)
  names : List String
  segments : List Segment
  ignored : List UInt32
  debugId : Option DebugId
deriving DecidableEq, Repr

namespace Segment

/-- The order of the generated code. -/
def precedes (a b : Segment) : Bool := a.generated ≤ b.generated

/-- Segments in the order of the generated code, those of one place as they stood. -/
def arrange (segments : List Segment) : List Segment := segments.mergeSort precedes

/-- The position that the segment came from. -/
def position? (s : Segment) : Option Position := s.origin.map fun o => .ofPoint o.point

end Segment

/-- A segment whose name is not yet numbered; its origin, if any, lies in the only source. -/
structure NamedSegment where
  generated : Point
  origin : Option Point
  name : Option String
deriving DecidableEq, Repr

namespace SourceMap

/-! ### Sources and names -/

/-- A source under a root. A source that is absolute or a web address needs no root. -/
def underRoot (root source : String) : String :=
  if root.isEmpty then source
  else if source.startsWith "/" || source.startsWith "http:" || source.startsWith "https:" then
    source
  else
    let base := root.toList
    let base := if base.getLast? = some '/' then base.dropLast else base
    .ofList (base ++ '/' :: source.toList)

/-- The name of a source by number, under the root of the map. -/
def sourceName? (map : SourceMap) (source : UInt32) : Option String :=
  map.sources[source.toNat]?.map (underRoot (map.sourceRoot.getD ""))

def name? (map : SourceMap) (name : UInt32) : Option String := map.names[name.toNat]?

/-- The name that a segment carries. -/
def segmentName? (map : SourceMap) (s : Segment) : Option String :=
  (s.origin.bind (·.name)).bind map.name?

/-- The content of each source, one entry for each. -/
def sourceContents (map : SourceMap) : List (Option String) :=
  (List.range map.sources.length).map fun i => (map.contents[i]?).join

/-! ### Maps of one source -/

/-- The names of segments in the order of their first use. -/
def namesOf (segments : List NamedSegment) : List String :=
  (segments.filterMap (·.name)).eraseDups

/-- A segment with its name numbered by its place in a list. -/
def numbered (names : List String) (s : NamedSegment) : Segment where
  generated := s.generated
  origin := s.origin.map fun point => ⟨0, point, s.name.map fun n => .ofNat (names.idxOf n)⟩
  isRange := false

/-- A map whose segments all come from the first of the given sources. -/
def ofSegments (sources : List String) (contents : List (Option String))
    (segments : List NamedSegment) : SourceMap where
  file := none
  sourceRoot := none
  sources := sources
  contents := contents
  names := namesOf segments
  segments := Segment.arrange (segments.map (numbered (namesOf segments)))
  ignored := []
  debugId := none

end SourceMap

end Provenance
