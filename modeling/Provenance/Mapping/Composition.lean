import Provenance.Mapping.PositionMap
import Provenance.SourceFile

/-!
# Composing maps

Code that is compiled in two stages has a map for each. Composition traces the origins of the
second map through the first, so that lookups in the result lead from the final code to the
source. Entries whose origin is unknown to the first map are dropped; the generated side and the
names of the others stay.
-/

namespace Provenance

/-- Raw mappings with their origins traced through an index. -/
def RawMapping.through (index : OriginIndex) (mappings : List RawMapping) : List RawMapping :=
  mappings.filterMap fun m =>
    (m.origin.bind index.originOf?).map fun origin => { m with origin := some origin }

namespace SourceMap

/-- A segment with its origin traced through an index, if it can be. -/
def traced? (index : OriginIndex) (map : SourceMap) (s : Segment) : Option NamedSegment :=
  (s.position?.bind index.originOf?).map fun origin =>
    ⟨s.generated, some origin.toPoint, map.segmentName? s⟩

/-- A map with its segments traced through an index. All come from one source, whose text is
kept. -/
def through (index : OriginIndex) (source : SourceFile) (map : SourceMap) : SourceMap :=
  ofSegments [source.path] [some source.text] (map.segments.filterMap (traced? index map))

end SourceMap

/-- A map of either form with its origins traced through an index. -/
def PositionMap.through (index : OriginIndex) (source : SourceFile) : PositionMap → PositionMap
  | .raw mappings => .raw (RawMapping.through index mappings)
  | .structured map => .structured (map.through index source)

end Provenance
