import Provenance.Mapping.Raw
import Provenance.Mapping.SourceMap
import Provenance.PartitionPoint

/-!
# Looking up origins

An `OriginIndex` answers where a generated position came from. The answer is that of the last
entry at or before the position on its line; of entries at one place the first one given counts,
also when it has no origin.
-/

namespace Provenance

/-- A generated position and its origin, if it has one. -/
structure OriginEntry where
  generated : Position
  origin : Option Position
deriving DecidableEq, Repr

/-- The entries of a map in the order of generated positions. -/
structure OriginIndex where
  entries : Array OriginEntry
deriving Repr

namespace OriginIndex

def empty : OriginIndex := ⟨#[]⟩

/-- The index of entries in any order. Those of one position keep their order. -/
def ofEntries (entries : List OriginEntry) : OriginIndex :=
  ⟨(entries.mergeSort fun a b => decide (a.generated ≤ b.generated)).toArray⟩

def ofRaw (mappings : List RawMapping) : OriginIndex :=
  ofEntries (mappings.map fun m => ⟨m.generated, m.origin⟩)

def ofSourceMap (map : SourceMap) : OriginIndex :=
  ofEntries (map.segments.map fun s => ⟨.ofPoint s.generated, s.position?⟩)

def size (index : OriginIndex) : Nat := index.entries.size

/-- The first of the entries just before an end that share a generated position. -/
def firstOf (entries : Array OriginEntry) (place : Position) : (stop : Nat) → Nat
  | 0 => 0
  | stop + 1 =>
    if entries[stop]?.map (·.generated) = some place then firstOf entries place stop else stop + 1

/-- The origin of a generated position. -/
def originOf? (index : OriginIndex) (p : Position) : Option Position :=
  let stop := partitionPoint index.entries (·.generated ≤ p)
  match index.entries[stop - 1]? with
  | none => none
  | some last =>
    if stop = 0 ∨ last.generated.line ≠ p.line then none
    else index.entries[firstOf index.entries last.generated stop]?.bind (·.origin)

end OriginIndex

end Provenance
