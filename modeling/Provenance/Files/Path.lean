import Provenance.Text.Lines

/-!
# Paths

A path is the segments between the slashes of its text, kept as they were written: empty segments
and dots stay, so that messages show what was given. What they mean shows in `components`, by which
paths are compared, and in `parent?`.
-/

namespace Provenance

/-- A path. The text of a path has at least one segment, which may be empty. -/
structure Path where
  absolute : Bool
  segments : List String
deriving DecidableEq, Repr

namespace Path

/-! ### Text -/

/-- The segments of a text without the slash of the root. -/
def segmentsOf (cs : List Char) : List String := (Text.split '/' cs).map String.ofList

/-- The path that a text writes. -/
def ofText (s : String) : Path :=
  match s.toList with
  | '/' :: rest => ⟨true, segmentsOf rest⟩
  | cs => ⟨false, segmentsOf cs⟩

/-- The text of a path. -/
def text (p : Path) : String := (if p.absolute then "/" else "") ++ "/".intercalate p.segments

/-! ### Joining -/

/-- The segments before which nothing more has to be closed: a slash at the end is not doubled. -/
def opened (p : Path) : List String :=
  if p.segments.getLast? = some "" then p.segments.dropLast else p.segments

/-- A path followed from another. An absolute one starts anew; nothing is simplified. -/
def join (base p : Path) : Path :=
  if p.absolute then p else ⟨base.absolute, base.opened ++ p.segments⟩

/-- The path with a name at its end. -/
def child (base : Path) (name : String) : Path := ⟨base.absolute, base.opened ++ [name]⟩

/-- The path with an ending added to its text. -/
def withEnding (p : Path) (ending : String) : Path :=
  ⟨p.absolute, p.segments.dropLast ++ [p.segments.getLastD "" ++ ending]⟩

/-! ### Components -/

/-- Whether a segment leads somewhere: it is neither empty nor a dot. -/
def leads (segment : String) : Bool := segment ≠ "" && segment ≠ "."

/-- What tells paths apart: the root or a leading dot, and each segment that leads somewhere. Two
dots are not resolved. -/
def components (p : Path) : List String :=
  (if p.absolute then ["/"] else if p.segments.head? = some "." then ["."] else []) ++
    p.segments.filter leads

/-- Whether a path names the same place as another, component by component. -/
def same (p q : Path) : Bool := p.components = q.components

/-- Whether a path is another one or lies below it, component by component. -/
def isWithin (p base : Path) : Bool := base.components.isPrefixOf p.components

/-! ### Parents -/

/-- Whether a segment is a component of the path in which it stands behind others: it leads
somewhere, or it is the dot that begins a relative path. -/
def isComponent (absolute : Bool) (segment : String) (outer : List String) : Bool :=
  leads segment || (!absolute && segment = "." && outer.isEmpty)

/-- Segments, the innermost first, from the last component on. -/
def trimmed (absolute : Bool) : List String → List String
  | [] => []
  | s :: outer => if isComponent absolute s outer then s :: outer else trimmed absolute outer

/-- What is left of segments, the innermost first, without the last component and what follows
it. -/
def above? (absolute : Bool) (inner : List String) : Option (List String) :=
  match trimmed absolute inner with
  | [] => none
  | _ :: outer => some (trimmed absolute outer)

theorem length_trimmed_le (absolute : Bool) (inner : List String) :
    (trimmed absolute inner).length ≤ inner.length := by
  induction inner with
  | nil => exact Nat.le_refl _
  | cons s outer ih =>
    rw [trimmed]
    split
    · exact Nat.le_refl _
    · exact Nat.le_succ_of_le ih

theorem length_lt_of_above? {absolute : Bool} {inner outer : List String}
    (h : above? absolute inner = some outer) : outer.length < inner.length := by
  have hle := length_trimmed_le absolute inner
  unfold above? at h
  split at h
  · cases h
  · next s rest heq =>
    obtain rfl := Option.some.inj h
    rw [heq, List.length_cons] at hle
    exact Nat.lt_of_le_of_lt (length_trimmed_le absolute rest) hle

/-- The path of segments given the innermost first. -/
def ofInner (absolute : Bool) (inner : List String) : Path :=
  ⟨absolute, if inner.isEmpty then [""] else inner.reverse⟩

/-- The path without its last component; the root and the empty path have no parent. -/
def parent? (p : Path) : Option Path :=
  (above? p.absolute p.segments.reverse).map (ofInner p.absolute)

/-- The parents of segments given the innermost first, the nearest first. -/
def parentsOf (absolute : Bool) (inner : List String) : List Path :=
  match _h : above? absolute inner with
  | none => []
  | some outer => ofInner absolute outer :: parentsOf absolute outer
termination_by inner.length
decreasing_by exact length_lt_of_above? _h

/-- A path and its parents up to the root, the nearest first. -/
def ancestors (p : Path) : List Path := p :: parentsOf p.absolute p.segments.reverse

end Path

end Provenance
