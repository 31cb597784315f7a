import Provenance.Json.Decode
import Provenance.Position

/-!
# Raw mappings

The plain form of a map is a list of mappings, each an array of numbers and perhaps a name. The
length of the array tells what it holds: two elements place generated code only, four give it an
origin, five also a name. Main definitions: `toJson` and `ofJson`.
-/

namespace Provenance

/-- One mapping: a place in the generated code, its origin if it has one, and a name. -/
structure RawMapping where
  generated : Position
  origin : Option Position
  name : Option String
deriving DecidableEq, Repr

namespace RawMapping

/-- The number of elements that the mapping is written with. -/
def width (m : RawMapping) : Nat :=
  match m.origin, m.name with
  | none, _ => 2
  | some _, none => 4
  | some _, some _ => 5

/-- The elements that the mapping is written with. A name without an origin is not written. -/
def elements (m : RawMapping) : List Json :=
  let place (p : Position) : List Json := [.word p.line, .word p.column]
  match m.origin, m.name with
  | none, _ => place m.generated
  | some p, none => place m.generated ++ place p
  | some p, some n => place m.generated ++ place p ++ [.string n]

def toJson (m : RawMapping) : Json := .array m.elements

@[simp] theorem length_elements (m : RawMapping) : m.elements.length = m.width := by
  unfold elements width
  split <;> rfl

/-- What a decoder of mappings expects. -/
def expected : String := "an array of 2, 4 or 5 mapping elements"

/-- The elements after the generated place. An origin with a null in it is none at all, and what
is no string is no name. -/
def ofTail (generated : Position) : List Json → Except DecodeError RawMapping
  | [] => .ok ⟨generated, none, none⟩
  | line :: rest => do
    let line ← Decode.nullable Decode.word line
    match rest with
    | [] => throw (.wrongLength 3 expected)
    | column :: rest => do
      let column ← Decode.nullable Decode.word column
      match rest with
      | _ :: _ :: _ => throw (.wrongLength 6 expected)
      | rest =>
        match line, column with
        | some line, some column =>
          return ⟨generated, some ⟨line, column⟩, rest.head?.bind Json.string?⟩
        | _, _ => return ⟨generated, none, none⟩

/-- Reads a mapping from its array. -/
def ofJson : Json → Except DecodeError RawMapping
  | .array [] => .error (.wrongLength 0 expected)
  | .array (line :: rest) => do
    let line ← Decode.word line
    match rest with
    | [] => throw (.wrongLength 1 expected)
    | column :: rest => do
      let column ← Decode.word column
      ofTail ⟨line, column⟩ rest
  | v => .error (.wrongType v expected)

end RawMapping

end Provenance
