import Provenance.Json.Written

/-!
# Reading JSON

`Written.ofText?` reads a whole text as one form, with only blanks around it. The fields of an
object come as written, with repetitions and in their own order: a decoder of maps must see a
repeated field, and `Json.parse?` gives the value that documents mean.
-/

namespace Provenance.Json

/-- What a reader found at the start of a text: a value and a shorter rest. -/
structure Reading (α : Type) (s : List Char) where
  value : α
  rest : List Char
  shorter : rest.length < s.length

namespace Reader

def isBlank (c : Char) : Bool := c = ' ' || c = '\n' || c = '\r' || c = '\t'

def skipBlank (s : List Char) : List Char := s.dropWhile isBlank

theorem length_skipBlank_le (s : List Char) : (skipBlank s).length ≤ s.length :=
  (List.dropWhile_suffix isBlank).length_le

/-- A number that starts the text. -/
def number? (s : List Char) : Option (Reading Number.Literal s) :=
  match h : Number.literal? s with
  | none => none
  | some (literal, rest) => some ⟨literal, rest, Number.length_lt_of_literal? h⟩

/-- A string whose opening quote is already read. -/
def string? (s : List Char) : Option (Reading (List Quoted.Piece) s) :=
  match h : Quoted.pieces? s with
  | none => none
  | some (pieces, rest) => some ⟨pieces, rest, Quoted.length_lt_of_pieces? h⟩

mutual
/-- The form that starts the text. -/
def form? (s : List Char) : Option (Reading Written s) :=
  match s with
  | 'n' :: 'u' :: 'l' :: 'l' :: rest => some ⟨.null, rest, by simp; omega⟩
  | 't' :: 'r' :: 'u' :: 'e' :: rest => some ⟨.bool true, rest, by simp; omega⟩
  | 'f' :: 'a' :: 'l' :: 's' :: 'e' :: rest => some ⟨.bool false, rest, by simp; omega⟩
  | '"' :: r =>
    (string? r).map fun ⟨t, rest, h⟩ => ⟨.string t, rest, by simp; omega⟩
  | '[' :: r =>
    have hr := length_skipBlank_le r
    match hs : skipBlank r with
    | ']' :: rest => some ⟨.array [], rest, by simp [hs] at hr ⊢; omega⟩
    | t =>
      (items? t).map fun ⟨vs, rest, h⟩ =>
        ⟨.array vs, rest, by simp only [hs, List.length_cons] at hr ⊢; omega⟩
  | '{' :: r =>
    have hr := length_skipBlank_le r
    match hs : skipBlank r with
    | '}' :: rest => some ⟨.object [], rest, by simp [hs] at hr ⊢; omega⟩
    | t =>
      (fields? t).map fun ⟨fs, rest, h⟩ =>
        ⟨.object fs, rest, by simp only [hs, List.length_cons] at hr ⊢; omega⟩
  | s => (number? s).map fun ⟨l, rest, h⟩ => ⟨.number l, rest, h⟩
termination_by (s.length, 0)

/-- The elements of an array that is not empty, with its closing bracket. -/
def items? (s : List Char) : Option (Reading (List Written) s) :=
  match form? s with
  | none => none
  | some ⟨v, r, h⟩ =>
    have hr := length_skipBlank_le r
    match hs : skipBlank r with
    | ']' :: rest => some ⟨[v], rest, by simp [hs] at hr; omega⟩
    | ',' :: t =>
      have ht := length_skipBlank_le t
      (items? (skipBlank t)).map fun ⟨vs, rest, h'⟩ =>
        ⟨v :: vs, rest, by simp [hs] at hr; omega⟩
    | _ => none
termination_by (s.length, 1)
decreasing_by
  all_goals (try simp [hs] at hr)
  all_goals omega

/-- The fields of an object that is not empty, with its closing brace. -/
def fields? (s : List Char) : Option (Reading (List (List Quoted.Piece × Written)) s) :=
  match s with
  | '"' :: k =>
    match string? k with
    | none => none
    | some ⟨key, r, hk⟩ =>
      have hr := length_skipBlank_le r
      match hs : skipBlank r with
      | ':' :: t =>
        have ht := length_skipBlank_le t
        match form? (skipBlank t) with
        | none => none
        | some ⟨v, q, hv⟩ =>
          have hq := length_skipBlank_le q
          match hs' : skipBlank q with
          | '}' :: rest => some ⟨[(key, v)], rest, by simp [hs, hs'] at hr hq ⊢; omega⟩
          | ',' :: u =>
            have hu := length_skipBlank_le u
            (fields? (skipBlank u)).map fun ⟨fs, rest, h⟩ =>
              ⟨(key, v) :: fs, rest, by simp [hs, hs'] at hr hq ⊢; omega⟩
          | _ => none
      | _ => none
  | _ => none
termination_by (s.length, 1)
decreasing_by
  all_goals simp_wf
  all_goals (try simp [hs] at hr)
  all_goals (try simp [hs'] at hq)
  all_goals omega
end

end Reader

/-- The form that a text spells. -/
def Written.ofText? (text : String) : Option Written :=
  match Reader.form? (Reader.skipBlank text.toList) with
  | none => none
  | some ⟨w, rest, _⟩ => if Reader.skipBlank rest = [] then some w else none

/-- The value that a text means: each object's fields in order, the later of two repeated. -/
def parse? (text : String) : Option Json :=
  ((Written.ofText? text).bind Written.toJson?).map canonical

end Provenance.Json
