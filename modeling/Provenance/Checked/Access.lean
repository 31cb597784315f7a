import Mathlib.Tactic.Common
import Provenance.Text.Lines

/-!
# Access that can fault

The stages are told in terms of lists. A program that keeps its text as bytes reaches its parts by
offsets and numbers instead: it subtracts, slices and indexes, it counts lines and columns from one
in words, and each of these has inputs on which it has no result. Here they are partial operations:
`none` is a fault. An offset must be a boundary between characters, a range must be ordered and
inside of its list, a difference must not fall below zero, and a line or a column that is counted
from one must fit its word.
-/

namespace Provenance.Checked

open Text (byteLength byteLength_cons)

/-! ### Numbers -/

/-- A difference; it must not fall below zero. -/
def sub? (m n : Nat) : Option Nat := if n ≤ m then some (m - n) else none

@[simp] lemma sub?_of_le {m n : Nat} (h : n ≤ m) : sub? m n = some (m - n) := if_pos h

/-- A sum; it must fit a word of 32 bits. -/
def add? (m n : Nat) : Option Nat := if m + n < UInt32.size then some (m + n) else none

lemma add?_of_lt {m n : Nat} (h : m + n < UInt32.size) : add? m n = some (m + n) := if_pos h

lemma add?_of_le {m n : Nat} (h : UInt32.size ≤ m + n) : add? m n = none :=
  if_neg (Nat.not_lt.mpr h)

/-- What is left of a number in a word. -/
def word (n : Nat) : Nat := n % UInt32.size

lemma word_of_lt {n : Nat} (h : n < UInt32.size) : word n = n := Nat.mod_eq_of_lt h

/-! ### Slices of a text -/

/-- The text before a byte offset and the text from it on; the offset must be a boundary between
characters. -/
def cut? (offset : Nat) : List Char → Option (List Char × List Char)
  | [] => if offset = 0 then some ([], []) else none
  | c :: cs =>
    if offset = 0 then some ([], c :: cs)
    else if c.utf8Size ≤ offset then
      (cut? (offset - c.utf8Size) cs).map fun (before, rest) => (c :: before, rest)
    else none

@[simp] lemma cut?_append (before rest : List Char) :
    cut? (byteLength before) (before ++ rest) = some (before, rest) := by
  induction before with
  | nil => cases rest <;> rfl
  | cons c cs ih =>
    have hsize := c.utf8Size_pos
    rw [List.cons_append, cut?, byteLength_cons, if_neg (by omega), if_pos (by omega),
      Nat.add_sub_cancel_left, ih]
    rfl

/-- There is a cut just where an offset is a boundary between characters. -/
lemma cut?_eq_some_iff {offset : Nat} {text before rest : List Char} :
    cut? offset text = some (before, rest) ↔
      text = before ++ rest ∧ byteLength before = offset := by
  constructor
  · intro h
    induction text generalizing offset before with
    | nil =>
      rw [cut?] at h
      split_ifs at h with hzero
      obtain ⟨rfl, rfl⟩ := Prod.mk.inj (Option.some.inj h)
      exact ⟨rfl, hzero.symm⟩
    | cons c cs ih =>
      rw [cut?] at h
      split_ifs at h with hzero hsize
      · obtain ⟨rfl, rfl⟩ := Prod.mk.inj (Option.some.inj h)
        exact ⟨rfl, hzero.symm⟩
      · obtain ⟨⟨before', rest'⟩, hcut, heq⟩ := Option.map_eq_some_iff.mp h
        obtain ⟨rfl, rfl⟩ := Prod.mk.inj heq
        obtain ⟨rfl, hlength⟩ := ih hcut
        refine ⟨rfl, ?_⟩
        rw [byteLength_cons, hlength]
        omega
  · rintro ⟨rfl, rfl⟩
    exact cut?_append before rest

/-- The text before a byte offset. -/
def upTo? (offset : Nat) (text : List Char) : Option (List Char) := (cut? offset text).map (·.1)

/-- The text from a byte offset on. -/
def from? (offset : Nat) (text : List Char) : Option (List Char) := (cut? offset text).map (·.2)

/-- The text between two byte offsets, the first not after the second. -/
def slice? (start stop : Nat) (text : List Char) : Option (List Char) := do
  let length ← sub? stop start
  let rest ← from? start text
  upTo? length rest

@[simp] lemma upTo?_append (before rest : List Char) :
    upTo? (byteLength before) (before ++ rest) = some before := by
  rw [upTo?, cut?_append]
  rfl

@[simp] lemma from?_append (before rest : List Char) :
    from? (byteLength before) (before ++ rest) = some rest := by
  rw [from?, cut?_append]
  rfl

lemma slice?_append (before piece rest : List Char) :
    slice? (byteLength before) (byteLength before + byteLength piece) (before ++ (piece ++ rest)) =
      some piece := by
  rw [slice?, sub?_of_le (Nat.le_add_right _ _), from?_append, Nat.add_sub_cancel_left]
  exact upTo?_append piece rest

/-! ### Lists -/

/-- The list with a range of it cleared; the range must be ordered and inside of the list. -/
def clear? (start stop : Nat) (keep : List Bool) : Option (List Bool) :=
  if start ≤ stop ∧ stop ≤ keep.length then
    some (keep.mapIdx fun i kept => kept && !(start ≤ i && i < stop))
  else none

end Provenance.Checked
