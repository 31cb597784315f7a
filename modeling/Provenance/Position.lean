/-!
# Positions in a text

Two conventions meet in this library. A `Position` counts lines from one and columns from
zero, the way lookups, diagnostics and syntax trees speak. A `Point` counts both from zero, the
way encoded maps are stored. Both hold 32-bit words and both are ordered by line, then column.
-/

namespace Provenance

/-! ### Positions -/

/-- A place in a text: the line counts from one, the column from zero. -/
structure Position where
  line : UInt32
  column : UInt32
deriving DecidableEq, Repr, Inhabited

/-- A place in a text with both coordinates counted from zero. -/
structure Point where
  line : UInt32
  column : UInt32
deriving DecidableEq, Repr, Inhabited

namespace Position

instance : LE Position where
  le p q := p.line < q.line ∨ (p.line = q.line ∧ p.column ≤ q.column)

instance : LT Position where
  lt p q := p.line < q.line ∨ (p.line = q.line ∧ p.column < q.column)

theorem le_def (p q : Position) :
    p ≤ q ↔ p.line < q.line ∨ (p.line = q.line ∧ p.column ≤ q.column) := Iff.rfl

theorem lt_def (p q : Position) :
    p < q ↔ p.line < q.line ∨ (p.line = q.line ∧ p.column < q.column) := Iff.rfl

instance (p q : Position) : Decidable (p ≤ q) := by
  unfold LE.le instLE
  infer_instance

instance (p q : Position) : Decidable (p < q) := by
  unfold LT.lt instLT
  infer_instance

/-- The position of a point: its line counted from one. -/
def ofPoint (p : Point) : Position := ⟨p.line + 1, p.column⟩

/-- The point of a position. The line zero, which no position of a text has, stays zero. -/
def toPoint (p : Position) : Point := ⟨if p.line = 0 then 0 else p.line - 1, p.column⟩

@[simp] theorem toPoint_column (p : Position) : p.toPoint.column = p.column := rfl

@[simp] theorem ofPoint_column (p : Point) : (ofPoint p).column = p.column := rfl

/-- A position that has a proper line is recovered from its point. -/
theorem ofPoint_toPoint {p : Position} (h : p.line ≠ 0) : ofPoint p.toPoint = p := by
  cases p with
  | mk line column =>
    simp only [ofPoint, toPoint] at h ⊢
    rw [if_neg h, UInt32.sub_add_cancel]

/-- The position written as its line and column with a colon between. -/
def text (p : Position) : String := s!"{p.line}:{p.column}"

end Position

namespace Point

instance : LE Point where
  le p q := p.line < q.line ∨ (p.line = q.line ∧ p.column ≤ q.column)

theorem le_def (p q : Point) :
    p ≤ q ↔ p.line < q.line ∨ (p.line = q.line ∧ p.column ≤ q.column) := Iff.rfl

instance (p q : Point) : Decidable (p ≤ q) := by
  unfold LE.le instLE
  infer_instance

end Point

end Provenance
