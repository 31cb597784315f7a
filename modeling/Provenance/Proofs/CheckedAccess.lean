import Provenance.Checked.Access
import Provenance.Erasure

/-!
# Access that does not fault

What is cleared from a list of kept tokens, range by range, is what a list of spans drops.
-/

namespace Provenance.Checked

/-! ### Lists -/

/-- Where each step has a result, all of them have. -/
lemma mapM_eq_some {α β : Type*} {l : List α} {f : α → Option β} {g : α → β}
    (h : ∀ a ∈ l, f a = some (g a)) : l.mapM f = some (l.map g) := by
  induction l with
  | nil => rfl
  | cons a l ih =>
    obtain ⟨ha, hl⟩ := List.forall_mem_cons.mp h
    rw [List.mapM_cons, ha, ih hl]
    rfl

/-! ### Kept tokens -/

/-- Which of some tokens are kept when spans of them are dropped. -/
def kept (count : Nat) (spans : List TokenSpan) : List Bool :=
  (List.range count).map (isKept spans)

lemma kept_nil (count : Nat) : kept count [] = List.replicate count true := by
  apply List.ext_getElem
  · simp [kept]
  · intro i hi hi'
    simp [kept, isKept]

/-- To clear a range is to drop one more span. -/
lemma clear?_kept {count start stop : Nat} (spans : List TokenSpan) (hle : start ≤ stop)
    (hstop : stop ≤ count) :
    clear? start stop (kept count spans) = some (kept count (spans ++ [⟨start, stop⟩])) := by
  have hlength : (kept count spans).length = count := by
    rw [kept, List.length_map, List.length_range]
  rw [clear?, if_pos ⟨hle, hlength.symm ▸ hstop⟩]
  congr 1
  apply List.ext_getElem
  · simp [kept]
  · intro i hi hi'
    simp [kept, isKept, TokenSpan.contains]

end Provenance.Checked
