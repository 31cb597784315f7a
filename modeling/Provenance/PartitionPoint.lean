/-!
# Partition points

Binary search for the place where a sorted array stops satisfying a test. The index of lines
and the lookup of mappings both rest on it; `lt_partitionPoint_iff` says what it finds.
-/

namespace Provenance

universe u

variable {α : Type u}

/-- The search between `lo` and `hi`: all before `lo` passes the test, all from `hi` on fails. -/
def partitionPointIn (xs : Array α) (test : α → Bool) (lo hi : Nat) (h : hi ≤ xs.size) : Nat :=
  if hlt : lo < hi then
    have hmid : (lo + hi) / 2 < xs.size := by omega
    if test xs[(lo + hi) / 2] then
      partitionPointIn xs test ((lo + hi) / 2 + 1) hi h
    else
      partitionPointIn xs test lo ((lo + hi) / 2) (by omega)
  else lo
termination_by hi - lo

/-- The number of leading elements that pass the test, when all passing ones come first. -/
def partitionPoint (xs : Array α) (test : α → Bool) : Nat :=
  partitionPointIn xs test 0 xs.size (Nat.le_refl _)

/-- The test holds on an initial segment of the array. -/
def PassesFirst (xs : Array α) (test : α → Bool) : Prop :=
  ∀ i j, i ≤ j → ∀ (hi : i < xs.size) (hj : j < xs.size),
    test xs[j] = true → test xs[i] = true

private theorem lt_partitionPointIn_iff {xs : Array α} {test : α → Bool}
    (hp : PassesFirst xs test) (lo hi : Nat) (h : hi ≤ xs.size)
    (hlo : ∀ i, ∀ hi' : i < xs.size, i < lo → test xs[i] = true)
    (hhi : ∀ i, ∀ hi' : i < xs.size, hi ≤ i → test xs[i] = false) (hle : lo ≤ hi)
    (i : Nat) (hi' : i < xs.size) :
    i < partitionPointIn xs test lo hi h ↔ test xs[i] = true := by
  fun_induction partitionPointIn xs test lo hi h with
  | case1 lo hi h hlt _ hmid ih =>
    refine ih ?_ hhi (by omega)
    intro j hj hjlt
    exact hp j ((lo + hi) / 2) (by omega) hj (by omega) hmid
  | case2 lo hi h hlt _ hmid ih =>
    refine ih hlo ?_ (by omega)
    intro j hj hle'
    cases htj : test xs[j] with
    | false => rfl
    | true => exact absurd (hp ((lo + hi) / 2) j hle' (by omega) hj htj) hmid
  | case3 lo hi h hlt =>
    constructor
    · exact hlo i hi'
    · intro ht
      by_cases hil : i < lo
      · exact hil
      · have := hhi i hi' (by omega)
        simp [this] at ht

theorem partitionPointIn_le {xs : Array α} {test : α → Bool} (lo hi : Nat) (h : hi ≤ xs.size)
    (hle : lo ≤ hi) : partitionPointIn xs test lo hi h ≤ hi := by
  fun_induction partitionPointIn xs test lo hi h with
  | case1 lo hi h hlt _ hmid ih => exact ih (by omega)
  | case2 lo hi h hlt _ hmid ih => have := ih (by omega); omega
  | case3 lo hi h hlt => exact hle

theorem partitionPoint_le (xs : Array α) (test : α → Bool) :
    partitionPoint xs test ≤ xs.size :=
  partitionPointIn_le 0 xs.size (Nat.le_refl _) (Nat.zero_le _)

/-- The elements before the partition point are exactly those that pass the test. -/
theorem lt_partitionPoint_iff {xs : Array α} {test : α → Bool} (hp : PassesFirst xs test)
    (i : Nat) (hi : i < xs.size) : i < partitionPoint xs test ↔ test xs[i] = true :=
  lt_partitionPointIn_iff hp 0 xs.size (Nat.le_refl _) (by simp) (fun i h h' => by omega)
    (Nat.zero_le _) i hi

end Provenance
