import Provenance.Proofs.Sites
import Provenance.SourceFile

/-!
# Lines and columns of offsets

The index of a text finds line and column by binary search among the offsets at which lines begin.
The lexer counts them as it reads. Both say the same of the place behind some text: its line is told
by the line feeds in front of it, and its column by what stands between the last of them and the
place, in characters for the index and in bytes for the lexer.
-/

namespace Provenance

open Text (lastPiece)

/-! ### Searching -/

/-- A search finds the end of what is not greater than an offset. -/
lemma partitionPoint_append {xs ys : List Nat} {offset : Nat} (hxs : ∀ x ∈ xs, x ≤ offset)
    (hys : ∀ y ∈ ys, offset < y) :
    partitionPoint (xs ++ ys).toArray (· ≤ offset) = xs.length := by
  have hget : ∀ i (hi : i < (xs ++ ys).toArray.size),
      (xs ++ ys).toArray[i] ≤ offset ↔ i < xs.length := by
    intro i hi
    rw [List.getElem_toArray, List.getElem_append]
    split_ifs with hlt
    · exact iff_of_true (hxs _ (List.getElem_mem hlt)) hlt
    · exact iff_of_false (Nat.not_le.mpr (hys _ (List.getElem_mem _))) hlt
  have hpasses : PassesFirst (xs ++ ys).toArray (· ≤ offset) := by
    intro i j hij hi hj htest
    rw [decide_eq_true_eq, hget] at htest ⊢
    exact Nat.lt_of_le_of_lt hij htest
  have hfound : ∀ i < (xs ++ ys).length,
      (i < partitionPoint (xs ++ ys).toArray (· ≤ offset) ↔ i < xs.length) := by
    intro i hi
    rw [lt_partitionPoint_iff hpasses i (by simpa using hi), decide_eq_true_eq, hget]
  have hle := partitionPoint_le (xs ++ ys).toArray (· ≤ offset)
  rw [List.size_toArray] at hle
  have hlength : xs.length ≤ (xs ++ ys).length := by simp
  apply Nat.le_antisymm
  · by_contra hlt
    rw [Nat.not_le] at hlt
    exact Nat.lt_irrefl _ ((hfound _ (hlt.trans_le hle)).mp hlt)
  · by_contra hlt
    rw [Nat.not_le] at hlt
    exact Nat.lt_irrefl _ ((hfound _ (hlt.trans_le hlength)).mpr hlt)

namespace LineIndex

/-! ### Where lines begin -/

lemma length_startsFrom (offset : Nat) (cs : List Char) :
    (startsFrom offset cs).length = cs.count '\n' := by
  induction cs generalizing offset with
  | nil => rfl
  | cons c cs ih =>
    rw [startsFrom]
    by_cases hc : c = '\n'
    · rw [if_pos hc, List.length_cons, ih, hc, List.count_cons_self]
    · rw [if_neg hc, ih, List.count_cons_of_ne hc]

lemma le_of_mem_startsFrom {offset start : Nat} {cs : List Char}
    (h : start ∈ startsFrom offset cs) : start ≤ offset + cs.length := by
  induction cs generalizing offset with
  | nil => cases h
  | cons c cs ih =>
    rw [startsFrom] at h
    rw [List.length_cons]
    by_cases hc : c = '\n'
    · rw [if_pos hc, List.mem_cons] at h
      rcases h with rfl | h
      · omega
      · have := ih h
        omega
    · rw [if_neg hc] at h
      have := ih h
      omega

lemma pairwise_startsFrom (offset : Nat) (cs : List Char) :
    (startsFrom offset cs).Pairwise (· < ·) ∧
      ∀ start ∈ startsFrom offset cs, offset < start := by
  induction cs generalizing offset with
  | nil => exact ⟨.nil, fun _ h => absurd h List.not_mem_nil⟩
  | cons c cs ih =>
    obtain ⟨hsorted, hlt⟩ := ih (offset + 1)
    rw [startsFrom]
    split
    · refine ⟨List.pairwise_cons.mpr ⟨hlt, hsorted⟩, List.forall_mem_cons.mpr ⟨?_, ?_⟩⟩
      · exact Nat.lt_succ_self offset
      · exact fun start h => (Nat.lt_succ_self offset).trans (hlt start h)
    · exact ⟨hsorted, fun start h => (Nat.lt_succ_self offset).trans (hlt start h)⟩

lemma startsFrom_append (offset : Nat) (before rest : List Char) :
    startsFrom offset (before ++ rest) =
      startsFrom offset before ++ startsFrom (offset + before.length) rest := by
  induction before generalizing offset with
  | nil => rfl
  | cons c cs ih =>
    rw [List.cons_append, startsFrom, startsFrom, ih, List.length_cons, Nat.add_right_comm,
      Nat.add_assoc]
    split_ifs <;> rfl

/-- The last line that begins in a text begins in front of the last piece of the text. -/
lemma getLast?_startsFrom (cs : List Char) :
    ∃ start, (0 :: startsFrom 0 cs).getLast? = some start ∧
      start + (lastPiece '\n' cs).length = cs.length := by
  induction cs using List.reverseRecOn with
  | nil => exact ⟨0, rfl, rfl⟩
  | append_singleton cs c ih =>
    obtain ⟨start, hlast, hlength⟩ := ih
    rw [startsFrom_append, Nat.zero_add, startsFrom, startsFrom, List.length_append,
      List.length_singleton]
    by_cases hc : c = '\n'
    · subst hc
      refine ⟨cs.length + 1, by rw [if_pos rfl, ← List.cons_append, List.getLast?_concat], ?_⟩
      rw [Text.lastPiece_concat]
      rfl
    · refine ⟨start, by rw [if_neg hc, List.append_nil, hlast], ?_⟩
      rw [Text.lastPiece_append_of_notMem (by simpa using Ne.symm hc), List.length_append,
        ← Nat.add_assoc, hlength]
      rfl

/-- A number and one more, counted in words. -/
lemma toNat_ofNat_add_one {n : Nat} (h : n + 1 < UInt32.size) :
    (UInt32.ofNat n + 1).toNat = n + 1 :=
  (congrArg UInt32.toNat (UInt32.ofNat_add n 1)).symm.trans (UInt32.toNat_ofNat_of_lt' h)

/-- Line and column of the place behind some text, in characters and as words. -/
lemma locate_append (before rest : List Char) :
    (ofChars (before ++ rest)).locate before.length =
      (.ofNat (before.count '\n' + 1), .ofNat ((lastPiece '\n' before).length + 1)) := by
  obtain ⟨start, hlast, hlength⟩ := getLast?_startsFrom before
  have hmin : min before.length (ofChars (before ++ rest)).length = before.length := by
    simp [ofChars]
  have hstarts : (ofChars (before ++ rest)).starts =
      ((0 :: startsFrom 0 before) ++ startsFrom before.length rest).toArray := by
    rw [ofChars, startsFrom_append, Nat.zero_add, List.cons_append]
  have hline : partitionPoint (ofChars (before ++ rest)).starts (· ≤ before.length) =
      before.count '\n' + 1 := by
    rw [hstarts, partitionPoint_append, List.length_cons, length_startsFrom]
    · rw [List.forall_mem_cons]
      refine ⟨Nat.zero_le _, fun start hstart => ?_⟩
      simpa using le_of_mem_startsFrom hstart
    · exact (pairwise_startsFrom before.length rest).2
  have hstart : (ofChars (before ++ rest)).starts.getD (before.count '\n') 0 = start := by
    rw [List.getLast?_eq_getElem?, List.length_cons, length_startsFrom, Nat.add_sub_cancel] at hlast
    have hlt : before.count '\n' < (0 :: startsFrom 0 before).length := by
      rw [List.length_cons, length_startsFrom]
      exact Nat.lt_succ_self _
    rw [hstarts, Array.getD_eq_getD_getElem?, List.getElem?_toArray,
      List.getElem?_append_left hlt, hlast, Option.getD_some]
  unfold locate
  dsimp only
  rw [hmin, hline, Nat.add_sub_cancel, hstart, ← hlength, Nat.add_sub_cancel_left,
    UInt32.ofNat_add, UInt32.ofNat_add]
  rfl

end LineIndex

namespace SourceFile

variable {file : SourceFile} {before rest : List Char}

/-- The position of the place behind some of the text of a file. -/
lemma position_append (h : file.text.toList = before ++ rest) :
    file.position before.length =
      ⟨.ofNat (before.count '\n' + 1), .ofNat (lastPiece '\n' before).length⟩ := by
  have hcolumn : ∀ n : Nat, UInt32.ofNat (n + 1) - 1 = .ofNat n := fun n => by
    rw [UInt32.ofNat_add]
    exact UInt32.add_sub_cancel (.ofNat n) 1
  rw [position, lineIndex, h, LineIndex.locate_append]
  exact congrArg (Position.mk _) (hcolumn _)

end SourceFile

end Provenance
