import Mathlib.Data.List.DropRight
import Mathlib.Data.Nat.SuccPred
import Mathlib.Data.Prod.Lex
import Mathlib.Order.Interval.Set.Monotone
import Provenance.Proofs.CheckedLowering

/-!
# Lines and columns by counting

Line and column of an offset can be counted on the text in front of it: the line feeds there, and
the characters behind the last of them. The search among the offsets at which lines begin comes to
the same, with no index below zero or past the end (`SourceFile.lineColumn_counts`). One character
more moves a location on, by a line or by a column, so different offsets of a text have different
locations.

Counting from one needs a word for one past the length of the text. A single line of the greatest
length that a word can tell has no column at its end (`SourceFile.lineColumn_of_greatest`).
-/

namespace Provenance

/-- The last piece of a text is what stands behind its last separator. -/
lemma Text.lastPiece_eq_rtakeWhile (separator : Char) (cs : List Char) :
    lastPiece separator cs = cs.rtakeWhile (· ≠ separator) := by
  induction cs using List.reverseRecOn with
  | nil => rfl
  | append_singleton cs c ih =>
    by_cases hc : c = separator
    · subst hc
      rw [lastPiece_concat, List.rtakeWhile_concat_neg _ _ _ (by simp)]
    · rw [lastPiece_append_of_notMem (by simpa using Ne.symm hc), ih,
        List.rtakeWhile_concat_pos _ _ _ (by simpa using hc)]

namespace LineIndex

variable {cs : List Char} {offset : Nat}

/-- The place of an offset, counted on the text in front of it, in words. An offset past the end
counts on the whole text. -/
lemma locate_eq (cs : List Char) (offset : Nat) :
    (ofChars cs).locate offset =
      (.ofNat (1 + (cs.take offset).count '\n'),
        .ofNat (1 + ((cs.take offset).rtakeWhile (· ≠ '\n')).length)) := by
  have hclamped : (ofChars cs).locate offset = (ofChars cs).locate (cs.take offset).length := by
    unfold locate
    simp [ofChars]
  have hcut := locate_append (cs.take offset) (cs.drop offset)
  rw [List.take_append_drop] at hcut
  rw [hclamped, hcut, Text.lastPiece_eq_rtakeWhile, Nat.add_comm 1, Nat.add_comm 1]

lemma lineCount_ofChars (cs : List Char) : (ofChars cs).lineCount = 1 + cs.count '\n' := by
  simp [lineCount, ofChars, length_startsFrom, Nat.add_comm]

end LineIndex

namespace SourceFile

variable {file : SourceFile} {offset : Nat}

/-- In front of an offset there are no more line feeds, and no longer a line, than the text is
long. -/
lemma counts_le (cs : List Char) (offset : Nat) :
    (cs.take offset).count '\n' ≤ cs.length ∧
      ((cs.take offset).rtakeWhile (· ≠ '\n')).length ≤ cs.length :=
  ⟨List.count_le_length.trans (List.length_take_le' _ _),
    (List.rtakeWhile_suffix _ _).length_le.trans (List.length_take_le' _ _)⟩

/-- The place of an offset, counted on the text in front of it, if the counts fit words. -/
lemma lineColumn_eq (hsize : file.text.toList.length + 1 < UInt32.size) (offset : Nat) :
    file.lineColumn offset =
      (1 + (file.text.toList.take offset).count '\n',
        1 + ((file.text.toList.take offset).rtakeWhile (· ≠ '\n')).length) := by
  obtain ⟨hline, hcolumn⟩ := counts_le file.text.toList offset
  rw [lineColumn, lineIndex, LineIndex.locate_eq]
  dsimp only
  rw [UInt32.toNat_ofNat_of_lt' (by omega), UInt32.toNat_ofNat_of_lt' (by omega)]

/-- Lines and columns go no higher than one past the length of the text. -/
lemma lineColumn_le (hsize : file.text.toList.length + 1 < UInt32.size) (offset : Nat) :
    (file.lineColumn offset).1 ≤ file.text.toList.length + 1 ∧
      (file.lineColumn offset).2 ≤ file.text.toList.length + 1 := by
  obtain ⟨hline, hcolumn⟩ := counts_le file.text.toList offset
  rw [lineColumn_eq hsize, Nat.add_comm 1, Nat.add_comm 1]
  exact ⟨Nat.succ_le_succ hline, Nat.succ_le_succ hcolumn⟩

/-- One character more moves a location on. -/
lemma lineColumn_lt_succ (hsize : file.text.toList.length + 1 < UInt32.size)
    (h : offset < file.text.toList.length) :
    toLex (file.lineColumn offset) < toLex (file.lineColumn (offset + 1)) := by
  rw [lineColumn_eq hsize, lineColumn_eq hsize, List.take_succ_eq_append_getElem h,
    Prod.Lex.toLex_lt_toLex]
  by_cases hc : file.text.toList[offset] = '\n'
  · left
    simp [hc]
  · right
    rw [List.rtakeWhile_concat_pos _ _ _ (by simpa using hc), List.count_append,
      List.count_singleton]
    simp [hc]

lemma strictMonoOn_lineColumn (hsize : file.text.toList.length + 1 < UInt32.size) :
    StrictMonoOn (fun offset => toLex (file.lineColumn offset))
      (Set.Iic file.text.toList.length) :=
  strictMonoOn_Iic_of_lt_succ fun _ h => lineColumn_lt_succ hsize h

/-- An offset is the start of its line and what its column adds. -/
lemma exists_start (hsize : file.text.toList.length + 1 < UInt32.size)
    (h : offset ≤ file.text.toList.length) :
    ∃ start, file.lineIndex.starts[(file.lineColumn offset).1 - 1]? = some start ∧
      start + ((file.lineColumn offset).2 - 1) = offset := by
  obtain ⟨line, start, -, hstart, hle, hfeeds, hlocated⟩ :=
    Checked.exists_lineOf?_ofChars file.text.toList offset
  have hcount : file.text.toList.count '\n' ≤ file.text.toList.length := List.count_le_length
  rw [Nat.min_eq_left h] at hle hlocated
  have hplace : file.lineColumn offset = (line + 1, offset - start + 1) := by
    rw [lineColumn, lineIndex, hlocated]
    exact Prod.ext (LineIndex.toNat_ofNat_add_one (by omega))
      (LineIndex.toNat_ofNat_add_one (by omega))
  rw [hplace]
  exact ⟨start, hstart, Nat.add_sub_cancel' hle⟩

/-- Behind a line of the greatest length that a word can tell, the column wraps around to zero, and
a search whose sums must fit words faults. -/
lemma lineColumn_of_greatest (hline : '\n' ∉ file.text.toList)
    (hsize : file.text.toList.length + 1 = UInt32.size) :
    file.lineColumn file.text.toList.length = (1, 0) ∧
      Checked.locate? (Checked.wordIndex file.lineIndex) file.text.toList.length = none := by
  obtain ⟨line, start, hfound, hstart, hle, hfeeds, hlocated⟩ :=
    Checked.exists_lineOf?_ofChars file.text.toList file.text.toList.length
  rw [List.count_eq_zero.mpr hline] at hfeeds
  obtain rfl := Nat.le_zero.mp hfeeds
  obtain rfl : 0 = start := Option.some.inj hstart
  rw [Nat.min_self] at hfound hle hlocated
  have hlength : (LineIndex.ofChars file.text.toList).length = file.text.toList.length := rfl
  have hcolumn : UInt32.ofNat file.text.toList.length + 1 = 0 := by
    rw [← UInt32.ofNat_size, ← hsize, UInt32.ofNat_add]
    rfl
  constructor
  · rw [lineColumn, lineIndex, hlocated, Nat.sub_zero, hcolumn]
    rfl
  · rw [lineIndex, Checked.wordIndex_ofChars (by omega), Checked.locate?, hlength, Nat.min_self]
    simp only [bind, Option.bind, hfound, hstart, Checked.sub?_of_le hle, Nat.sub_zero,
      Checked.add?_of_le hsize.ge]
    split <;> rfl

/-- Line and column of an offset, or of the end if it lies past it, are counted on the text in front
of it: one more than the line feeds there, and one more than the characters behind the last of them.
The search for them among words that hold where lines begin never faults, and each is at most one
past the length. A file has one line more than it has line feeds. Locations strictly increase with
offsets up to the end, and an offset is found again where its line begins and its column adds. A word
must have room for one past the length of the text (see `lineColumn_of_greatest`). -/
theorem lineColumn_counts {file : SourceFile} (hsize : file.text.length + 1 < UInt32.size) :
    (∀ offset : UInt32,
      let before := file.text.toList.take (min offset.toNat file.text.length)
      file.lineColumn offset.toNat =
        (1 + before.count '\n', 1 + (before.rtakeWhile (· ≠ '\n')).length) ∧
      Checked.locate? (Checked.wordIndex file.lineIndex) offset.toNat =
        some (file.lineColumn offset.toNat) ∧
      (file.lineColumn offset.toNat).1 ≤ file.text.length + 1 ∧
      (file.lineColumn offset.toNat).2 ≤ file.text.length + 1) ∧
    file.lineCount = 1 + file.text.toList.count '\n' ∧
    StrictMonoOn (fun offset => toLex (file.lineColumn offset)) (Set.Iic file.text.length) ∧
    ∀ offset ≤ file.text.length, ∃ start,
      file.lineIndex.starts[(file.lineColumn offset).1 - 1]? = some start ∧
      start + ((file.lineColumn offset).2 - 1) = offset := by
  rw [← String.length_toList] at hsize ⊢
  refine ⟨fun offset => ⟨?_, ?_, lineColumn_le hsize _⟩, LineIndex.lineCount_ofChars _,
    strictMonoOn_lineColumn hsize, fun _ => exists_start hsize⟩
  · rw [lineColumn_eq hsize, List.take_eq_take_min]
  · rw [lineIndex, Checked.wordIndex_ofChars (Nat.lt_of_succ_lt hsize),
      Checked.locate?_ofChars hsize]
    rfl

/-- Characters of several bytes count once, an empty line has a location of its own, and an offset
past the end stands for the end. -/
theorem lineColumn_counts_multibyte :
    let file : SourceFile := ⟨"a.ts", "é\n\nx(ü)"⟩
    file.text.length + 1 < UInt32.size ∧ file.lineColumn 5 = (3, 3) ∧
      file.lineColumn 100 = (3, 5) ∧ file.lineCount = 3 ∧
      toLex (file.lineColumn 1) < toLex (file.lineColumn 2) := by
  intro file
  have hsize : file.text.length + 1 < UInt32.size := by decide +kernel
  obtain ⟨hcounts, hlines, hincreasing, -⟩ := lineColumn_counts hsize
  refine ⟨hsize, (hcounts 5).1.trans ?_, (hcounts 100).1.trans ?_, hlines.trans ?_,
    hincreasing ?_ ?_ ?_⟩
  all_goals decide +kernel

/-- One character more is too many. A single line of 2 ^ 32 - 1 characters has offsets that fit
words, but its end is in column 2 ^ 32: the column of the end wraps around to zero, in front of all
others, and the checked search for it faults. -/
theorem lineColumn_wraps :
    let file : SourceFile := ⟨"a.ts", .ofList (List.replicate (UInt32.size - 1) 'a')⟩
    let offset : UInt32 := .ofNat (UInt32.size - 1)
    let before := file.text.toList.take (min offset.toNat file.text.length)
    file.text.length < UInt32.size ∧
      (1 + before.count '\n', 1 + (before.rtakeWhile (· ≠ '\n')).length) = (1, UInt32.size) ∧
      file.lineColumn offset.toNat = (1, 0) ∧
      Checked.locate? (Checked.wordIndex file.lineIndex) offset.toNat = none ∧
      ¬ StrictMonoOn (fun offset => toLex (file.lineColumn offset)) (Set.Iic file.text.length) := by
  have hn : UInt32.size - 1 + 1 = UInt32.size := by decide
  have hpos : 0 < UInt32.size - 1 := by decide
  -- the text is never computed
  generalize UInt32.size - 1 = n at hn hpos ⊢
  intro file offset before
  have hchars : file.text.toList = List.replicate n 'a' := String.toList_ofList
  have hlength : file.text.length = n := by
    rw [← String.length_toList, hchars, List.length_replicate]
  have hoffset : offset.toNat = n := UInt32.toNat_ofNat_of_lt' (by omega)
  have hbefore : before = List.replicate n 'a' := by
    rw [show before = file.text.toList.take (min offset.toNat file.text.length) from rfl, hoffset,
      hlength, hchars, Nat.min_self, List.take_replicate, Nat.min_self]
  have hline : '\n' ∉ file.text.toList := by
    rw [hchars]
    exact fun hmem => absurd (List.eq_of_mem_replicate hmem) (by decide)
  have hend := lineColumn_of_greatest hline
    (by rw [hchars, List.length_replicate]; exact hn)
  rw [hchars, List.length_replicate] at hend
  rw [hoffset, hlength, hbefore]
  refine ⟨by omega, ?_, hend.1, hend.2, fun hincreasing => ?_⟩
  · rw [List.count_replicate, List.rtakeWhile_eq_self_iff.mpr, List.length_replicate,
      Nat.add_comm 1 n, hn]
    · rfl
    · exact fun c hc => by rw [List.eq_of_mem_replicate hc]; decide
  · have hlt := hincreasing (Set.mem_Iic.mpr (Nat.zero_le n)) (Set.mem_Iic.mpr (Nat.le_refl n)) hpos
    have hzero : file.lineColumn 0 = (1, 1) := by
      rw [lineColumn, lineIndex, LineIndex.locate_eq, List.take_zero]
      rfl
    simp only [hzero, hend.1] at hlt
    exact absurd hlt (by decide)

end SourceFile

end Provenance
