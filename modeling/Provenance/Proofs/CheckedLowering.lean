import Provenance.Checked.Lowering
import Provenance.Proofs.CheckedCompile
import Provenance.Proofs.CodeSize

/-!
# Lowering by offsets never faults

The checked lowering never faults on a text whose offsets, counted from one, fit words, and lowers
as `transform` does. As intermediate code is hardly longer than its source, both stages run through
on every source that is not too large.
-/

namespace Provenance.Checked

open Text (byteLength byteLength_append)
open Lowering (Line Rejection isNameChar keyword? firstWord?)

/-! ### The end of a tree -/

/-- In numbers that go up, a search for the end of a test that smaller numbers pass too finds it. -/
lemma lt_partitionPoint_iff_of_pairwise {starts : Array Nat}
    (hsorted : starts.toList.Pairwise (· < ·)) {test : Nat → Bool}
    (htest : ∀ m n, m ≤ n → test n → test m) {i : Nat} (hi : i < starts.size) :
    i < partitionPoint starts test ↔ test starts[i] := by
  have hpasses : PassesFirst starts test := by
    intro i j hij hi hj
    apply htest
    rcases Nat.lt_or_eq_of_le hij with hij | rfl
    · exact (List.pairwise_iff_getElem.mp hsorted i j hi hj hij).le
    · exact Nat.le_refl _
  exact lt_partitionPoint_iff hpasses i hi

/-- The line that a search finds is the last one that begins at or before the offset. -/
lemma lineOf?_eq {starts : Array Nat} (hsorted : starts.toList.Pairwise (· < ·))
    (hzero : starts[0]? = some 0) (offset : Nat) :
    ∃ line start, lineOf? starts offset = some line ∧ starts[line]? = some start ∧
      start ≤ offset ∧ partitionPoint starts (· ≤ offset) = line + 1 := by
  have hbefore : ∀ i (hi : i < starts.size),
      i < partitionPoint starts (· < offset) ↔ starts[i] < offset := by
    intro i hi
    rw [lt_partitionPoint_iff_of_pairwise hsorted _ hi, decide_eq_true_eq]
    exact fun m n hmn hn => decide_eq_true (hmn.trans_lt (of_decide_eq_true hn))
  have hupTo : ∀ i (hi : i < starts.size),
      i < partitionPoint starts (· ≤ offset) ↔ starts[i] ≤ offset := by
    intro i hi
    rw [lt_partitionPoint_iff_of_pairwise hsorted _ hi, decide_eq_true_eq]
    exact fun m n hmn hn => decide_eq_true (hmn.trans (of_decide_eq_true hn))
  have hp := partitionPoint_le starts (· < offset)
  have hq := partitionPoint_le starts (· ≤ offset)
  unfold lineOf?
  generalize partitionPoint starts (· < offset) = p at hbefore hp ⊢
  generalize partitionPoint starts (· ≤ offset) = q at hupTo hq ⊢
  by_cases hfound : starts[p]? = some offset
  · -- a line begins at the offset, and all later ones begin after it
    obtain ⟨hsize, heq⟩ := Array.getElem?_eq_some_iff.mp hfound
    have hpq : p < q := (hupTo p hsize).mpr heq.le
    have hnext : ¬ p + 1 < q := fun h => by
      have hlater := (hupTo (p + 1) (h.trans_le hq)).mp h
      have hlt := List.pairwise_iff_getElem.mp hsorted p (p + 1) hsize (h.trans_le hq)
        (Nat.lt_succ_self p)
      exact Nat.not_lt.mpr hlater (heq ▸ hlt)
    exact ⟨p, offset, if_pos hfound, hfound, Nat.le_refl _, by omega⟩
  · have hqp : q ≤ p := by
      by_contra h
      have hsize : p < starts.size := by omega
      have hreached := (hupTo p hsize).mp (by omega)
      have hnot := mt (hbefore p hsize).mpr (Nat.lt_irrefl p)
      exact hfound (Array.getElem?_eq_some_iff.mpr ⟨hsize, by omega⟩)
    have hpq : p ≤ q := by
      by_contra h
      have hsize : q < starts.size := by omega
      have hreached := (hbefore q hsize).mp (by omega)
      exact Nat.lt_irrefl q ((hupTo q hsize).mpr hreached.le)
    obtain ⟨hsize, heq⟩ := Array.getElem?_eq_some_iff.mp hzero
    have hpos : 0 < q := (hupTo 0 hsize).mpr (by omega)
    have hlast : q - 1 < starts.size := by omega
    refine ⟨q - 1, starts[q - 1], ?_, Array.getElem?_eq_getElem hlast, ?_, by omega⟩
    · rw [if_neg hfound, Nat.le_antisymm hpq hqp, sub?_of_le hpos]
    · exact (hupTo _ hlast).mp (by omega)

/-- The line that the search finds begins at or before the offset, and there are no more lines in
front of it than line feeds; line and column of the offset are counted from that line on. -/
lemma exists_lineOf?_ofChars (cs : List Char) (offset : Nat) :
    ∃ line start, lineOf? (LineIndex.ofChars cs).starts (min offset cs.length) = some line ∧
      (LineIndex.ofChars cs).starts[line]? = some start ∧ start ≤ min offset cs.length ∧
      line ≤ cs.count '\n' ∧
      (LineIndex.ofChars cs).locate offset =
        (.ofNat line + 1, .ofNat (min offset cs.length - start) + 1) := by
  obtain ⟨hsorted, hpos⟩ := LineIndex.pairwise_startsFrom 0 cs
  have hstarts : (LineIndex.ofChars cs).starts.toList.Pairwise (· < ·) :=
    List.pairwise_cons.mpr ⟨hpos, hsorted⟩
  obtain ⟨line, start, hline, hstart, hle, hpartition⟩ :=
    lineOf?_eq hstarts rfl (min offset cs.length)
  have hget : (LineIndex.ofChars cs).starts.getD line 0 = start := by
    rw [Array.getD_eq_getD_getElem?, hstart, Option.getD_some]
  have hcount : (LineIndex.ofChars cs).starts.size = cs.count '\n' + 1 := by
    simp [LineIndex.ofChars, LineIndex.length_startsFrom]
  have hlt := (Array.getElem?_eq_some_iff.mp hstart).1
  refine ⟨line, start, hline, hstart, hle, by omega, ?_⟩
  have hlength : (LineIndex.ofChars cs).length = cs.length := rfl
  rw [LineIndex.locate]
  simp only [hlength, hpartition, Nat.add_sub_cancel, hget]

/-- Every offset of a text has a line and a column, if one past its length fits a word. -/
lemma locate?_ofChars {cs : List Char} (hsize : cs.length + 1 < UInt32.size) (offset : Nat) :
    locate? (.ofChars cs) offset =
      some (((LineIndex.ofChars cs).locate offset).1.toNat,
        ((LineIndex.ofChars cs).locate offset).2.toNat) := by
  obtain ⟨line, start, hline, hstart, hle, hfeeds, hlocated⟩ := exists_lineOf?_ofChars cs offset
  have hlength : (LineIndex.ofChars cs).length = cs.length := rfl
  have hcount : cs.count '\n' ≤ cs.length := List.count_le_length
  have hmin : min offset cs.length ≤ cs.length := Nat.min_le_right _ _
  have hlines : line + 1 < UInt32.size := by omega
  have hcolumns : min offset cs.length - start + 1 < UInt32.size := by omega
  rw [hlocated, locate?]
  simp only [bind, Option.bind, hlength, hline, hstart, sub?_of_le hle, add?_of_lt hlines,
    word_of_lt (Nat.lt_of_succ_lt hlines), add?_of_lt hcolumns,
    LineIndex.toNat_ofNat_add_one hlines, LineIndex.toNat_ofNat_add_one hcolumns]
  rfl

/-- No column is zero, if one past the length of the text fits a word. -/
lemma one_le_column {cs : List Char} (hsize : cs.length + 1 < UInt32.size) (offset : Nat) :
    1 ≤ ((LineIndex.ofChars cs).locate offset).2.toNat := by
  obtain ⟨line, start, -, -, -, -, hlocated⟩ := exists_lineOf?_ofChars cs offset
  have hmin : min offset cs.length ≤ cs.length := Nat.min_le_right _ _
  rw [hlocated, LineIndex.toNat_ofNat_add_one (by omega)]
  exact Nat.le_add_left 1 _

/-- The numbers of an index fit words if the length of its text does. -/
lemma wordIndex_ofChars {cs : List Char} (hsize : cs.length < UInt32.size) :
    wordIndex (.ofChars cs) = .ofChars cs := by
  have hstart : ∀ start ∈ 0 :: LineIndex.startsFrom 0 cs, word start = start := by
    intro start h
    apply word_of_lt
    rcases List.mem_cons.mp h with rfl | h
    · decide
    · have := LineIndex.le_of_mem_startsFrom h
      omega
  have hstarts : (LineIndex.ofChars cs).starts.map word = (LineIndex.ofChars cs).starts := by
    rw [LineIndex.ofChars, List.map_toArray, List.map_congr_left hstart, List.map_id']
  rw [wordIndex, hstarts]
  exact congrArg (LineIndex.mk _) (word_of_lt hsize)

/-! ### The words of a line -/

variable {line : List Char}

/-- From a boundary on, the words of a line are found: where no word was begun the words that are
left, and where one was begun that word and the words after it. -/
lemma wordsFrom?_eq (hsize : byteLength line < UInt32.size) (rest : List Char) :
    (∀ before, line = before ++ rest →
      wordsFrom? line none (byteLength before) rest =
        some (Text.wordsFrom (byteLength before) rest)) ∧
    ∀ before piece, line = before ++ (piece ++ rest) →
      wordsFrom? line (some (byteLength before)) (byteLength before + byteLength piece) rest =
        some ((byteLength before, piece ++ rest.takeWhile (!isBlank ·)) ::
          Text.wordsFrom (byteLength before + byteLength (piece ++ rest.takeWhile (!isBlank ·)))
            (rest.dropWhile (!isBlank ·))) := by
  have hword : ∀ before after, line = before ++ after →
      word (byteLength before) = byteLength before := by
    intro before after h
    rw [h, byteLength_append] at hsize
    exact word_of_lt ((Nat.le_add_right _ _).trans_lt hsize)
  -- both states of the loop at once, as each character may lead from one to the other
  induction rest with
  | nil =>
    refine ⟨fun before _ => ?_, fun before piece h => ?_⟩
    · rw [wordsFrom?, Text.wordsFrom_nil]
    · have hpiece : from? (byteLength before) line = some piece := by
        rw [h, List.append_nil, from?_append]
      rw [wordsFrom?, hpiece, Option.map_some, hword before _ h, List.takeWhile_nil,
        List.dropWhile_nil, Text.wordsFrom_nil, List.append_nil]
  | cons c cs ih =>
    obtain ⟨hnone, hsome⟩ := ih
    by_cases hblank : isBlank c
    -- a blank ends the word that was begun, if one was
    · have htake : (c :: cs).takeWhile (!isBlank ·) = [] :=
        List.takeWhile_cons_of_neg (by simp [hblank])
      have hdrop : (c :: cs).dropWhile (!isBlank ·) = c :: cs :=
        List.dropWhile_cons_of_neg (by simp [hblank])
      refine ⟨fun before h => ?_, fun before piece h => ?_⟩
      · have hlater := hnone (before ++ [c]) (by simpa using h)
        rw [byteLength_append] at hlater
        rw [wordsFrom?, if_pos hblank, Text.wordsFrom_cons, if_pos hblank]
        exact hlater
      · have hlater := hnone (before ++ piece ++ [c]) (by simpa using h)
        have hpiece : slice? (byteLength before) (byteLength before + byteLength piece) line =
            some piece := by
          rw [h]
          exact slice?_append before piece (c :: cs)
        rw [byteLength_append, byteLength_append] at hlater
        change wordsFrom? line none (byteLength before + byteLength piece + c.utf8Size) cs = _
          at hlater
        rw [wordsFrom?, if_pos hblank, htake, hdrop, List.append_nil, Text.wordsFrom_cons,
          if_pos hblank]
        simp only [bind, Option.bind, hpiece, hword before _ h, hlater]
        rfl
    -- any other character begins a word or goes on with it
    · have htake : (c :: cs).takeWhile (!isBlank ·) = c :: cs.takeWhile (!isBlank ·) :=
        List.takeWhile_cons_of_pos (by simpa using hblank)
      have hdrop : (c :: cs).dropWhile (!isBlank ·) = cs.dropWhile (!isBlank ·) :=
        List.dropWhile_cons_of_pos (by simpa using hblank)
      refine ⟨fun before h => ?_, fun before piece h => ?_⟩
      · have hlater := hsome before [c] (by simpa using h)
        rw [wordsFrom?, if_neg hblank, Text.wordsFrom_cons, if_neg hblank]
        exact hlater
      · have hlater := hsome before (piece ++ [c]) (by simpa using h)
        rw [byteLength_append, ← Nat.add_assoc, List.append_assoc] at hlater
        rw [wordsFrom?, if_neg hblank, htake, hdrop]
        exact hlater

/-- The words of a line are found. -/
lemma words?_eq (hsize : byteLength line < UInt32.size) : words? line = some (Text.words line) :=
  (wordsFrom?_eq hsize line).1 [] rfl

lemma leadingName?_eq (w : List Char) : leadingName? w = some (Lowering.leadingName? w) := by
  have hname : upTo? (byteLength (w.takeWhile isNameChar)) w = some (w.takeWhile isNameChar) := by
    have happend := upTo?_append (w.takeWhile isNameChar) (w.dropWhile isNameChar)
    rwa [List.takeWhile_append_dropWhile] at happend
  simp only [leadingName?, Lowering.leadingName?, hname]
  cases w.takeWhile isNameChar with
  | nil => rfl
  | cons c cs => exact if_pos (Text.byteLength_pos (List.cons_ne_nil c cs))

/-- Words that stand no further left than the keyword lost can all be moved. -/
lemma laterWords?_eq (shift : Nat) (declares : Bool) {ws : List (Nat × List Char)}
    (h : ∀ w ∈ ws, shift ≤ w.1) :
    laterWords? shift declares ws = some (Lowering.laterWords shift declares ws) := by
  have hplain : ∀ w : Nat × List Char, shift ≤ w.1 →
      laterWord? shift false w = some ⟨w.1, w.1 - shift, none⟩ := fun w hw => by
    rw [laterWord?, sub?_of_le hw]
    rfl
  cases ws with
  | nil => rfl
  | cons w ws =>
    obtain ⟨hw, hws⟩ := List.forall_mem_cons.mp h
    have hfirst : laterWord? shift declares w =
        some ⟨w.1, w.1 - shift, if declares then Lowering.leadingName? w.2 else none⟩ := by
      cases declares with
      | false => exact hplain w hw
      | true =>
        rw [laterWord?, sub?_of_le hw, leadingName?_eq]
        rfl
    rw [laterWords?, hfirst, mapM_eq_some fun w hw => hplain w (hws w hw)]
    rfl

/-- Every line is lowered. -/
lemma lower?_eq (hsize : byteLength line < UInt32.size) :
    lower? line = some (Lowering.lower line) := by
  rw [lower?, words?_eq hsize]
  by_cases hsolid : ∃ c ∈ line, isBlank c = false
  · obtain ⟨blanks, first, rest, h⟩ := Text.exists_firstWord hsolid
    have hlater : ∀ w ∈ Text.wordsFrom (byteLength blanks + byteLength first) rest,
        byteLength first ≤ w.1 := fun w hw => by
      obtain ⟨before, -, -, -, -, heq⟩ := Text.exists_of_mem_wordsFrom hw
      omega
    by_cases hfirst : first ∈ Lowering.keywords
    · have hlength := Lowering.byteLength_of_mem_keywords hfirst
      have hshift : sub? (byteLength first) 3 = some (first.length - 3) := by
        rw [sub?_of_le (by omega)]
        congr 1
        omega
      have hbefore : upTo? (byteLength blanks) line = some blanks := by
        rw [h.eq, upTo?_append]
      have hafter : from? (byteLength blanks + byteLength first) line = some rest := by
        rw [h.eq, ← List.append_assoc, ← byteLength_append, from?_append]
      have hwords := laterWords?_eq (first.length - 3) true fun w hw =>
        (show first.length - 3 ≤ byteLength first by omega).trans (hlater w hw)
      rw [Lowering.lower_of_keyword h hfirst]
      simp only [h.words, Lowering.keyword?_eq, if_pos hfirst, hshift, hbefore, hafter, hwords,
        bind, Option.bind, List.append_assoc]
      rfl
    · have hwords := laterWords?_eq 0 false fun w hw => (Nat.zero_le _).trans (hlater w hw)
      rw [Lowering.lower_of_not_keyword h hfirst]
      simp only [h.words, Lowering.keyword?_eq, if_neg hfirst, hwords, bind, Option.bind]
      rfl
  · have hblank : ∀ c ∈ line, isBlank c := by simpa using hsolid
    have hwords : Text.words line = [] := by
      have hnone := Text.wordsFrom_blanks hblank 0 []
      rwa [List.append_nil, Text.wordsFrom_nil] at hnone
    rw [Lowering.lower, hwords]
    rfl

/-! ### Whole texts -/

lemma statements_map (sourceLines : List (List Char)) :
    statements sourceLines (sourceLines.map Lowering.lower) = Lowering.statements sourceLines := by
  have hzip : sourceLines.zip (sourceLines.map Lowering.lower) =
      sourceLines.map fun line => (line, Lowering.lower line) := by
    have h := List.zip_map' (f := id) (g := Lowering.lower) (l := sourceLines)
    rwa [List.map_id] at h
  rw [statements, Lowering.statements, hzip, List.zipIdx_map, List.filter_map, List.map_map]
  rfl

lemma tree?_eq (fileName : String) {source : String}
    (hsize : byteLength source.toList + 1 < UInt32.size) :
    tree? source.toList ((Text.lines source.toList).map Lowering.lower) =
      some (Lowering.tree fileName source) := by
  have hlength : source.toList.length + 1 < UInt32.size :=
    (Nat.succ_le_succ (Text.length_le_byteLength source.toList)).trans_lt hsize
  have hshort : source.toList.length < UInt32.size := Nat.lt_of_succ_lt hlength
  have hcolumn := one_le_column hlength source.toList.length
  have hbefore := UInt32.toNat_sub_of_le _ 1 hcolumn
  rw [tree?, wordIndex_ofChars hshort, word_of_lt hshort, locate?_ofChars hlength, statements_map]
  simp only [bind, Option.bind, sub?_of_le hcolumn, Option.map_some]
  rw [Lowering.tree, SyntaxTree.rangeJson]
  simp only [SourceFile.position, SourceFile.lineIndex, hbefore]
  rfl

/-- Lowering by offsets never faults on a text whose offsets fit words when they are counted from
one, and lowers as it should. -/
theorem transform?_eq (form : MapForm) (fileName : String) {source : String}
    (hsize : byteLength source.toList + 1 < UInt32.size) :
    transform? form fileName source = some (Lowering.transform form fileName source) := by
  have hlowered := mapM_eq_some fun line (h : line ∈ Text.lines source.toList) =>
    lower?_eq ((Text.byteLength_le_of_mem_lines h).trans_lt (Nat.lt_of_succ_lt hsize))
  simp only [transform?, Lowering.transform, Lowering.rejection?, hlowered, tree?_eq fileName hsize,
    bind, Option.bind]
  generalize hfind : List.find? _ (Text.lines source.toList).zipIdx = found
  cases found with
  | none => rfl
  | some found =>
    obtain ⟨line, n⟩ := found
    have hline : (Text.lines source.toList)[n]? = some line :=
      List.mk_mem_zipIdx_iff_getElem?.mp (List.mem_of_find?_eq_some hfind)
    simp only [List.getElem?_map, hline, Option.map_some]
    rfl

/-- Both stages run through on every source of less than two gigabytes: they compile it and lower
what comes out, and they lower the source itself, as they should. -/
theorem stages_run (file : SourceFile) (options : Config.CompilerOptions) (form : MapForm)
    (hsize : byteLength file.text.toList < 2 ^ 31) :
    compile? file options = some (Intermediate.compile file options) ∧
      transform? form file.path (Intermediate.compile file options).code =
        some (Lowering.transform form file.path (Intermediate.compile file options).code) ∧
      transform? form file.path file.text = some (Lowering.transform form file.path file.text) := by
  have hword : byteLength file.text.toList + 2 < UInt32.size := by
    have : UInt32.size = 2 ^ 32 := rfl
    omega
  have hcode : byteLength (Intermediate.compile file options).code.toList + 1 < UInt32.size := by
    have hle := Intermediate.byteLength_print_le file.text.toList
    have hchars : (Intermediate.compile file options).code.toList =
        Intermediate.print file.text.toList (keptTokens (tokens file.text.toList)) :=
      String.toList_ofList
    rw [hchars]
    omega
  exact ⟨compile?_eq options (by omega), transform?_eq form file.path hcode,
    transform?_eq form file.path (by omega)⟩

/-- A program that leaves a declaration, an annotation and a string open runs through both stages,
and its source is rejected at the line that begins with the forbidden word. -/
theorem stages_run_truncated :
    let file : SourceFile := ⟨"a.ts", "type\nconst é: \x7b\nwith 'ü"⟩
    byteLength file.text.toList < 2 ^ 31 ∧
      (compile? file ⟨[]⟩).isSome ∧
      (transform? .raw file.path (Intermediate.compile file ⟨[]⟩).code).isSome ∧
      transform? .raw file.path file.text = some (.error (.withStatement "a.ts" 3 0)) := by
  intro file
  have hsize : byteLength file.text.toList < 2 ^ 31 := by decide
  obtain ⟨hcompile, hcode, htext⟩ := stages_run file ⟨[]⟩ .raw hsize
  have hlines : Text.lines file.text.toList =
      ["type".toList, "const é: \x7b".toList, "with 'ü".toList] := by decide
  have hrejected : Lowering.rejection? file.path (Text.lines file.text.toList) =
      some (.withStatement "a.ts" 3 0) := by
    rw [Lowering.rejection?, hlines]
    simp [file, firstWord?, Lowering.lower, keyword?, Text.words, Text.wordsFrom_cons,
      Text.wordsFrom_nil, isBlank]
  refine ⟨hsize, ?_, ?_, ?_⟩
  · rw [hcompile, Option.isSome_some]
  · rw [hcode, Option.isSome_some]
  · rw [htext, Lowering.transform, hrejected]

end Provenance.Checked
