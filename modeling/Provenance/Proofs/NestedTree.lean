import Provenance.Proofs.CodeSize

/-!
# The nesting of a located tree

The statements of a lowered program stand on lines of its source, one below the other, and each
ranges from its first word to the end of its line without the blanks there. The program ranges from
the start of the source to its end. The end of a statement is counted in bytes and that of the
program in characters, so the program holds every statement but, if the source does not end with a
line feed, one on its last line that has more bytes than the line has characters.
-/

namespace Provenance

open Text (byteLength lastPiece FirstWord)

/-! ### Trimmed lines -/

namespace Text

/-- What is trimmed from the end of a line are blanks. -/
lemma exists_trimEnd_append (line : List Char) :
    ∃ tail, line = trimEnd line ++ tail ∧ ∀ c ∈ tail, isBlank c := by
  refine ⟨(line.reverse.takeWhile isBlank).reverse, ?_, fun c hc => ?_⟩
  · rw [trimEnd, ← List.reverse_append, List.takeWhile_append_dropWhile, List.reverse_reverse]
  · exact List.mem_takeWhile_imp (List.mem_reverse.mp hc)

lemma byteLength_trimEnd_le (line : List Char) : byteLength (trimEnd line) ≤ byteLength line := by
  obtain ⟨tail, hline, -⟩ := exists_trimEnd_append line
  rw [congrArg byteLength hline, byteLength_append]
  exact Nat.le_add_right _ _

/-- The first word of a line stays when the end is trimmed. -/
lemma FirstWord.byteLength_le_trimEnd {line blanks word rest : List Char}
    (h : FirstWord line blanks word rest) : byteLength blanks ≤ byteLength (trimEnd line) := by
  obtain ⟨tail, hline, htail⟩ := exists_trimEnd_append line
  rcases List.append_eq_append_iff.mp (h.eq.symm.trans hline) with ⟨more, htrim, -⟩ | ⟨more, -, hmore⟩
  · rw [htrim, byteLength_append]
    exact Nat.le_add_right _ _
  · -- the first word is not trimmed
    obtain ⟨c, cs, rfl⟩ := List.exists_cons_of_ne_nil h.ne_nil
    have hblank := htail c (by simp [hmore])
    rw [h.solid c List.mem_cons_self] at hblank
    cases hblank

/-! ### The last line -/

/-- A line has a number below that of the last piece of its text, or it is that piece. -/
lemma getElem?_linesOfPieces {pieces : List (List Char)} {n : Nat} {line : List Char}
    (h : (linesOfPieces pieces)[n]? = some line) :
    n + 1 < pieces.length ∨ n + 1 = pieces.length ∧ pieces.getLast? = some line := by
  fun_induction linesOfPieces pieces generalizing n with
  | case1 => cases h
  | case2 last hempty => cases h
  | case3 last hne =>
    cases n with
    | zero => exact .inr ⟨rfl, h⟩
    | succ n => cases h
  | case4 piece pieces hne ih =>
    have hpieces : pieces ≠ [] := fun hnil => hne hnil
    cases n with
    | zero =>
      left
      have := List.length_pos_of_ne_nil hpieces
      rw [List.length_cons]
      omega
    | succ n =>
      rw [List.length_cons, List.getLast?_cons_of_ne_nil hpieces]
      rw [List.getElem?_cons_succ] at h
      exact (ih h).imp Nat.succ_lt_succ fun hlast => ⟨congrArg (· + 1) hlast.1, hlast.2⟩

lemma getElem?_lines {cs line : List Char} {n : Nat} (h : (lines cs)[n]? = some line) :
    n < cs.count '\n' ∨ n = cs.count '\n' ∧ line = lastPiece '\n' cs := by
  rcases getElem?_linesOfPieces h with hlt | ⟨hlast, hline⟩
  · rw [length_split] at hlt
    exact .inl (Nat.lt_of_succ_lt_succ hlt)
  · rw [length_split] at hlast
    rw [List.getLast?_eq_some_getLast (split_ne_nil '\n' cs)] at hline
    exact .inr ⟨Nat.succ.inj hlast, (Option.some.inj hline).symm⟩

end Text

/-! ### Ranges -/

namespace Lowering

/-- The range of the statement that a line begins. -/
def statementRange (line : List Char) (n : Nat) : SourceRange :=
  ⟨⟨.ofNat (n + 1), .ofNat (lower line).indent⟩,
    ⟨.ofNat (n + 1), .ofNat (byteLength (Text.trimEnd line))⟩⟩

variable {source line : List Char} {n : Nat}

lemma exists_solid_of_beginsStatement (h : beginsStatement line) :
    ∃ c ∈ line, isBlank c = false := by
  by_contra hblank
  push Not at hblank
  have hnil : Text.trimStart line = [] :=
    List.dropWhile_eq_nil_iff.mpr fun c hc => by simpa using hblank c hc
  rw [beginsStatement, hnil] at h
  cases h

/-- The range of a statement lies on its line. -/
lemma range?_of_beginsStatement (hsize : byteLength source + 1 < UInt32.size)
    (hline : (Text.lines source)[n]? = some line) (hbegins : beginsStatement line) :
    (lower line).indent ≤ byteLength (Text.trimEnd line) ∧
      byteLength (Text.trimEnd line) < UInt32.size ∧ n + 1 < UInt32.size ∧
      SyntaxTree.range? (statement n line (lower line)) = some (statementRange line n) := by
  obtain ⟨blanks, word, rest, hfirst⟩ :=
    Text.exists_firstWord (exists_solid_of_beginsStatement hbegins)
  have hindent : (lower line).indent ≤ byteLength (Text.trimEnd line) := by
    rw [indent_lower hfirst]
    exact hfirst.byteLength_le_trimEnd
  have htrim := Text.byteLength_trimEnd_le line
  have hle := Text.byteLength_le_of_mem_lines (List.mem_of_getElem? hline)
  have hcount := source.count_le_length (a := '\n')
  have hlength := Text.length_le_byteLength source
  have hnumber : n ≤ source.count '\n' := by
    rcases Text.getElem?_lines hline with hlt | ⟨heq, -⟩
    · exact hlt.le
    · exact heq.le
  have hstop : byteLength (Text.trimEnd line) < UInt32.size := by omega
  have hnext : n + 1 < UInt32.size := by omega
  exact ⟨hindent, hstop, hnext, range?_statement hnext (hindent.trans_lt hstop) hstop⟩

/-- The range of a program: from the start of its source to the end, in characters. -/
def programRange (source : List Char) : SourceRange :=
  ⟨⟨1, 0⟩, ⟨.ofNat (source.count '\n' + 1), .ofNat (lastPiece '\n' source).length⟩⟩

/-- The end of a source fits in words. -/
lemma end_lt (hsize : byteLength source + 1 < UInt32.size) :
    source.count '\n' + 1 < UInt32.size ∧ (lastPiece '\n' source).length < UInt32.size := by
  have hlength := Text.length_le_byteLength source
  have hcount := source.count_le_length (a := '\n')
  have hlast := Text.length_le_byteLength (lastPiece '\n' source)
  have hle := Text.byteLength_lastPiece_le '\n' source
  omega

lemma range?_tree (fileName source : String) :
    SyntaxTree.range? (tree fileName source) = some (programRange source.toList) := by
  have hpoint : ∀ p : Position, SyntaxTree.point? (SyntaxTree.pointOf p.line.toNat p.column.toNat) =
      some p := fun p => by
    rw [SyntaxTree.point?_pointOf p.line.toNat_lt p.column.toNat_lt, UInt32.ofNat_toNat,
      UInt32.ofNat_toNat]
  exact SyntaxTree.range?_of_loc (get?_loc_tree fileName source) (hpoint _) (hpoint _)

/-- A statement lies in the range of its program, apart from its end if that is on the last line. -/
lemma statementRange_nested (hsize : byteLength source + 1 < UInt32.size)
    (hline : (Text.lines source)[n]? = some line) (hbegins : beginsStatement line) :
    let last := lastPiece '\n' source
    let r := statementRange line n
    let range := programRange source
    range.start ≤ r.start ∧ r.start ≤ r.stop ∧ r.start.line = r.stop.line ∧
      r.stop.line ≤ range.stop.line ∧
      (r.stop ≤ range.stop ↔
        (r.stop.line = range.stop.line → byteLength (Text.trimEnd last) ≤ last.length)) := by
  intro last r range
  obtain ⟨hindent, hstop, hnumber, -⟩ := range?_of_beginsStatement hsize hline hbegins
  obtain ⟨hlast, hcolumn⟩ := end_lt hsize
  have hrow : (UInt32.ofNat (n + 1)).toNat = n + 1 := UInt32.toNat_ofNat_of_lt' hnumber
  have hrows : (UInt32.ofNat (source.count '\n' + 1)).toNat = source.count '\n' + 1 :=
    UInt32.toNat_ofNat_of_lt' hlast
  have hstart : (UInt32.ofNat (lower line).indent).toNat = (lower line).indent :=
    UInt32.toNat_ofNat_of_lt' (hindent.trans_lt hstop)
  have hend : (UInt32.ofNat (byteLength (Text.trimEnd line))).toNat =
      byteLength (Text.trimEnd line) := UInt32.toNat_ofNat_of_lt' hstop
  have hchars : (UInt32.ofNat (lastPiece '\n' source).length).toNat =
      (lastPiece '\n' source).length := UInt32.toNat_ofNat_of_lt' hcolumn
  simp only [last, r, range, statementRange, programRange, Position.le_iff_toNat,
    UInt32.le_iff_toNat_le, ← UInt32.toNat_inj, hrow, hrows, hstart, hend, hchars]
  have hone : UInt32.toNat 1 = 1 := rfl
  have hzero : UInt32.toNat 0 = 0 := rfl
  rw [hone, hzero]
  refine ⟨by omega, .inr ⟨trivial, hindent⟩, trivial, ?_⟩
  rcases Text.getElem?_lines hline with hlt | ⟨heq, rfl⟩
  · exact ⟨by omega, iff_of_true (.inl (by omega)) fun hsame => by omega⟩
  · rw [heq]
    exact ⟨Nat.le_refl _, by simp⟩

/-- The lines of a source that begin statements, with their numbers. -/
def statementLines (source : List Char) : List (List Char × Nat) :=
  (Text.lines source).zipIdx.filter fun q => beginsStatement q.1

lemma mem_statementLines {q : List Char × Nat} : q ∈ statementLines source ↔
    (Text.lines source)[q.2]? = some q.1 ∧ beginsStatement q.1 := by
  rw [statementLines, List.mem_filter, ← List.mk_mem_zipIdx_iff_getElem?]

lemma pairwise_statementLines (source : List Char) :
    (statementLines source).Pairwise fun q q' => q.2 < q'.2 := by
  apply List.Pairwise.sublist List.filter_sublist
  rw [← List.pairwise_map (f := Prod.snd) (R := (· < ·)), List.zipIdx_map_snd]
  exact List.pairwise_lt_range'

/-- The tree of a source is nested. The ranges of its statements stand on single lines, one below
the other, and in the range of the program, except that the end of a statement on the last line is
one in bytes and the end of the program one in characters. -/
theorem tree_nested {form : MapForm} {fileName source : String} {out : TransformOutput}
    (h : transform form fileName source = .ok out)
    (hsize : byteLength source.toList + 1 < UInt32.size) :
    let last := lastPiece '\n' source.toList
    ∃ (program : Json) (range : SourceRange) (ranges : List SourceRange),
      out.tree = some program ∧ SyntaxTree.range? program = some range ∧
      (SyntaxTree.body program).map SyntaxTree.range? = ranges.map some ∧
      ranges.Pairwise (fun r r' => r.stop.line < r'.start.line) ∧
      ∀ r ∈ ranges, range.start ≤ r.start ∧ r.start ≤ r.stop ∧ r.start.line = r.stop.line ∧
        r.stop.line ≤ range.stop.line ∧
        (r.stop ≤ range.stop ↔
          (r.stop.line = range.stop.line → byteLength (Text.trimEnd last) ≤ last.length)) := by
  intro last
  have hranges := fun q (hq : q ∈ statementLines source.toList) =>
    range?_of_beginsStatement hsize (mem_statementLines.mp hq).1 (mem_statementLines.mp hq).2
  refine ⟨_, _, (statementLines source.toList).map fun q => statementRange q.1 q.2,
    tree_of_transform h, range?_tree fileName source, ?_, ?_, ?_⟩
  · rw [body_tree, statements, List.map_map, List.map_map]
    exact List.map_congr_left fun q hq => (hranges q hq).2.2.2
  · rw [List.pairwise_map]
    refine (pairwise_statementLines source.toList).imp_of_mem fun {q q'} hq hq' hlt => ?_
    obtain ⟨-, -, hline, -⟩ := hranges q hq
    obtain ⟨-, -, hline', -⟩ := hranges q' hq'
    rw [UInt32.lt_iff_toNat_lt]
    change (UInt32.ofNat (q.2 + 1)).toNat < (UInt32.ofNat (q'.2 + 1)).toNat
    rw [UInt32.toNat_ofNat_of_lt' hline, UInt32.toNat_ofNat_of_lt' hline']
    exact Nat.succ_lt_succ hlt
  · rw [List.forall_mem_map]
    intro q hq
    obtain ⟨hline, hbegins⟩ := mem_statementLines.mp hq
    exact statementRange_nested hsize hline hbegins

/-- A source without a rejected line is lowered. -/
lemma exists_transform_eq (form : MapForm) (fileName source : String)
    (h : rejection? fileName (Text.lines source.toList) = none) :
    ∃ out, transform form fileName source = .ok out := by
  simp only [transform, h]
  exact ⟨_, rfl⟩

/-- A statement on the last line, in front of trailing blanks, lies in the range of its program
although its end is counted in bytes. -/
theorem tree_nested_trailing_blanks :
    let source := "let a = 1;\r\n  f('é')  "
    ∃ out program range, transform .raw "a.js" source = .ok out ∧ out.tree = some program ∧
      SyntaxTree.range? program = some range ∧
      (SyntaxTree.body program).map SyntaxTree.range? =
        [some ⟨⟨1, 0⟩, ⟨1, 10⟩⟩, some ⟨⟨2, 2⟩, ⟨2, 9⟩⟩] ∧
      ∀ node ∈ SyntaxTree.body program, ∃ r, SyntaxTree.range? node = some r ∧
        range.start ≤ r.start ∧ r.stop ≤ range.stop := by
  intro source
  obtain ⟨out, hout⟩ := exists_transform_eq .raw "a.js" source (by decide +kernel)
  obtain ⟨program, range, ranges, hprogram, hrange, hranges, -, hnested⟩ :=
    tree_nested hout (by decide +kernel)
  have hlast : byteLength (Text.trimEnd (lastPiece '\n' source.toList)) ≤
      (lastPiece '\n' source.toList).length := by decide +kernel
  refine ⟨out, program, range, hout, hprogram, hrange, ?_, fun node hnode => ?_⟩
  · obtain rfl := Option.some.inj (hprogram.symm.trans (tree_of_transform hout))
    decide +kernel
  · have hmem := List.mem_map_of_mem (f := SyntaxTree.range?) hnode
    rw [hranges] at hmem
    obtain ⟨r, hr, hnode⟩ := List.mem_map.mp hmem
    obtain ⟨hstart, -, -, -, hstop⟩ := hnested r hr
    exact ⟨r, hnode.symm, hstart, hstop.mpr fun _ => hlast⟩

/-- The range of a program may end in front of the end of a statement. -/
theorem tree_not_nested :
    ∃ out program range node r, transform .raw "a.js" "f('é')" = .ok out ∧
      out.tree = some program ∧ SyntaxTree.range? program = some range ∧
      node ∈ SyntaxTree.body program ∧ SyntaxTree.range? node = some r ∧
      range = ⟨⟨1, 0⟩, ⟨1, 6⟩⟩ ∧ r = ⟨⟨1, 0⟩, ⟨1, 7⟩⟩ ∧ ¬ r.stop ≤ range.stop := by
  obtain ⟨out, hout⟩ := exists_transform_eq .raw "a.js" "f('é')" (by decide +kernel)
  have hprogram := tree_of_transform hout
  have hranges : (SyntaxTree.body (tree "a.js" "f('é')")).map SyntaxTree.range? =
      [some ⟨⟨1, 0⟩, ⟨1, 7⟩⟩] := by decide +kernel
  obtain ⟨node, hnode, hr⟩ := List.mem_map.mp (hranges ▸ List.mem_singleton_self _)
  exact ⟨out, _, _, node, _, hout, hprogram, by decide +kernel, hnode, hr, rfl, rfl,
    by decide +kernel⟩

end Lowering

end Provenance
