import Provenance.Proofs.LocatedTree

/-!
# The size of intermediate code

Erasing types makes code shorter: each line that is printed is no longer than the source line that
it was printed from, and no two are printed from one. Only the line feed of the last line may be new.
-/

namespace Provenance

open Text (byteLength byteLength_append)

namespace Text

/-- The bytes that lines take with a line feed for each. -/
def linesLength : List (List Char) → Nat
  | [] => 0
  | line :: ls => byteLength line + 1 + linesLength ls

@[simp] lemma linesLength_cons (line : List Char) (ls : List (List Char)) :
    linesLength (line :: ls) = byteLength line + 1 + linesLength ls := rfl

lemma linesLength_append (ls more : List (List Char)) :
    linesLength (ls ++ more) = linesLength ls + linesLength more := by
  induction ls with
  | nil => exact (Nat.zero_add _).symm
  | cons line ls ih => rw [List.cons_append, linesLength_cons, linesLength_cons, ih, ← Nat.add_assoc]

/-- The lines of a text take one line feed more than it has. -/
lemma linesLength_split (cs : List Char) : linesLength (split '\n' cs) = byteLength cs + 1 := by
  induction cs with
  | nil => rfl
  | cons c cs ih =>
    by_cases hc : c = '\n'
    · subst hc
      have hsize : ('\n' : Char).utf8Size = 1 := rfl
      rw [split, if_pos rfl, linesLength_cons, ih, byteLength_cons, hsize, byteLength_nil]
      omega
    · obtain ⟨piece, pieces, hpieces⟩ := List.exists_cons_of_ne_nil (split_ne_nil '\n' cs)
      rw [hpieces, linesLength_cons] at ih
      rw [split_cons_of_ne hc, linesLength_cons, byteLength_cons, byteLength_cons]
      simp only [hpieces, List.head_cons, List.tail_cons]
      omega

lemma linesLength_drop_le (ls : List (List Char)) {m n : Nat} (h : m ≤ n) :
    linesLength (ls.drop n) ≤ linesLength (ls.drop m) := by
  obtain ⟨k, rfl⟩ := Nat.exists_eq_add_of_le h
  rw [← List.drop_drop]
  conv_rhs => rw [← List.take_append_drop k (ls.drop m), linesLength_append]
  exact Nat.le_add_left _ _

lemma byteLength_lt_linesLength {line : List Char} {ls : List (List Char)} (h : line ∈ ls) :
    byteLength line < linesLength ls := by
  obtain ⟨before, after, rfl⟩ := List.mem_iff_append.mp h
  rw [linesLength_append, linesLength_cons]
  omega

lemma byteLength_withoutReturn_le (line : List Char) :
    byteLength (withoutReturn line) ≤ byteLength line := by
  rw [withoutReturn]
  split
  · obtain ⟨last, hlast⟩ := List.getLast?_eq_some_iff.mp ‹_›
    rw [hlast, List.dropLast_concat, byteLength_append]
    exact Nat.le_add_right _ _
  · exact Nat.le_refl _

lemma linesLength_linesOfPieces_le (pieces : List (List Char)) :
    linesLength (linesOfPieces pieces) ≤ linesLength pieces := by
  fun_induction linesOfPieces pieces with
  | case1 => exact Nat.le_refl _
  | case2 last hempty => exact Nat.zero_le _
  | case3 last hne => exact Nat.le_refl _
  | case4 piece pieces hne ih =>
    have hpiece := byteLength_withoutReturn_le piece
    rw [linesLength_cons, linesLength_cons]
    omega

/-- A line of a text is no longer than the text. -/
lemma byteLength_le_of_mem_lines {line cs : List Char} (h : line ∈ lines cs) :
    byteLength line ≤ byteLength cs := by
  have hlt := byteLength_lt_linesLength h
  have hle := linesLength_linesOfPieces_le (split '\n' cs)
  rw [linesLength_split] at hle
  rw [lines] at hlt
  omega

/-- Each line of a text but the last takes a byte of it. -/
lemma length_lines_le (cs : List Char) : (lines cs).length ≤ byteLength cs + 1 := by
  have hlength : ∀ ls, ls.length ≤ linesLength ls := by
    intro ls
    induction ls with
    | nil => exact Nat.le_refl _
    | cons line ls ih =>
      rw [List.length_cons, linesLength_cons]
      omega
  have hle := linesLength_linesOfPieces_le (split '\n' cs)
  rw [linesLength_split] at hle
  exact (hlength (lines cs)).trans hle

end Text

namespace Intermediate

variable {text : List Char} {row : List Token}

/-- A token ends within its line. -/
lemma exists_line_of_mem_tokens {t : Token} (h : t ∈ tokens text) :
    ∃ line, (Text.split '\n' text)[t.line]? = some line ∧
      t.column + byteLength t.chars ≤ byteLength line := by
  rw [← map_token_sites] at h
  obtain ⟨s, hs, rfl⟩ := List.mem_map.mp h
  have hsound := sound_of_mem_sites hs
  obtain ⟨closed, hfits⟩ := hsound.fits
  obtain ⟨piece, pieces, hrest⟩ := List.exists_cons_of_ne_nil (Text.split_ne_nil '\n' s.rest)
  have hline := Text.getElem?_split_append '\n' s.before (s.token.chars ++ s.rest)
  rw [append_of_mem_sites hs, ← hsound.line] at hline
  simp only [Text.split_append_of_notMem hfits.notMem_lineFeed hrest, List.head_cons] at hline
  refine ⟨_, hline, ?_⟩
  rw [byteLength_append, byteLength_append, hsound.column]
  omega

/-- A row is no longer than the line on which its tokens stand. -/
lemma byteLength_rowLine_le (h : row ∈ rows (keptTokens (tokens text))) {t : Token} (ht : t ∈ row) :
    ∃ line, (Text.split '\n' text)[t.line]? = some line ∧
      byteLength (rowLine (Text.split '\n' text) row) ≤ byteLength line := by
  obtain ⟨n, hn⟩ := List.mem_iff_getElem?.mp h
  obtain ⟨p, hp, -, hend, -⟩ := exists_last_lineFrom (List.ne_nil_of_mem ht)
    (byteLength (rowIndent (Text.split '\n' text) row)) true
  obtain ⟨hmem, -, hcolumn⟩ :=
    place_le_of_mem_printed (q := (n, p)) (mem_printed_iff.mpr ⟨row, hn, hp⟩)
  obtain ⟨line, hline, hle⟩ := exists_line_of_mem_tokens hmem
  have hrow : p.token ∈ row := by
    rw [← map_token_lineFrom _ _ row]
    exact List.mem_map_of_mem hp
  refine ⟨line, ?_, ?_⟩
  · rw [line_eq_of_mem_rows h ht hrow]
    exact hline
  · rw [rowLine, byteLength_append, ← hend]
    exact (Nat.add_le_add_right hcolumn _).trans hle

/-- Rows that come one below another take no more room than the lines from the first one on. -/
lemma byteLength_rows_le {rs : List (List Token)}
    (hrows : ∀ row ∈ rs, row ∈ rows (keptTokens (tokens text))) (habove : rs.Pairwise Above)
    {n : Nat} (hn : ∀ row ∈ rs, ∀ t ∈ row, n ≤ t.line) :
    byteLength (rs.flatMap (rowChars (Text.split '\n' text))) ≤
      Text.linesLength ((Text.split '\n' text).drop n) := by
  induction rs generalizing n with
  | nil => exact Nat.zero_le _
  | cons row rs ih =>
    obtain ⟨hrow, hrest⟩ := List.forall_mem_cons.mp hrows
    obtain ⟨hbelow, hchain⟩ := List.pairwise_cons.mp habove
    have hne : row ≠ [] := fun hnil => nil_notMem_rows _ (hnil ▸ hrow)
    obtain ⟨t, ts, rfl⟩ := List.exists_cons_of_ne_nil hne
    obtain ⟨line, hline, hle⟩ := byteLength_rowLine_le hrow List.mem_cons_self
    have hlater := ih hrest hchain (n := t.line + 1) fun row' hrow' u hu =>
      (hbelow row' hrow').2 t List.mem_cons_self u hu
    have hdrop : (Text.split '\n' text).drop t.line =
        line :: (Text.split '\n' text).drop (t.line + 1) := by
      obtain ⟨hlt, rfl⟩ := List.getElem?_eq_some_iff.mp hline
      exact List.drop_eq_getElem_cons hlt
    have hfeed : byteLength ['\n'] = 1 := rfl
    have hfrom := Text.linesLength_drop_le (Text.split '\n' text)
      (hn _ List.mem_cons_self t List.mem_cons_self)
    rw [hdrop, Text.linesLength_cons] at hfrom
    rw [List.flatMap_cons, byteLength_append, rowChars_eq, byteLength_append, hfeed]
    omega

/-- Intermediate code is no longer than its source, apart from the line feed of its last line. -/
theorem byteLength_print_le (text : List Char) :
    byteLength (print text (keptTokens (tokens text))) ≤ byteLength text + 1 := by
  have hle := byteLength_rows_le (n := 0) (fun row h => h)
    (pairwise_above_rows (isChain_joins_keptTokens text)) fun _ _ _ _ => Nat.zero_le _
  rwa [List.drop_zero, Text.linesLength_split] at hle

end Intermediate

end Provenance
