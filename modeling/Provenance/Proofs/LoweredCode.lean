import Provenance.Proofs.IntermediateMap
import Provenance.Proofs.LoweredLines

/-!
# Intermediate code after lowering

Each line of intermediate code is a row of printed tokens. A word of the line begins in one of them,
and lowering the line is the same as printing the row with `var` in place of a keyword that is a
word by itself. So the tokens of the final code are those of the prologue and then, one line lower,
the printed ones, and a word of the final code begins in the token that its original began in.
-/

namespace Provenance

open Text (FirstWord byteLength)

/-- The column is one of those that the printed token covers. -/
def Printed.Holds (p : Printed) (column : Nat) : Prop :=
  p.column ≤ column ∧ column < p.column + byteLength p.token.chars

namespace Printed

lemma lineChars_cons (leading : Bool) (t : Token) (ts : List Token) :
    lineChars leading (t :: ts) = gap leading t ++ t.chars ++ lineChars false ts := rfl

lemma lineFrom_cons (column : Nat) (leading : Bool) (t : Token) (ts : List Token) :
    lineFrom column leading (t :: ts) = ⟨column + byteLength (gap leading t), t⟩ ::
      lineFrom (column + byteLength (gap leading t) + byteLength t.chars) false ts := rfl

lemma gap_true (t : Token) : gap true t = [] := by simp [gap]

end Printed

namespace Intermediate

variable {sourceLines : List (List Char)} {row ts : List Token} {t : Token}

/-! ### Rows as lines -/

/-- A row as a line of intermediate code, without its line feed. -/
def rowLine (sourceLines : List (List Char)) (row : List Token) : List Char :=
  rowIndent sourceLines row ++ Printed.lineChars true row

lemma rowChars_eq (sourceLines : List (List Char)) (row : List Token) :
    rowChars sourceLines row = rowLine sourceLines row ++ ['\n'] := rfl

lemma rowIndent_cons (sourceLines : List (List Char)) (t : Token) (ts : List Token) :
    rowIndent sourceLines (t :: ts) = indentOf sourceLines t.line := rfl

lemma rowLine_cons (sourceLines : List (List Char)) (t : Token) (ts : List Token) :
    rowLine sourceLines (t :: ts) =
      indentOf sourceLines t.line ++ (t.chars ++ Printed.lineChars false ts) := by
  rw [rowLine, Printed.lineChars_cons, Printed.gap_true, rowIndent_cons, List.nil_append]

lemma rowPrinted_cons (sourceLines : List (List Char)) (t : Token) (ts : List Token) :
    rowPrinted sourceLines (t :: ts) = ⟨byteLength (indentOf sourceLines t.line), t⟩ ::
      Printed.lineFrom (byteLength (indentOf sourceLines t.line) + byteLength t.chars)
        false ts := by
  rw [rowPrinted, Printed.lineFrom_cons, Printed.gap_true, rowIndent_cons]
  rfl

lemma Readable.tail (h : Readable (t :: ts)) : Readable ts :=
  ⟨(List.forall_mem_cons.1 h.1).2, h.2.tail⟩

/-- The line feed is no part of a printed token, nor of what is printed around it. -/
lemma Readable.notMem_lineChars (h : Readable row) (leading : Bool) :
    '\n' ∉ Printed.lineChars leading row := by
  induction row generalizing leading with
  | nil => simp [Printed.lineChars]
  | cons t ts ih =>
    obtain ⟨closed, hfits⟩ := h.1 t List.mem_cons_self []
    have hgap : '\n' ∉ Printed.gap leading t := by
      unfold Printed.gap
      split_ifs <;> simp
    rw [Printed.lineChars_cons, List.mem_append, List.mem_append, not_or, not_or]
    exact ⟨⟨hgap, hfits.notMem_lineFeed⟩, ih h.tail false⟩

lemma Readable.notMem_rowLine (h : Readable row) : '\n' ∉ rowLine sourceLines row := by
  rw [rowLine, List.mem_append, not_or]
  exact ⟨fun hmem => (blank_of_mem_rowIndent hmem).2 rfl, h.notMem_lineChars true⟩

/-- What is needed to read a row back from its line: it is not empty, it is readable, and none of
its strings was left open. -/
structure Printable (row : List Token) : Prop where
  ne_nil : row ≠ []
  readable : Readable row
  closed : ∀ t ∈ row, t.Closed

/-- A row ends with a character that is no blank. -/
lemma getLast_lineChars (h : ∀ t ∈ row, t.Closed) {leading : Bool} {d : Char}
    (hd : d ∈ (Printed.lineChars leading row).getLast?) : isBlank d = false := by
  induction row generalizing leading with
  | nil => simp [Printed.lineChars] at hd
  | cons t ts ih =>
    obtain ⟨⟨rest, ht⟩, hts⟩ := List.forall_mem_cons.1 h
    rw [Printed.lineChars_cons, List.getLast?_append, Option.mem_def, Option.or_eq_some_iff] at hd
    rcases hd with hd | ⟨-, hd⟩
    · exact ih hts hd
    · rw [List.getLast?_append_of_ne_nil _ ht.ne_nil] at hd
      exact ht.getLast hd

lemma lineChars_ne_nil (h : Printable row) (leading : Bool) :
    Printed.lineChars leading row ≠ [] := by
  obtain ⟨t, ts, rfl⟩ := List.exists_cons_of_ne_nil h.ne_nil
  obtain ⟨rest, ht⟩ := h.closed t List.mem_cons_self
  rw [Printed.lineChars_cons]
  exact List.append_ne_nil_of_left_ne_nil (List.append_ne_nil_of_right_ne_nil _ ht.ne_nil) _

lemma Printable.isLine (h : Printable row) : Text.IsLine (rowLine sourceLines row) := by
  constructor
  · exact h.readable.notMem_rowLine
  · intro hlast
    rw [rowLine, List.getLast?_append_of_ne_nil _ (lineChars_ne_nil h true)] at hlast
    exact absurd (getLast_lineChars h.closed hlast) (by decide)

/-! ### Words in printed tokens -/

/-- A character of two texts in a row belongs to the second or to the first. -/
lemma append_eq_append_cons {xs ys before after : List Char} {d : Char}
    (h : xs ++ ys = before ++ d :: after) :
    (∃ cs, before = xs ++ cs ∧ ys = cs ++ d :: after) ∨ ∃ cs, xs = before ++ d :: cs := by
  rcases List.append_eq_append_iff.1 h with h | ⟨cs, hxs, hys⟩
  · exact .inl h
  cases cs with
  | nil => exact .inl ⟨[], by simpa using hxs.symm, hys.symm⟩
  | cons e cs => exact .inr ⟨cs, by rw [hxs, (List.cons.inj hys).1]⟩

lemma isBlank_of_mem_gap {leading : Bool} {c : Char} (h : c ∈ Printed.gap leading t) :
    isBlank c := by
  unfold Printed.gap at h
  split_ifs at h
  · rw [List.mem_singleton.1 h]
    decide
  · exact absurd h List.not_mem_nil

/-- A character that is no blank was printed as part of a token. -/
lemma exists_holds_lineFrom {leading : Bool} {before after : List Char} {d : Char}
    (heq : Printed.lineChars leading row = before ++ d :: after) (hd : isBlank d = false)
    (column : Nat) :
    ∃ p ∈ Printed.lineFrom column leading row, p.Holds (column + byteLength before) := by
  induction row generalizing leading before column with
  | nil => simp [Printed.lineChars] at heq
  | cons t ts ih =>
    rw [Printed.lineChars_cons] at heq
    rw [Printed.lineFrom_cons]
    rcases append_eq_append_cons heq with ⟨cs, rfl, hcs⟩ | ⟨cs, hcs⟩
    · obtain ⟨p, hp, hholds⟩ := ih hcs (column + byteLength (Printed.gap leading t) +
        byteLength t.chars)
      refine ⟨p, .tail _ hp, ?_⟩
      simpa [Nat.add_assoc] using hholds
    · refine ⟨_, List.mem_cons_self, ?_⟩
      rcases append_eq_append_cons hcs with ⟨bs, rfl, hbs⟩ | ⟨bs, hbs⟩
      · have := d.utf8Size_pos
        simp only [Printed.Holds, hbs, Text.byteLength_append, Text.byteLength_cons]
        omega
      · have hmem : d ∈ Printed.gap leading t := by simp [hbs]
        rw [isBlank_of_mem_gap hmem] at hd
        exact absurd hd (by decide)

/-- A word of a line begins in one of its printed tokens. -/
lemma exists_holds_rowPrinted {w : Nat × List Char}
    (hw : w ∈ Text.words (rowLine sourceLines row)) :
    ∃ p ∈ rowPrinted sourceLines row, p.Holds w.1 := by
  obtain ⟨before, d, after, heq, hd, hcolumn⟩ := Text.exists_of_mem_wordsFrom hw
  rw [Nat.zero_add] at hcolumn
  rcases append_eq_append_cons heq with ⟨cs, rfl, hcs⟩ | ⟨cs, hcs⟩
  · rw [hcolumn, Text.byteLength_append]
    exact exists_holds_lineFrom hcs hd _
  · have hmem : d ∈ rowIndent sourceLines row := by simp [hcs]
    rw [(blank_of_mem_rowIndent hmem).1] at hd
    exact absurd hd (by decide)

/-! ### Lowering a row -/

/-- The keyword that takes the place of a token. -/
def varToken (t : Token) : Token := { t with text := "var" }

lemma chars_varToken (t : Token) : (varToken t).chars = "var".toList := rfl

/-- The tokens of a row whose line is lowered. -/
def lowerTokens (line : List Char) : List Token → List Token
  | [] => []
  | t :: ts => (if (Lowering.lower line).declares then varToken t else t) :: ts

lemma fits_keyword {word rest : List Char} (hword : word ∈ Lowering.keywords)
    (hrest : ∀ d ∈ rest.head?, Lexeme.isNamePart d = false) :
    Lexeme.Fits (.token .name true) word rest := by
  have hfits : Lexeme.Fits (.token .name true) word [] := by
    simp only [Lowering.keywords, List.mem_cons, List.not_mem_nil, or_false] at hword
    rcases hword with rfl | rfl | rfl <;> exact ⟨_, _, rfl, by decide⟩
  obtain ⟨c, cs, rfl⟩ := List.exists_cons_of_ne_nil hfits.ne_nil
  exact hfits.before hrest

lemma var_mem_keywords : "var".toList ∈ Lowering.keywords := by decide

lemma Readable.reads (h : Readable (t :: ts)) (cs : List Char) :
    t.Reads (Printed.lineChars false ts ++ '\n' :: cs) := by
  obtain ⟨hends, hjoins⟩ := h
  cases ts with
  | nil => exact hends t List.mem_cons_self cs
  | cons u ts =>
    rw [Printed.lineChars_cons, List.append_assoc]
    exact (List.isChain_cons_cons.1 hjoins).1 _

/-- The indentation and the first word of a row's line. -/
lemma exists_firstWord_rowLine (sourceLines : List (List Char)) (h : Printable (t :: ts)) :
    ∃ word rest,
      FirstWord (rowLine sourceLines (t :: ts)) (rowIndent sourceLines (t :: ts)) word rest ∧
        t.chars ++ Printed.lineChars false ts = word ++ rest := by
  obtain ⟨rest, ht⟩ := h.closed t List.mem_cons_self
  obtain ⟨c, cs, hchars, -, hc⟩ := ht.head
  have hline : rowLine sourceLines (t :: ts) = rowIndent sourceLines (t :: ts) ++
      (c :: cs ++ Printed.lineChars false ts) := by
    rw [rowLine_cons, hchars, rowIndent_cons]
  have hmem : c ∈ rowLine sourceLines (t :: ts) := by simp [hline]
  obtain ⟨blanks, word, rest, hfirst⟩ := Text.exists_firstWord ⟨c, hmem, hc⟩
  have hblanks : rowIndent sourceLines (t :: ts) = blanks := by
    rw [← hfirst.takeWhile, hline,
      List.takeWhile_append_of_pos fun d hd => (blank_of_mem_rowIndent hd).1]
    simp [hc]
  subst hblanks
  refine ⟨word, rest, hfirst, ?_⟩
  have heq := hline.symm.trans hfirst.eq
  rw [hchars]
  exact List.append_cancel_left heq

/-- A keyword that is a word by itself is the first token of its row. -/
lemma chars_eq_of_keyword (h : Printable (t :: ts)) {word rest : List Char}
    (hfirst : FirstWord (rowLine sourceLines (t :: ts)) (rowIndent sourceLines (t :: ts)) word rest)
    (heq : t.chars ++ Printed.lineChars false ts = word ++ rest)
    (hword : word ∈ Lowering.keywords) :
    t.kind = .name ∧ t.chars = word ∧ Printed.lineChars false ts = rest := by
  obtain ⟨closed, ht⟩ := h.readable.reads []
  have hfits : Lexeme.Fits (.token .name true) word (rest ++ ['\n']) := by
    refine fits_keyword hword fun d hd => ?_
    have hblank : isBlank d := by
      cases rest with
      | nil =>
        obtain rfl : '\n' = d := by simpa using hd
        decide
      | cons e rest => exact hfirst.ends d hd
    by_contra hpart
    rw [Lexeme.isBlank_of_isNumberPart (by simp_all [Lexeme.isNumberPart])] at hblank
    exact absurd hblank (by decide)
  obtain ⟨hkind, hchars⟩ := ht.unique hfits (by rw [← List.append_assoc, heq, List.append_assoc])
  rw [hchars] at heq
  exact ⟨(LexemeKind.token.inj hkind).1, hchars, List.append_cancel_left heq⟩

/-- A name that gave way to `var` is still read in front of whatever followed it. -/
lemma reads_var {rest : List Char} (h : t.Reads rest) (hkind : t.kind = .name) :
    (varToken t).Reads rest := by
  obtain ⟨closed, hfits⟩ := h
  obtain ⟨c, cs, hchars⟩ := List.exists_cons_of_ne_nil hfits.ne_nil
  rw [hchars] at hfits
  have hfollow := hfits.mayFollow
  rw [hkind] at hfollow
  refine ⟨true, ?_⟩
  rw [show (varToken t).kind = .name from hkind]
  exact fits_keyword var_mem_keywords hfollow

/-- Lowering the line of a row is the same as printing the row with its tokens lowered. -/
lemma lower_rowLine (sourceLines : List (List Char)) (h : Printable row) :
    (Lowering.lower (rowLine sourceLines row)).text =
        rowLine sourceLines (lowerTokens (rowLine sourceLines row) row) ∧
      Printable (lowerTokens (rowLine sourceLines row) row) := by
  obtain ⟨t, ts, rfl⟩ := List.exists_cons_of_ne_nil h.ne_nil
  obtain ⟨word, rest, hfirst, heq⟩ := exists_firstWord_rowLine sourceLines h
  by_cases hword : word ∈ Lowering.keywords
  · obtain ⟨hkind, -, hrest⟩ := chars_eq_of_keyword h hfirst heq hword
    obtain ⟨⟨hends, hjoins⟩, hclosed⟩ := And.intro h.readable h.closed
    simp only [lowerTokens, Lowering.lower_of_keyword hfirst hword, if_true]
    refine ⟨?_, List.cons_ne_nil _ _, ⟨?_, ?_⟩, ?_⟩
    · rw [rowLine_cons, hrest]
      rfl
    · refine List.forall_mem_cons.2 ⟨fun cs => ?_, fun u hu => hends u (.tail _ hu)⟩
      exact reads_var (hends t List.mem_cons_self cs) hkind
    · rw [List.isChain_cons] at hjoins ⊢
      exact ⟨fun u hu cs => reads_var (hjoins.1 u hu cs) hkind, hjoins.2⟩
    · refine List.forall_mem_cons.2 ⟨⟨[], ?_⟩, fun u hu => hclosed u (.tail _ hu)⟩
      rw [show (varToken t).kind = .name from hkind]
      exact fits_keyword var_mem_keywords (by simp)
  · simpa [lowerTokens, Lowering.lower_of_not_keyword hfirst hword] using h

/-! ### Words of lowered rows -/

lemma lineFrom_add (column shift : Nat) (leading : Bool) (row : List Token) :
    Printed.lineFrom (column + shift) leading row =
      (Printed.lineFrom column leading row).map fun p => ⟨p.column + shift, p.token⟩ := by
  induction row generalizing column leading with
  | nil => rfl
  | cons t ts ih =>
    rw [Printed.lineFrom_cons, Printed.lineFrom_cons, List.map_cons, ← ih]
    simp only [Nat.add_right_comm _ shift]

/-- The printed tokens of a row and of what it is lowered to. -/
def twins (sourceLines : List (List Char)) (row : List Token) : List (Printed × Printed) :=
  (rowPrinted sourceLines row).zip
    (rowPrinted sourceLines (lowerTokens (rowLine sourceLines row) row))

lemma length_lowerTokens (line : List Char) (row : List Token) :
    (lowerTokens line row).length = row.length := by
  cases row <;> rfl

lemma length_rowPrinted (sourceLines : List (List Char)) (row : List Token) :
    (rowPrinted sourceLines row).length = row.length := by
  rw [← congrArg List.length (map_token_lineFrom _ _ row), List.length_map]
  rfl

lemma map_fst_twins (sourceLines : List (List Char)) (row : List Token) :
    (twins sourceLines row).map Prod.fst = rowPrinted sourceLines row :=
  List.map_fst_zip (by simp [length_rowPrinted, length_lowerTokens])

lemma map_snd_twins (sourceLines : List (List Char)) (row : List Token) :
    (twins sourceLines row).map Prod.snd =
      rowPrinted sourceLines (lowerTokens (rowLine sourceLines row) row) :=
  List.map_snd_zip (by simp [length_rowPrinted, length_lowerTokens])

/-- Where a row begins with a keyword, its other tokens move to the left. -/
lemma twins_of_keyword (h : Printable (t :: ts)) {word rest : List Char}
    (hfirst : FirstWord (rowLine sourceLines (t :: ts)) (rowIndent sourceLines (t :: ts)) word rest)
    (heq : t.chars ++ Printed.lineChars false ts = word ++ rest)
    (hword : word ∈ Lowering.keywords) :
    let column := byteLength (rowIndent sourceLines (t :: ts))
    twins sourceLines (t :: ts) = (⟨column, t⟩, ⟨column, varToken t⟩) ::
      (Printed.lineFrom (column + 3) false ts).map fun p =>
        (⟨p.column + (word.length - 3), p.token⟩, p) := by
  intro column
  obtain ⟨-, hchars, -⟩ := chars_eq_of_keyword h hfirst heq hword
  have hrow : rowPrinted sourceLines (t :: ts) = ⟨column, t⟩ ::
      (Printed.lineFrom (column + 3) false ts).map fun p =>
        ⟨p.column + (word.length - 3), p.token⟩ := by
    rw [← lineFrom_add, Nat.add_assoc, ← Lowering.byteLength_of_mem_keywords hword, ← hchars]
    exact rowPrinted_cons sourceLines t ts
  have hlowered : rowPrinted sourceLines (lowerTokens (rowLine sourceLines (t :: ts)) (t :: ts)) =
      ⟨column, varToken t⟩ :: Printed.lineFrom (column + 3) false ts := by
    have hvar : byteLength (varToken t).chars = 3 := by rw [chars_varToken]; rfl
    simp only [lowerTokens, Lowering.lower_of_keyword hfirst hword, if_true]
    rw [rowPrinted_cons, hvar]
    rfl
  rw [twins, hrow, hlowered, List.zip_cons_cons]
  congr 1
  simpa using List.zip_map' (l := Printed.lineFrom (column + 3) false ts)
    (f := fun p => (⟨p.column + (word.length - 3), p.token⟩ : Printed)) (g := id)

lemma twins_of_not_keyword {word rest : List Char}
    (hfirst : FirstWord (rowLine sourceLines (t :: ts)) (rowIndent sourceLines (t :: ts)) word rest)
    (hword : word ∉ Lowering.keywords) :
    twins sourceLines (t :: ts) = (rowPrinted sourceLines (t :: ts)).map fun p => (p, p) := by
  have hrow : lowerTokens (rowLine sourceLines (t :: ts)) (t :: ts) = t :: ts := by
    simp [lowerTokens, Lowering.lower_of_not_keyword hfirst hword]
  rw [twins, hrow]
  simpa using List.zip_map' (l := rowPrinted sourceLines (t :: ts)) (f := id) (g := id)

/-- A word begins in a printed token, and what is written for the word begins in its twin. -/
theorem exists_twins_of_word (h : Printable row) {w : Lowering.Word}
    (hw : w ∈ (Lowering.lower (rowLine sourceLines row)).words) :
    ∃ p ∈ twins sourceLines row, p.1.Holds w.column ∧ p.2.Holds w.written := by
  obtain ⟨t, ts, rfl⟩ := List.exists_cons_of_ne_nil h.ne_nil
  obtain ⟨word, rest, hfirst, heq⟩ := exists_firstWord_rowLine sourceLines h
  have hmem := List.mem_map_of_mem (f := Lowering.Word.column) hw
  rw [Lowering.map_column_words_lower hfirst] at hmem
  obtain ⟨u, hu, hcolumn⟩ := List.mem_map.1 hmem
  obtain ⟨p, hp, hholds⟩ := exists_holds_rowPrinted hu
  rw [hcolumn] at hholds
  by_cases hword : word ∈ Lowering.keywords
  · obtain ⟨-, hchars, -⟩ := chars_eq_of_keyword h hfirst heq hword
    have htwins := twins_of_keyword h hfirst heq hword
    rw [← map_fst_twins, htwins, List.map_cons] at hp
    rw [htwins]
    rw [Lowering.lower_of_keyword hfirst hword] at hw
    rcases List.mem_cons.1 hw with rfl | hw
    · refine ⟨_, List.mem_cons_self, ⟨le_refl _, ?_⟩, ⟨le_refl _, ?_⟩⟩
      · exact Nat.lt_add_of_pos_right (Text.byteLength_pos (by simp [hchars, hfirst.ne_nil]))
      · exact Nat.lt_add_of_pos_right (show 0 < byteLength "var".toList by decide)
    · have hwritten := Lowering.written_of_mem_laterWords hw
      have hafter := Lowering.le_column_of_mem_laterWords hw
      rcases List.mem_cons.1 hp with rfl | hp
      · have := hholds.2
        simp only [hchars] at this
        omega
      · obtain ⟨q, hq, rfl⟩ := List.mem_map.1 hp
        refine ⟨q, .tail _ hq, hholds, ?_⟩
        obtain ⟨u, -, rfl⟩ := List.mem_map.1 hq
        obtain ⟨hle, hlt⟩ := hholds
        simp only [Printed.Holds] at hle hlt ⊢
        omega
  · rw [twins_of_not_keyword hfirst hword]
    have hwritten := Lowering.written_eq_column hfirst hword hw
    exact ⟨(p, p), List.mem_map_of_mem hp, hholds, hwritten ▸ hholds⟩

end Intermediate

/-! ### Programs -/

namespace Lowering

variable {ls : List (List Char)}

lemma flatMap_lineFeed (ls : List (List Char)) :
    ls.flatMap ('\n' :: ·) ++ ['\n'] = '\n' :: ls.flatMap (· ++ ['\n']) := by
  induction ls with
  | nil => rfl
  | cons line ls ih => rw [List.flatMap_cons, List.append_assoc, ih]; simp

/-- The program of a text that is put together from lines: the prologue, then each of the lines with
a line feed after it. -/
lemma program_flatMap (hls : ls ≠ []) (h : ∀ line ∈ ls, Text.IsLine line) :
    program (ls.flatMap (· ++ ['\n'])) ((Text.lines (ls.flatMap (· ++ ['\n']))).map lower) =
      (prologue :: ls.map fun line => (lower line).text).flatMap (· ++ ['\n']) := by
  have hlast : (ls.flatMap (· ++ ['\n'])).getLast? = some '\n' := by
    rw [← List.dropLast_append_getLast hls, List.flatMap_append]
    simp
  rw [program, Text.lines_flatMap h, if_pos hlast, List.append_assoc]
  have := flatMap_lineFeed (ls.map fun line => (lower line).text)
  simp only [List.flatMap_map] at this
  rw [List.flatMap_map, this]
  simp [List.flatMap_map]

lemma program_nil : program [] ((Text.lines []).map lower) = prologue := by
  simp [program, Text.lines, Text.split, Text.linesOfPieces]

lemma isLine_prologue : Text.IsLine prologue := ⟨by decide, by decide⟩

end Lowering

namespace Intermediate

variable {text : List Char} {sourceLines : List (List Char)} {row : List Token}

/-! ### The final code -/

/-- The tokens that a text keeps, by source line. -/
abbrev keptRows (text : List Char) : List (List Token) := rows (keptTokens (tokens text))

/-- The final code of a text, when intermediate code is lowered. -/
def finalCode (text : List Char) : List Char :=
  let code := print text (keptTokens (tokens text))
  Lowering.program code ((Text.lines code).map Lowering.lower)

/-- A row after its line is lowered. -/
def lowerRow (sourceLines : List (List Char)) (row : List Token) : List Token :=
  lowerTokens (rowLine sourceLines row) row

lemma printable_of_mem_rows (h : lexicalErrors text = []) (hrow : row ∈ keptRows text) :
    Printable row := by
  refine ⟨?_, readable_of_mem_rows hrow, fun t ht => ?_⟩
  · rintro rfl
    exact nil_notMem_rows _ hrow
  · refine closed_of_lexicalErrors h ((keptTokens_sublist _).subset ?_)
    rw [← flatten_rows (keptTokens (tokens text))]
    exact List.mem_flatten_of_mem hrow ht

lemma print_eq (text : List Char) : print text (keptTokens (tokens text)) =
    ((keptRows text).map (rowLine (Text.split '\n' text))).flatMap (· ++ ['\n']) := by
  rw [print, List.flatMap_map]
  rfl

lemma isLine_of_mem_rows (h : lexicalErrors text = []) :
    ∀ line ∈ (keptRows text).map (rowLine (Text.split '\n' text)), Text.IsLine line :=
  List.forall_mem_map.2 fun _ hrow => (printable_of_mem_rows h hrow).isLine

/-- The lines of intermediate code are those of the rows. -/
lemma lines_print (h : lexicalErrors text = []) :
    Text.lines (print text (keptTokens (tokens text))) =
      (keptRows text).map (rowLine (Text.split '\n' text)) := by
  rw [print_eq, Text.lines_flatMap (isLine_of_mem_rows h)]

/-- The final code is the prologue and the lowered rows, unless there are no rows. -/
lemma finalCode_eq (h : lexicalErrors text = []) :
    finalCode text = Lowering.prologue ++
      if keptRows text = [] then []
      else '\n' :: ((keptRows text).map (lowerRow (Text.split '\n' text))).flatMap
        (rowChars (Text.split '\n' text)) := by
  rw [finalCode, print_eq]
  split_ifs with hnil
  · rw [hnil]
    exact Lowering.program_nil
  · have htext : ∀ row ∈ keptRows text,
        (Lowering.lower (rowLine (Text.split '\n' text) row)).text ++ ['\n'] =
          rowChars (Text.split '\n' text) (lowerRow (Text.split '\n' text) row) := by
      intro row hrow
      rw [(lower_rowLine _ (printable_of_mem_rows h hrow)).1, rowChars_eq]
      rfl
    rw [Lowering.program_flatMap (by simpa using hnil) (isLine_of_mem_rows h)]
    simp only [List.flatMap_cons, List.flatMap_map, List.map_map, Function.comp_def,
      List.flatMap_congr htext]
    simp

lemma lines_finalCode (h : lexicalErrors text = []) :
    Text.lines (finalCode text) = Lowering.prologue ::
      (keptRows text).map fun row =>
        (Lowering.lower (rowLine (Text.split '\n' text) row)).text := by
  rw [finalCode, print_eq]
  by_cases hnil : keptRows text = []
  · simp only [hnil, List.map_nil, List.flatMap_nil, Lowering.program_nil]
    decide
  · rw [Lowering.program_flatMap (by simpa using hnil) (isLine_of_mem_rows h),
      Text.lines_flatMap, List.map_map]
    · rfl
    · rw [List.map_map]
      refine List.forall_mem_cons.2 ⟨Lowering.isLine_prologue, List.forall_mem_map.2 ?_⟩
      intro row hrow
      obtain ⟨htext, hlowered⟩ :=
        lower_rowLine (Text.split '\n' text) (printable_of_mem_rows h hrow)
      rw [Function.comp_apply, htext]
      exact hlowered.isLine

/-! ### Tokens of the final code -/

/-- The tokens of the prologue. -/
def prologueTokens : List Token :=
  [⟨.string, "\"use strict\"", 0, 0, 0, false⟩, ⟨.punctuation, ";", 12, 0, 12, false⟩]

lemma readings_prologue (rest : List Char) :
    readings 0 0 (Lowering.prologue ++ rest) =
      prologueTokens.map Token.reading ++ readings 0 13 rest := by
  have hstring : (⟨.string, "\"use strict\"", 0, 0, 0, false⟩ : Token).Reads (';' :: rest) := by
    have hfits : Lexeme.Fits (.token .string true) "\"use strict\"".toList [] :=
      ⟨_, _, rfl, by decide⟩
    exact ⟨true, hfits.before fun hclosed => absurd hclosed (by decide)⟩
  have hmark : (⟨.punctuation, ";", 12, 0, 12, false⟩ : Token).Reads rest := by
    have hfits : Lexeme.Fits (.token .punctuation true) ";".toList [] := ⟨_, _, rfl, by decide⟩
    exact ⟨true, hfits.before fun hslash => absurd hslash (by decide)⟩
  calc
    readings 0 0 (Lowering.prologue ++ rest) =
        (.string, "\"use strict\"", 0, 0) :: readings 0 12 (';' :: rest) :=
      readings_token hstring 0 0
    _ = prologueTokens.map Token.reading ++ readings 0 13 rest :=
      congrArg (_ :: ·) (readings_token hmark 0 12)

/-- The tokens of the final code: those of the prologue and, one line lower, the lowered rows. -/
lemma map_reading_finalCode (h : lexicalErrors text = []) :
    (tokens (finalCode text)).map Token.reading = prologueTokens.map Token.reading ++
      ((keptRows text).zipIdx 1).flatMap fun (row, line) =>
        (rowPrinted (Text.split '\n' text) (lowerRow (Text.split '\n' text) row)).map
          (Printed.reading line) := by
  rw [map_reading_tokens, finalCode_eq h, readings_prologue]
  congr 1
  split_ifs with hnil
  · simp [hnil]
  · have hreadable : ∀ row ∈ (keptRows text).map (lowerRow (Text.split '\n' text)),
        Readable row :=
      List.forall_mem_map.2 fun row hrow =>
        (lower_rowLine _ (printable_of_mem_rows h hrow)).2.readable
    rw [readings_lineFeed, readings_rows hreadable, List.zipIdx_map, List.flatMap_map]
    rfl

/-! ### Twins in their codes -/

/-- Each printed token with its twin and the number of its line. -/
def printedTwins (text : List Char) : List (Nat × Printed × Printed) :=
  (keptRows text).zipIdx.flatMap fun (row, line) =>
    (twins (Text.split '\n' text) row).map (line, ·)

lemma map_fst_printedTwins (text : List Char) :
    (printedTwins text).map (fun z => (z.1, z.2.1)) =
      printed text (keptTokens (tokens text)) := by
  simp only [printedTwins, printed, List.map_flatMap, List.map_map, Function.comp_def]
  refine List.flatMap_congr fun q _ => ?_
  rw [← map_fst_twins, List.map_map]
  rfl

lemma map_snd_printedTwins (h : lexicalErrors text = []) :
    (tokens (finalCode text)).map Token.reading = prologueTokens.map Token.reading ++
      (printedTwins text).map fun z => z.2.2.reading (z.1 + 1) := by
  rw [map_reading_finalCode h]
  congr 1
  simp only [printedTwins, List.map_flatMap, List.map_map, Function.comp_def]
  have hnumbers : (keptRows text).zipIdx 1 =
      (keptRows text).zipIdx.map fun q => (q.1, q.2 + 1) := by
    rw [List.zipIdx_succ]
  rw [hnumbers, List.flatMap_map]
  refine List.flatMap_congr fun q _ => ?_
  rw [lowerRow, ← map_snd_twins, List.map_map]
  rfl

end Intermediate

end Provenance
