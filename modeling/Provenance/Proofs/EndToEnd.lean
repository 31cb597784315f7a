import Provenance.Proofs.TracedWords

/-!
# From the final code to the source

A typed source goes through both stages, and the map that comes out leads from the final code back
to the source. Every query on a line that was printed from the source is answered with the place of
a token: the one that survived both stages and in which the last word at or before the query begins.
Nothing else is answered: not the prologue, not the margin of a line, nothing past the last line.
-/

namespace Provenance

open Text (FirstWord byteLength)

/-! ### What lookups should say -/

/-- The word of a line that a column belongs to: the last one that begins at or before it. -/
def Text.wordAt? (line : List Char) (column : Nat) : Option (Nat × List Char) :=
  ((words line).filter (·.1 ≤ column)).getLast?

/-- The column is one of those that the token covers on the line. -/
def Token.Holds (t : Token) (line column : Nat) : Prop :=
  t.line = line ∧ t.column ≤ column ∧ column < t.column + byteLength t.chars

/-- A token that survives both stages: as it stands in the source, as it is found in intermediate
code and as it is found in the final code, where two tokens of the prologue come first. -/
def Survives (source intermediate final : List Char) (kept found written : Token) : Prop :=
  ∃ n : Nat, (keptTokens (tokens source))[n]? = some kept ∧
    (tokens intermediate)[n]? = some found ∧ (tokens final)[n + 2]? = some written

/-- What lookups should answer for all positions of the final code. -/
structure Located (source intermediate final : List Char) (index : OriginIndex) : Prop where
  /-- The prologue is the only line that is not printed from a line of intermediate code. -/
  lines : (Text.lines final).length = (Text.lines intermediate).length + 1
  /-- All tokens that are kept survive, and those of the prologue are the only others. -/
  survivors : (tokens intermediate).length = (keptTokens (tokens source)).length ∧
    (tokens final).length = (keptTokens (tokens source)).length + 2
  /-- Neither the prologue nor what is past the last line has an origin. -/
  outside : ∀ query : Position,
    query.line.toNat ≤ 1 ∨ (Text.lines final).length < query.line.toNat →
      index.originOf? query = none
  /-- A line has no origin before its first character that is no blank. -/
  margin : ∀ (i : Nat) (line : List Char) (query : Position),
    (Text.lines final)[i]? = some line → query.line.toNat = i + 1 →
      query.column.toNat < byteLength (line.takeWhile isBlank) → index.originOf? query = none
  /-- From there on, the answer is where the one token stands in which the last word at or before
  the query begins. All tokens of the same intermediate line stand on one line of the source. -/
  word : ∀ (i : Nat) (line : List Char) (query : Position),
    (Text.lines final)[i + 1]? = some line → query.line.toNat = i + 2 →
      byteLength (line.takeWhile isBlank) ≤ query.column.toNat →
        ∃ (word : Nat × List Char) (kept found written : Token) (origin : Position),
          Text.wordAt? line query.column.toNat = some word ∧
          Survives source intermediate final kept found written ∧
          found.line = i ∧ written.Holds (i + 1) word.1 ∧
          (written.text = kept.text ∨
            (kept.text = "const" ∨ kept.text = "let") ∧ written.text = "var") ∧
          index.originOf? query = some origin ∧ kept.StandsAt origin ∧
          ∀ kept' found' written', Survives source intermediate final kept' found' written' →
            (found'.line = i → kept'.line = kept.line) ∧
              (written'.Holds (i + 1) word.1 → kept' = kept)
  /-- The answer at a token that begins a word is where the token itself stood. -/
  own : ∀ (kept found written : Token) (line word : List Char) (query : Position),
    Survives source intermediate final kept found written →
      (Text.lines final)[written.line]? = some line → (written.column, word) ∈ Text.words line →
        query.line.toNat = written.line + 1 → query.column.toNat = written.column →
          ∃ origin, index.originOf? query = some origin ∧ kept.StandsAt origin

/-! ### Words by columns -/

namespace Text

variable {line : List Char} {column : Nat}

lemma byteLength_margin_le {w : Nat × List Char} (h : w ∈ words line) :
    byteLength (line.takeWhile isBlank) ≤ w.1 := by
  obtain ⟨before, d, after, rfl, hd, hw⟩ := exists_of_mem_wordsFrom h
  rw [hw, Nat.zero_add]
  exact Intermediate.byteLength_takeWhile_append_le hd after

/-- After the margin of a line every column belongs to a word, the last one that begins so far. -/
lemma exists_wordAt? (h : ∃ c ∈ line, isBlank c = false)
    (hmargin : byteLength (line.takeWhile isBlank) ≤ column) :
    ∃ word, wordAt? line column = some word ∧ word ∈ words line ∧ word.1 ≤ column ∧
      ∀ w ∈ words line, w.1 ≤ column → w.1 ≤ word.1 := by
  obtain ⟨blanks, first, rest, hfirst⟩ := exists_firstWord h
  rw [hfirst.takeWhile] at hmargin
  have hne : (words line).filter (·.1 ≤ column) ≠ [] := by
    rw [hfirst.words, List.filter_cons_of_pos (by simpa using hmargin)]
    exact List.cons_ne_nil _ _
  have hlast := List.getLast_mem hne
  obtain ⟨hmem, hle⟩ := List.mem_filter.1 hlast
  refine ⟨_, List.getLast?_eq_some_getLast hne, hmem, of_decide_eq_true hle, fun w hw hwle => ?_⟩
  have hsorted := (pairwise_wordsFrom 0 line).filter fun w => decide (w.1 ≤ column)
  have hw' : w ∈ (words line).filter fun w => decide (w.1 ≤ column) :=
    List.mem_filter.2 ⟨hw, decide_eq_true hwle⟩
  change ((words line).filter _).Pairwise _ at hsorted
  rw [← List.dropLast_append_getLast hne] at hsorted hw'
  rcases List.mem_append.1 hw' with hw' | hw'
  · exact le_of_lt ((List.pairwise_append.1 hsorted).2.2 w hw' _ (List.mem_singleton_self _))
  · rw [List.mem_singleton.1 hw']

end Text

/-! ### Tokens that survive -/

namespace Intermediate

variable {text : List Char} {z : Nat × Printed × Printed}

/-- The code that is printed for a text. -/
abbrev printedCode (text : List Char) : List Char := print text (keptTokens (tokens text))

lemma exists_row_of_mem_printedTwins (hz : z ∈ printedTwins text) :
    ∃ row, (row, z.1) ∈ (keptRows text).zipIdx ∧ z.2 ∈ twins (Text.split '\n' text) row := by
  obtain ⟨⟨row, line⟩, hrow, hz⟩ := List.mem_flatMap.1 hz
  obtain ⟨p, hp, rfl⟩ := List.mem_map.1 hz
  exact ⟨row, hrow, hp⟩

lemma token_mem_row {sourceLines : List (List Char)} {row : List Token} {p : Printed × Printed}
    (hp : p ∈ twins sourceLines row) : p.1.token ∈ row := by
  have hmem := List.mem_map_of_mem (f := Prod.fst) hp
  rw [map_fst_twins] at hmem
  rw [← map_token_lineFrom _ _ row]
  exact List.mem_map_of_mem hmem

/-- Tokens that are printed on one line stood on one line. -/
lemma line_eq_of_mem_printedTwins {z' : Nat × Printed × Printed} (hz : z ∈ printedTwins text)
    (hz' : z' ∈ printedTwins text) (hline : z'.1 = z.1) :
    z'.2.1.token.line = z.2.1.token.line := by
  obtain ⟨row, hrow, hp⟩ := exists_row_of_mem_printedTwins hz
  obtain ⟨row', hrow', hp'⟩ := exists_row_of_mem_printedTwins hz'
  rw [List.mk_mem_zipIdx_iff_getElem?] at hrow hrow'
  rw [hline, hrow] at hrow'
  obtain rfl := Option.some.inj hrow'
  exact line_eq_of_mem_rows (List.mem_of_getElem? hrow) (token_mem_row hp') (token_mem_row hp)

lemma length_printedTwins (text : List Char) :
    (printedTwins text).length = (keptTokens (tokens text)).length := by
  rw [← congrArg List.length (map_token_printed text _), ← map_fst_printedTwins, List.length_map,
    List.length_map]

lemma getElem?_tokens_finalCode (h : lexicalErrors text = []) (n : Nat) :
    (tokens (finalCode text))[n + 2]?.map Token.reading =
      (printedTwins text)[n]?.map fun z => z.2.2.reading (z.1 + 1) := by
  have := congrArg (·[n + 2]?) (map_snd_printedTwins h)
  simpa [prologueTokens] using this

lemma getElem?_tokens_print (text : List Char) (n : Nat) :
    (tokens (printedCode text))[n]?.map Token.reading =
      (printedTwins text)[n]?.map fun z => z.2.1.reading z.1 := by
  have := congrArg (·[n]?) (map_reading_print text)
  rw [← map_fst_printedTwins] at this
  simpa [Function.comp_def] using this

lemma getElem?_keptTokens (n : Nat) :
    (keptTokens (tokens text))[n]? = (printedTwins text)[n]?.map fun z => z.2.1.token := by
  have := congrArg (·[n]?) (map_token_printed text (keptTokens (tokens text)))
  rw [← map_fst_printedTwins] at this
  simpa [Function.comp_def] using this.symm

/-- A token that survives was printed, and it is found where it was printed. -/
lemma exists_twins_of_survives (h : lexicalErrors text = []) {kept found written : Token}
    (hsurvives : Survives text (printedCode text) (finalCode text) kept found written) :
    ∃ z ∈ printedTwins text, kept = z.2.1.token ∧ found.reading = z.2.1.reading z.1 ∧
      written.reading = z.2.2.reading (z.1 + 1) := by
  obtain ⟨n, hkept, hfound, hwritten⟩ := hsurvives
  have hprint := getElem?_tokens_print text n
  have hfinal := getElem?_tokens_finalCode h n
  rw [getElem?_keptTokens, Option.map_eq_some_iff] at hkept
  obtain ⟨z, hz, rfl⟩ := hkept
  rw [hfound, hz] at hprint
  rw [hwritten, hz] at hfinal
  exact ⟨z, List.mem_of_getElem? hz, rfl, Option.some.inj hprint, Option.some.inj hfinal⟩

/-- Tokens of one text do not overlap. -/
lemma eq_of_holds {t u : Token} {m n line column : Nat} (ht : (tokens text)[m]? = some t)
    (hu : (tokens text)[n]? = some u) (htoken : t.Holds line column)
    (hother : u.Holds line column) : m = n := by
  obtain ⟨hm, rfl⟩ := List.getElem?_eq_some_iff.1 ht
  obtain ⟨hn, rfl⟩ := List.getElem?_eq_some_iff.1 hu
  obtain ⟨hline, hle, hlt⟩ := htoken
  obtain ⟨hline', hle', hlt'⟩ := hother
  have hbefore := List.pairwise_iff_getElem.1 (pairwise_tokens text)
  rcases Nat.lt_trichotomy m n with hmn | heq | hnm
  · have := hbefore m n hm hn hmn
    omega
  · exact heq
  · have := hbefore n m hn hm hnm
    omega

/-- Different tokens that survive are written at different places. -/
lemma kept_eq_of_holds {source intermediate final : List Char} {line column : Nat}
    {kept found written kept' found' written' : Token}
    (h : Survives source intermediate final kept found written)
    (h' : Survives source intermediate final kept' found' written')
    (hwritten : written.Holds line column) (hwritten' : written'.Holds line column) :
    kept' = kept := by
  obtain ⟨n, hkept, -, hfinal⟩ := h
  obtain ⟨n', hkept', -, hfinal'⟩ := h'
  obtain rfl : n = n' := by
    have := eq_of_holds hfinal hfinal' hwritten hwritten'
    omega
  exact Option.some.inj (hkept'.symm.trans hkept)

/-- What was printed survives. -/
lemma survives_of_mem_printedTwins (h : lexicalErrors text = []) (hz : z ∈ printedTwins text) :
    ∃ found written, Survives text (printedCode text) (finalCode text) z.2.1.token found written ∧
      found.reading = z.2.1.reading z.1 ∧ written.reading = z.2.2.reading (z.1 + 1) := by
  obtain ⟨n, hn⟩ := List.getElem?_of_mem hz
  have hprint := getElem?_tokens_print text n
  have hfinal := getElem?_tokens_finalCode h n
  rw [hn, Option.map_some] at hprint hfinal
  obtain ⟨found, hfound, hreading⟩ := Option.map_eq_some_iff.1 hprint
  obtain ⟨written, hwritten, hreading'⟩ := Option.map_eq_some_iff.1 hfinal
  refine ⟨found, written, ⟨n, ?_, hfound, hwritten⟩, hreading, hreading'⟩
  rw [getElem?_keptTokens, hn]
  rfl

/-- Only a keyword changes when its line is lowered. -/
lemma text_of_mem_twins {sourceLines : List (List Char)} {row : List Token} (h : Printable row)
    {p : Printed × Printed} (hp : p ∈ twins sourceLines row) :
    p.2.token.text = p.1.token.text ∨
      (p.1.token.text = "const" ∨ p.1.token.text = "let") ∧ p.2.token.text = "var" := by
  obtain ⟨t, ts, rfl⟩ := List.exists_cons_of_ne_nil h.ne_nil
  obtain ⟨word, rest, hfirst, heq⟩ := exists_firstWord_rowLine sourceLines h
  by_cases hword : word ∈ Lowering.keywords
  · rw [twins_of_keyword h hfirst heq hword] at hp
    rcases List.mem_cons.1 hp with rfl | hp
    · obtain ⟨-, hchars, -⟩ := chars_eq_of_keyword h hfirst heq hword
      have htext : t.text = .ofList word := by rw [← hchars, Token.ofList_chars]
      simp only [Lowering.keywords, List.mem_cons, List.not_mem_nil, or_false] at hword
      simp only [htext, varToken]
      rcases hword with rfl | rfl | rfl <;> simp
    · obtain ⟨q, -, rfl⟩ := List.mem_map.1 hp
      exact .inl rfl
  · rw [twins_of_not_keyword hfirst hword] at hp
    obtain ⟨q, -, rfl⟩ := List.mem_map.1 hp
    exact .inl rfl

/-! ### Lookups -/

variable {file : SourceFile} {options : Config.CompilerOptions} {q : Nat × Lowering.Word}

lemma standsAt_position {t : Token} (hline : t.line < 2 ^ 31) (hcolumn : t.column < 2 ^ 31) :
    t.StandsAt t.position := toNat_ofPoint hline hcolumn

/-- A word is traced to the token in which it begins. -/
lemma exists_twins_of_tracedEntry (file : SourceFile) (options : Config.CompilerOptions)
    (h : lexicalErrors file.text.toList = [])
    (hsize : byteLength file.text.toList < 2 ^ 31) (hq : q ∈ finalWords file.text.toList) :
    ∃ z ∈ printedTwins file.text.toList, z.1 = q.1 ∧ z.2.2.Holds q.2.written ∧
      (Lowering.tracedEntry (.ofSourceMap (map file options)) q).origin =
        some z.2.1.token.position := by
  obtain ⟨z, hz, hline, hholds, hholds'⟩ := exists_twins_of_mem_finalWords h hq
  refine ⟨z, hz, hline, hholds', ?_⟩
  have := originOf?_of_holds options hsize (mem_printed_of_mem_printedTwins hz) hholds
  simp only [hline] at this
  exact this

/-- The lines of the final code after the prologue come from the rows. -/
lemma exists_row_of_line (h : lexicalErrors text = []) {i : Nat} {line : List Char}
    (hline : (Text.lines (finalCode text))[i + 1]? = some line) :
    ∃ row, (keptRows text)[i]? = some row ∧ Printable row ∧
      line = (Lowering.lower (rowLine (Text.split '\n' text) row)).text := by
  rw [lines_finalCode h, List.getElem?_cons_succ, List.getElem?_map,
    Option.map_eq_some_iff] at hline
  obtain ⟨row, hrow, rfl⟩ := hline
  exact ⟨row, hrow, printable_of_mem_rows h (List.mem_of_getElem? hrow), rfl⟩

/-- The words of the final code are written where the words of its lines begin. -/
lemma exists_word_iff (h : lexicalErrors text = []) {i : Nat} {line : List Char}
    (hline : (Text.lines (finalCode text))[i + 1]? = some line) (c : Nat) :
    (∃ w ∈ Text.words line, w.1 = c) ↔
      ∃ q ∈ finalWords text, q.1 = i ∧ q.2.written = c := by
  obtain ⟨row, hrow, hprintable, rfl⟩ := exists_row_of_line h hline
  obtain ⟨word, rest, hfirst⟩ :=
    exists_firstWord_of_printable (Text.split '\n' text) hprintable
  have hwritten : c ∈ (Text.words (Lowering.lower
      (rowLine (Text.split '\n' text) row)).text).map Prod.fst ↔
        c ∈ (Lowering.lower (rowLine (Text.split '\n' text) row)).words.map
          Lowering.Word.written := by
    rw [Lowering.map_written_words_lower hfirst]
  rw [List.mem_map, List.mem_map] at hwritten
  rw [hwritten]
  constructor
  · rintro ⟨w, hw, rfl⟩
    exact ⟨(i, w), mem_finalWords_iff.2 ⟨row, hrow, hw⟩, rfl, rfl⟩
  · rintro ⟨q, hq, rfl, rfl⟩
    obtain ⟨row', hrow', hw⟩ := mem_finalWords_iff.1 hq
    obtain rfl := Option.some.inj (hrow.symm.trans hrow')
    exact ⟨q.2, hw, rfl⟩

/-- A line of the final code after the prologue is not blank. -/
lemma exists_solid_of_line (h : lexicalErrors text = []) {i : Nat} {line : List Char}
    (hline : (Text.lines (finalCode text))[i + 1]? = some line) :
    ∃ c ∈ line, isBlank c = false := by
  obtain ⟨row, -, hprintable, rfl⟩ := exists_row_of_line h hline
  obtain ⟨htext, hlowered⟩ := lower_rowLine (Text.split '\n' text) hprintable
  obtain ⟨first, rest, hfirst⟩ := exists_firstWord_of_printable (Text.split '\n' text) hlowered
  rw [htext]
  exact hfirst.exists_solid

lemma length_lines_finalCode (h : lexicalErrors text = []) :
    (Text.lines (finalCode text)).length = (keptRows text).length + 1 := by
  rw [lines_finalCode h, List.length_cons, List.length_map]

/-- A word is traced to where the token stood in which it begins. -/
lemma exists_survives_of_mem_finalWords (file : SourceFile) (options : Config.CompilerOptions)
    (h : lexicalErrors file.text.toList = [])
    (hsize : byteLength file.text.toList < 2 ^ 31) (hq : q ∈ finalWords file.text.toList) :
    ∃ kept found written,
      Survives file.text.toList (printedCode file.text.toList) (finalCode file.text.toList)
        kept found written ∧
      found.line = q.1 ∧ written.Holds (q.1 + 1) q.2.written ∧
      (written.text = kept.text ∨
        (kept.text = "const" ∨ kept.text = "let") ∧ written.text = "var") ∧
      (Lowering.tracedEntry (.ofSourceMap (map file options)) q).origin = some kept.position ∧
      kept.StandsAt kept.position ∧
      ∀ kept' found' written',
        Survives file.text.toList (printedCode file.text.toList) (finalCode file.text.toList)
          kept' found' written' → found'.line = q.1 → kept'.line = kept.line := by
  obtain ⟨z, hz, hline, ⟨hle, hlt⟩, horigin⟩ := exists_twins_of_tracedEntry file options h hsize hq
  obtain ⟨found, written, hsurvives, hfound, hreading⟩ := survives_of_mem_printedTwins h hz
  obtain ⟨-, -, hstands, hstands'⟩ :=
    place_lt_of_mem_printed hsize (mem_printed_of_mem_printedTwins hz)
  obtain ⟨row, hrow, htwins⟩ := exists_row_of_mem_printedTwins hz
  have htext :=
    text_of_mem_twins (printable_of_mem_rows h (List.fst_mem_of_mem_zipIdx hrow)) htwins
  simp only [Token.reading, Printed.reading, Prod.mk.injEq] at hfound hreading
  obtain ⟨-, -, hfoundline, -⟩ := hfound
  obtain ⟨-, hwrittentext, hwrittenline, hwrittencolumn⟩ := hreading
  have hchars : written.chars = z.2.2.token.chars := congrArg String.toList hwrittentext
  refine ⟨z.2.1.token, found, written, hsurvives, hfoundline.trans hline, ⟨?_, ?_, ?_⟩,
    hwrittentext ▸ htext, horigin, standsAt_position hstands hstands', ?_⟩
  · rw [hwrittenline, hline]
  · rw [hwrittencolumn]
    exact hle
  · rw [hwrittencolumn, hchars]
    exact hlt
  · intro kept' found' written' hsurvives' hline'
    obtain ⟨z', hz', rfl, hfound', -⟩ := exists_twins_of_survives h hsurvives'
    simp only [Token.reading, Printed.reading, Prod.mk.injEq] at hfound'
    exact line_eq_of_mem_printedTwins hz hz' (by omega)

/-- Lookups among the entries of all words answer as they should. -/
theorem located_of_entries (file : SourceFile) (options : Config.CompilerOptions)
    (h : lexicalErrors file.text.toList = [])
    (hsize : byteLength file.text.toList < 2 ^ 31) :
    Located file.text.toList (printedCode file.text.toList) (finalCode file.text.toList)
      (.ofEntries ((finalWords file.text.toList).map
        (Lowering.tracedEntry (.ofSourceMap (map file options))))) where
  -- both programs have a line for each row of kept tokens, the final one the prologue besides
  lines := by
    rw [length_lines_finalCode h, lines_print h, List.length_map]
  -- each kept token has one twin in intermediate code and one in the final code
  survivors := by
    have hfound := congrArg List.length (map_reading_print file.text.toList)
    have hfinal := congrArg List.length (map_snd_printedTwins h)
    rw [List.length_map, ← map_fst_printedTwins, List.length_map, List.length_map,
      length_printedTwins] at hfound
    rw [List.length_map, List.length_append, List.length_map, List.length_map,
      length_printedTwins, Nat.add_comm] at hfinal
    exact ⟨hfound, hfinal⟩
  -- words stand on lines of rows, and the query is on none of these
  outside query hquery := by
    refine originOf?_eq_none_of_words h hsize fun q hq hline => ?_
    obtain ⟨row, hrow, -⟩ := mem_finalWords_iff.1 hq
    have hlt := (List.getElem?_eq_some_iff.1 hrow).1
    rw [length_lines_finalCode h] at hquery
    omega
  -- the words of a line stand behind its margin, so none is at or before the query
  margin i line query hi hquery hcolumn := by
    refine originOf?_eq_none_of_words h hsize fun q hq hline => ?_
    obtain rfl : i = q.1 + 1 := by omega
    obtain ⟨w, hw, hwritten⟩ := (exists_word_iff h hi q.2.written).2 ⟨q, hq, rfl, rfl⟩
    have := Text.byteLength_margin_le hw
    omega
  -- the word at or before the query has the last entry up to the query on the line, and that entry
  -- leads to where the token stood that holds the beginning of the word
  word i line query hi hquery hcolumn := by
    obtain ⟨word, hword, hmem, hle, hlast⟩ := Text.exists_wordAt? (exists_solid_of_line h hi) hcolumn
    obtain ⟨q, hq, rfl, hwritten⟩ := (exists_word_iff h hi word.1).1 ⟨word, hmem, rfl⟩
    have hlast' : ∀ q' ∈ finalWords file.text.toList, q'.1 = q.1 →
        q'.2.written ≤ query.column.toNat → q'.2.written ≤ q.2.written := by
      intro q' hq' hsame hle'
      obtain ⟨w, hw, hw'⟩ := (exists_word_iff h hi q'.2.written).2 ⟨q', hq', hsame, rfl⟩
      have := hlast w hw (by omega)
      omega
    have hanswer := originOf?_of_word (.ofSourceMap (map file options)) h hsize hq hquery
      (by omega) hlast'
    obtain ⟨kept, found, written, hsurvives, hline, hholds, htext, horigin, hstands, hsource⟩ :=
      exists_survives_of_mem_finalWords file options h hsize hq
    rw [hwritten] at hholds
    refine ⟨word, kept, found, written, kept.position, hword, hsurvives, hline, hholds, htext,
      hanswer.trans horigin, hstands, fun kept' found' written' hsurvives' => ⟨?_, ?_⟩⟩
    · exact hsource kept' found' written' hsurvives'
    · exact kept_eq_of_holds hsurvives hsurvives' hholds
  -- a token that begins a word holds the beginning of the word, and only one token does
  own kept found written line word query hsurvives hline hword hquery hcolumn := by
    obtain ⟨z, -, -, -, hreading⟩ := exists_twins_of_survives h hsurvives
    simp only [Token.reading, Printed.reading, Prod.mk.injEq] at hreading
    rw [hreading.2.2.1] at hline
    obtain ⟨q, hq, hnumber, hwritten⟩ := (exists_word_iff h hline written.column).1 ⟨_, hword, rfl⟩
    have hanswer := originOf?_of_word (.ofSourceMap (map file options)) h hsize hq
      (show query.line.toNat = q.1 + 2 by omega) (by omega) fun q' _ _ hle => by omega
    obtain ⟨kept', found', written', hsurvives', -, hholds', -, horigin, hstands, -⟩ :=
      exists_survives_of_mem_finalWords file options h hsize hq
    have hholds : written.Holds (q.1 + 1) q.2.written := by
      obtain ⟨n, -, -, hfinal⟩ := hsurvives
      obtain ⟨rest, hreads⟩ := reads_of_mem_tokens (List.mem_of_getElem? hfinal)
      have := Text.byteLength_pos hreads.ne_nil
      exact ⟨by omega, by omega, by omega⟩
    have hkept := kept_eq_of_holds hsurvives hsurvives' hholds hholds'
    exact ⟨_, hanswer.trans horigin, hkept ▸ hstands⟩

end Intermediate

/-! ### The pipeline -/

namespace Intermediate

/-- A source without errors has no lexical errors. -/
lemma lexicalErrors_of_firstError? (file : SourceFile)
    (h : Diagnostic.firstError? (diagnostics file) = none) :
    lexicalErrors file.text.toList = [] := by
  rw [Diagnostic.firstError?, List.find?_eq_none] at h
  refine List.eq_nil_iff_forall_not_mem.2 fun e he => ?_
  exact h _ (List.mem_append_left _ (List.mem_map_of_mem he)) rfl

/-- The map of intermediate code, read back, has lines that can be counted from one. -/
lemma hasCountableLines_of_unflagged (file : SourceFile) (options : Config.CompilerOptions)
    (hsize : byteLength file.text.toList < 2 ^ 31) {first : SourceMap}
    (h : first.segments.map Segments.unflagged =
      (map file options).segments.map Segments.unflagged) : first.HasCountableLines := by
  intro s hs p hp hzero
  have hmem := List.mem_map_of_mem (f := Segments.unflagged) hs
  rw [h, segments_map file options hsize, List.map_map] at hmem
  obtain ⟨q, hq, heq⟩ := List.mem_map.1 hmem
  obtain ⟨-, -, hline, hcolumn⟩ := place_lt_of_mem_printed hsize hq
  have hposition : s.position? = some q.2.token.position :=
    congrArg (fun s : Segment => s.position?) heq.symm
  obtain rfl := Option.some.inj (hp.symm.trans hposition)
  have := (standsAt_position hline hcolumn).1
  rw [hzero] at this
  exact absurd this (Nat.succ_ne_zero _).symm

end Intermediate

namespace Lowering

lemma rejection?_eq_none (fileName : String) {ls : List (List Char)}
    (h : ∀ line ∈ ls, firstWord? line ≠ some "with".toList) : rejection? fileName ls = none := by
  rw [rejection?, Option.map_eq_none_iff, List.find?_eq_none]
  intro q hq
  rw [decide_eq_true_eq]
  exact h q.1 (List.fst_mem_of_mem_zipIdx hq)

/-- What lowering gives back, if it gives something back. -/
lemma transform_ok {form : MapForm} {fileName source : String} {out : TransformOutput}
    (h : transform form fileName source = .ok out) :
    let lowered := (Text.lines source.toList).map lower
    out.code = some (.ofList (program source.toList lowered)) ∧
      out.map = some (mapOf form fileName lowered) := by
  unfold transform at h
  simp only at h
  split at h
  · simp at h
  · obtain rfl := Except.ok.inj h
    exact ⟨rfl, rfl⟩

end Lowering

namespace Pipeline

/-- The pipeline that erases types and lowers what is left. -/
def erasing (form : MapForm) (options : Config.CompilerOptions) (mode : IntegrationMode) :
    Pipeline :=
  ⟨Intermediate.eraser, Lowering.transformer form, options, mode⟩

variable {form : MapForm} {options : Config.CompilerOptions} {request : TransformRequest}
  {out : TransformOutput}

lemma compileStage_ok {mode : IntegrationMode} {index : OriginIndex}
    {intermediate : TransformRequest}
    (h : (erasing form options mode).compileStage request = .ok (index, intermediate)) :
    Diagnostic.firstError? (Intermediate.diagnostics (fileOf request)) = none ∧
      intermediate = { request with source := Intermediate.code request.source } ∧ ∃ first,
        SourceMap.ofText (Intermediate.map (fileOf request) options).text = .ok first ∧
          index = .ofSourceMap first := by
  unfold compileStage at h
  simp only at h
  split at h
  · simp at h
  · next hdiagnostics =>
    split at h
    · simp at h
    · next first hfirst =>
      obtain ⟨rfl, rfl⟩ := Prod.mk.inj (Except.ok.inj h)
      exact ⟨hdiagnostics, rfl, first, hfirst, rfl⟩

lemma transformStage_ok {mode : IntegrationMode}
    (h : (erasing form options mode).transformStage request = .ok out) :
    let lowered := (Text.lines request.source.toList).map Lowering.lower
    out.code = some (.ofList (Lowering.program request.source.toList lowered)) ∧
      out.map = some (Lowering.mapOf form request.fileName lowered) := by
  have hlowered : Lowering.transform form request.fileName request.source = .ok out := by
    simp only [transformStage, erasing, Lowering.transformer] at h
    cases hresult : Lowering.transform form request.fileName request.source with
    | error e => simp [hresult, Except.mapError] at h
    | ok result => simpa [hresult, Except.mapError] using h
  exact Lowering.transform_ok hlowered

/-- What the pipeline gives back, if it accepts a typed file: its map is composed with the map of
intermediate code, which is read from its text. -/
lemma exists_of_transform (htyped : isTyped request.fileName)
    (h : (erasing form options .standaloneMap).transform request = .ok out) :
    let source := (Intermediate.code request.source).toList
    let lowered := (Text.lines source).map Lowering.lower
    Diagnostic.firstError? (Intermediate.diagnostics (fileOf request)) = none ∧ ∃ first,
      SourceMap.ofText (Intermediate.map (fileOf request) options).text = .ok first ∧
        out.code = some (.ofList (Lowering.program source lowered)) ∧
          out.map = some ((Lowering.mapOf form request.fileName lowered).through
            (.ofSourceMap first) (fileOf request)) := by
  intro source lowered
  rw [transform, if_pos htyped] at h
  split at h
  · simp at h
  next index intermediate hcompile =>
  obtain ⟨hdiagnostics, rfl, first, hfirst, rfl⟩ := compileStage_ok hcompile
  refine ⟨hdiagnostics, first, hfirst, ?_⟩
  cases hresult : (erasing form options .standaloneMap).transformStage
      { request with source := Intermediate.code request.source } with
  | error e =>
    rw [hresult] at h
    simp [Except.map] at h
  | ok result =>
    rw [hresult] at h
    obtain rfl := Except.ok.inj h
    obtain ⟨hcode, hmap⟩ := transformStage_ok hresult
    refine ⟨hcode, ?_⟩
    change result.map.map _ = _
    rw [hmap]
    rfl

/-- A typed file is accepted if nothing is wrong with it and none of its lines is forbidden. -/
lemma exists_transform (form : MapForm) (options : Config.CompilerOptions)
    (mode : IntegrationMode) (htyped : isTyped request.fileName)
    (hsize : request.source.utf8ByteSize < 2 ^ 31)
    (hdiagnostics : Diagnostic.firstError? (Intermediate.diagnostics (fileOf request)) = none)
    (hlines : Lowering.rejection? request.fileName
      (Text.lines (Intermediate.code request.source).toList) = none) :
    ∃ out, (erasing form options mode).transform request = .ok out := by
  rw [← Text.byteLength_toList] at hsize
  obtain ⟨first, hfirst, -⟩ :=
    Intermediate.exists_ofText_map (fileOf request) options hsize
  have hcompile : (erasing form options mode).compileStage request =
      .ok (.ofSourceMap first, { request with source := Intermediate.code request.source }) := by
    simp only [compileStage, erasing, Intermediate.eraser, Intermediate.compile, hdiagnostics,
      hfirst]
    rfl
  rw [transform, if_pos htyped, hcompile]
  simp only [transformStage, erasing, Lowering.transformer, Lowering.transform, hlines]
  exact ⟨_, rfl⟩

/-- Every position of the final code of an accepted file leads to where it should. -/
theorem transform_located (htyped : isTyped request.fileName)
    (hsize : request.source.utf8ByteSize < 2 ^ 31)
    (h : (erasing form options .standaloneMap).transform request = .ok out) :
    ∃ code map, out.code = some code ∧ out.map = some map ∧
      Located request.source.toList (Intermediate.code request.source).toList code.toList
        map.originIndex := by
  rw [← Text.byteLength_toList] at hsize
  obtain ⟨hdiagnostics, first, hfirst, hcode, hmap⟩ := exists_of_transform htyped h
  have herrors : lexicalErrors request.source.toList = [] :=
    Intermediate.lexicalErrors_of_firstError? (fileOf request) hdiagnostics
  obtain ⟨first', hfirst', hindex, hunflagged⟩ :=
    Intermediate.exists_ofText_map (fileOf request) options hsize
  obtain rfl := Except.ok.inj (hfirst'.symm.trans hfirst)
  have hlines :=
    Intermediate.hasCountableLines_of_unflagged (fileOf request) options hsize hunflagged
  have hsource : (Intermediate.code request.source).toList =
      Intermediate.printedCode request.source.toList := String.toList_ofList
  have hlowered : (Text.lines (Intermediate.code request.source).toList).map Lowering.lower =
      Intermediate.loweredLines request.source.toList := by
    rw [hsource, Intermediate.lines_print herrors, List.map_map]
    rfl
  have hfinal : Lowering.program (Intermediate.code request.source).toList
      ((Text.lines (Intermediate.code request.source).toList).map Lowering.lower) =
        Intermediate.finalCode request.source.toList := by
    rw [hsource]
    rfl
  refine ⟨_, _, hcode, hmap, ?_⟩
  rw [hfinal, hlowered, hsource, String.toList_ofList]
  rw [Lowering.originIndex_through hlines form _ _ (Intermediate.pairwise_finalWords herrors)]
  · rw [hindex]
    exact Intermediate.located_of_entries (fileOf request) options herrors hsize
  · intro q hq
    obtain ⟨hline, hcolumn, hle⟩ := Intermediate.place_lt_of_mem_finalWords herrors hsize hq
    exact ⟨hline, by omega⟩
  · intro q hq
    obtain ⟨z, -, -, -, horigin⟩ :=
      Intermediate.exists_twins_of_tracedEntry (fileOf request) options herrors hsize hq
    rw [hindex, horigin]
    rfl

/-- Lookups are as they should be where an annotation is erased and `let` becomes `var`. -/
theorem transform_located_let :
    let request : TransformRequest := ⟨"  let a: T = 'x y';\n", "a.ts", .null⟩
    isTyped request.fileName ∧ request.source.utf8ByteSize < 2 ^ 31 ∧
      ∃ out, (erasing .structured ⟨[]⟩ .standaloneMap).transform request = .ok out ∧
        ∃ code map, out.code = some code ∧ out.map = some map ∧
          Located request.source.toList (Intermediate.code request.source).toList code.toList
            map.originIndex := by
  intro request
  have htyped : isTyped request.fileName := by decide +kernel
  have hsize : request.source.utf8ByteSize < 2 ^ 31 := by decide
  have hfirst : FirstWord "  let a = 'x y';".toList "  ".toList "let".toList " a = 'x y';".toList :=
    ⟨rfl, List.all_eq_true.1 (by decide), by decide, Text.solid_of_all (by decide), fun d hd => by
      obtain rfl := Option.some.inj hd
      decide⟩
  have hlines : Text.lines (Intermediate.code request.source).toList =
      ["  let a = 'x y';".toList] := by decide +kernel
  have hrejection : Lowering.rejection? request.fileName
      (Text.lines (Intermediate.code request.source).toList) = none := by
    rw [hlines]
    refine Lowering.rejection?_eq_none _ (List.forall_mem_singleton.2 ?_)
    rw [Lowering.firstWord?, hfirst.words]
    decide
  obtain ⟨out, hout⟩ :=
    exists_transform .structured ⟨[]⟩ .standaloneMap htyped hsize (by decide +kernel) hrejection
  exact ⟨htyped, hsize, out, hout, transform_located htyped hsize hout⟩

end Pipeline

end Provenance
