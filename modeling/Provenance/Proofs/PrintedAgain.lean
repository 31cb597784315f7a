import Provenance.Proofs.Recompilation
import Provenance.Proofs.Settled

/-!
# Compiling intermediate code

Intermediate code is compiled to itself. All of its tokens are kept (`Settled`), they stand in the
rows in which they were printed, and each row is printed again as it was: a token is set off by a
space exactly where one was printed before it, and the indentation of its line is the one that was
printed. So every token is traced to where it stands.
-/

namespace Provenance

/-! ### Tokens that are set off -/

/-- On one line a token is set off exactly when it does not touch the one before it. -/
def Token.Spaced (a b : Token) : Prop :=
  a.line = b.line → (b.spaced ↔ a.column + Text.byteLength a.chars < b.column)

lemma Site.Next.spaced {s s' : Site} (h : s.Next s') (hs : s.Sound) (hs' : s'.Sound) :
    s.token.Spaced s'.token := by
  intro hline
  obtain ⟨between, hfollows, hbetween, -, hcolumn⟩ := h.before.sameLine hs hs' hline
  obtain ⟨between', hfollows', hgap⟩ := h
  obtain rfl : between = between' :=
    List.append_cancel_left (hfollows.before.symm.trans hfollows'.before)
  rw [hcolumn]
  by_cases hnil : between = []
  · rw [Site.Gap, if_pos hnil] at hgap
    simp [hgap, hnil]
  · rw [Site.Gap, if_neg hnil] at hgap
    have hpos := Text.byteLength_pos hnil
    have hspaced := hgap.resolve_right hbetween
    simp [hspaced, hpos]

lemma isChain_spaced_tokens (text : List Char) : (tokens text).IsChain Token.Spaced := by
  rw [← map_token_sites, List.isChain_map]
  apply (isChain_next_sites text).imp_of_mem_imp
  intro s s' hs hs' hnext
  exact hnext.spaced (sound_of_mem_sites hs) (sound_of_mem_sites hs')

/-! ### A row printed again -/

namespace Printed

lemma byteLength_gap (t : Token) : Text.byteLength (gap false t) = if t.spaced then 1 else 0 := by
  unfold gap
  cases t.spaced <;> rfl

/-- Tokens that are found where a row was printed are printed as the row. -/
lemma lineChars_congr {found row : List Token} {column line : Nat} {leading : Bool}
    (h : found.map Token.reading = (lineFrom column leading row).map (reading line))
    (hspaced : found.IsChain Token.Spaced)
    (hfirst : ∀ f ∈ found.head?, ∀ t ∈ row.head?, gap leading f = gap leading t) :
    lineChars leading found = lineChars leading row := by
  induction row generalizing found column leading with
  | nil =>
    obtain rfl : found = [] := List.map_eq_nil_iff.1 h
    rfl
  | cons t row ih =>
    rw [lineFrom_cons, List.map_cons] at h
    obtain ⟨f, found, rfl, hf, hfound⟩ := List.map_eq_cons_iff.1 h
    obtain ⟨hnext, hspaced⟩ := List.isChain_cons.1 hspaced
    have hchars : f.chars = t.chars := congrArg (fun r : Reading => r.2.1.toList) hf
    rw [lineChars_cons, lineChars_cons, hfirst f rfl t rfl, hchars, ih hfound hspaced]
    intro f' hf' t' ht'
    obtain ⟨found, rfl⟩ := List.head?_eq_some_iff.1 hf'
    obtain ⟨row, rfl⟩ := List.head?_eq_some_iff.1 ht'
    rw [lineFrom_cons, List.map_cons, List.map_cons] at hfound
    have hread := (List.cons.inj hfound).1
    simp only [Token.reading, reading, Prod.mk.injEq] at hf hread
    obtain ⟨-, -, hline, hcolumn⟩ := hf
    obtain ⟨-, -, hline', hcolumn'⟩ := hread
    have hiff := hnext f' rfl (hline.trans hline'.symm)
    rw [hcolumn, hcolumn', hchars, byteLength_gap] at hiff
    have hsame : f'.spaced = t'.spaced := by
      rw [Bool.eq_iff_iff, hiff]
      cases t'.spaced <;> simp
    rw [gap, gap, hsame]

end Printed

/-! ### Rows found again -/

/-- A list whose images come piece by piece is cut into pieces. -/
lemma exists_flatten_of_map_eq {α β γ : Type} {f : α → β} {g : γ → List β} {as : List α}
    {cs : List γ} (h : as.map f = cs.flatMap g) :
    ∃ pieces, as = pieces.flatten ∧ List.Forall₂ (fun c piece => piece.map f = g c) cs pieces := by
  induction cs generalizing as with
  | nil => exact ⟨[], List.map_eq_nil_iff.1 h, .nil⟩
  | cons c cs ih =>
    rw [List.flatMap_cons] at h
    obtain ⟨piece, rest, rfl, hpiece, hrest⟩ := List.map_eq_append_iff.1 h
    obtain ⟨pieces, rfl, hpieces⟩ := ih hrest
    exact ⟨piece :: pieces, rfl, .cons hpiece hpieces⟩

namespace Intermediate

variable {text : List Char} {sourceLines : List (List Char)} {row found : List Token}
  {rs founds : List (List Token)} {n : Nat}

/-- The tokens are found where the row was printed. -/
def IsFound (sourceLines : List (List Char)) (row : List Token × Nat) (found : List Token) : Prop :=
  found.map Token.reading = (rowPrinted sourceLines row.1).map (Printed.reading row.2)

lemma exists_found (text : List Char) :
    ∃ founds, tokens (printedCode text) = founds.flatten ∧
      List.Forall₂ (IsFound (Text.split '\n' text)) (keptRows text).zipIdx founds := by
  apply exists_flatten_of_map_eq
  rw [map_reading_print]
  simp [printed, List.map_flatMap, Function.comp_def]

lemma IsFound.ne_nil (h : IsFound sourceLines (row, n) found) (hrow : row ≠ []) : found ≠ [] := by
  rintro rfl
  apply hrow
  rw [← map_token_lineFrom (Text.byteLength (rowIndent sourceLines row)) true row]
  have hnil := List.map_eq_nil_iff.1 h.symm
  rw [rowPrinted] at hnil
  rw [hnil, List.map_nil]

/-- The tokens of a row are found on the line of the row. -/
lemma IsFound.line (h : IsFound sourceLines (row, n) found) {t : Token} (ht : t ∈ found) :
    t.line = n := by
  have hmem : t.reading ∈ (rowPrinted sourceLines row).map (Printed.reading n) :=
    h ▸ List.mem_map_of_mem ht
  obtain ⟨q, -, hq⟩ := List.mem_map.1 hmem
  exact (congrArg (fun r : Reading => r.2.2.1) hq).symm

/-- What was found by its number. -/
lemma isFound_getElem (h : List.Forall₂ (IsFound sourceLines) rs.zipIdx founds) {i : Nat}
    (hi : i < founds.length) :
    ∃ hi' : i < rs.length, IsFound sourceLines (rs[i], i) founds[i] := by
  have hlength := h.length_eq
  rw [List.length_zipIdx] at hlength
  refine ⟨by omega, ?_⟩
  have hget := h.get (i := i) (by rw [List.length_zipIdx]; omega) hi
  simpa using hget

/-- Found tokens fall into the rows in which they were printed. -/
lemma rows_flatten (h : List.Forall₂ (IsFound sourceLines) rs.zipIdx founds) (hne : [] ∉ rs) :
    rows founds.flatten = founds := by
  have hfound : ∀ {i : Nat} (hi : i < founds.length),
      founds[i] ≠ [] ∧ ∀ t ∈ founds[i], t.line = i := by
    intro i hi
    obtain ⟨hi', hread⟩ := isFound_getElem h hi
    exact ⟨hread.ne_nil fun hnil => hne (hnil ▸ List.getElem_mem hi'), fun t => hread.line⟩
  apply List.splitBy_flatten
  · intro hnil
    obtain ⟨i, hi, heq⟩ := List.mem_iff_getElem.1 hnil
    exact (hfound hi).1 heq
  · intro found hmem
    obtain ⟨i, hi, rfl⟩ := List.mem_iff_getElem.1 hmem
    apply List.isChain_iff_getElem.2
    intro j hj
    rw [beq_iff_eq, (hfound hi).2 _ (List.getElem_mem _), (hfound hi).2 _ (List.getElem_mem _)]
  · apply List.isChain_iff_getElem.2
    intro i hi
    obtain ⟨hne, hline⟩ := hfound (Nat.lt_of_succ_lt hi)
    obtain ⟨hne', hline'⟩ := hfound hi
    refine ⟨hne, hne', ?_⟩
    rw [hline _ (List.getLast_mem hne), hline' _ (List.head_mem hne')]
    exact beq_false_of_ne (Nat.succ_ne_self i).symm

/-! ### Indentation found again -/

/-- The lines of printed rows are the rows as lines, and nothing after the last one. -/
lemma split_rows (h : ∀ row ∈ rs, Readable row) :
    Text.split '\n' (rs.flatMap (rowChars sourceLines)) = rs.map (rowLine sourceLines) ++ [[]] := by
  induction rs with
  | nil => rfl
  | cons row rs ih =>
    obtain ⟨hrow, hrs⟩ := List.forall_mem_cons.1 h
    rw [List.flatMap_cons, rowChars_eq, List.append_assoc, List.singleton_append,
      Text.split_line hrow.notMem_rowLine, ih hrs]
    rfl

/-- Printed tokens begin with a character that does not belong to the indentation. -/
lemma takeWhile_rowLine (h : Readable row) (hne : row ≠ []) :
    (rowLine sourceLines row).takeWhile (fun c => c = ' ' || c = '\t') =
      rowIndent sourceLines row := by
  obtain ⟨t, row, rfl⟩ := List.exists_cons_of_ne_nil hne
  obtain ⟨closed, hfits⟩ := h.1 t List.mem_cons_self []
  obtain ⟨c, cs, hchars, -, hb⟩ := hfits.head
  have hc : (decide (c = ' ') || decide (c = '\t')) = false := by
    by_contra hc
    simp only [Bool.not_eq_false, Bool.or_eq_true, decide_eq_true_eq] at hc
    rcases hc with rfl | rfl <;> exact absurd hb (by decide)
  rw [rowLine_cons, rowIndent_cons, hchars, List.takeWhile_append_of_pos]
  · simp [hc]
  · intro d hd
    have htest := List.mem_takeWhile_imp hd
    exact htest

/-! ### Code printed again -/

/-- A row that is found in printed rows is printed as it was. -/
lemma IsFound.rowChars_eq (h : IsFound sourceLines (row, n) found)
    (hspaced : found.IsChain Token.Spaced) (hreadable : ∀ row ∈ rs, Readable row) (hne : [] ∉ rs)
    (hrow : rs[n]? = some row) :
    rowChars (Text.split '\n' (rs.flatMap (rowChars sourceLines))) found =
      rowChars sourceLines row := by
  have hmem := List.mem_of_getElem? hrow
  have hrow' : row ≠ [] := fun hnil => hne (hnil ▸ hmem)
  have hindent : rowIndent (Text.split '\n' (rs.flatMap (rowChars sourceLines))) found =
      rowIndent sourceLines row := by
    obtain ⟨t, ts, rfl⟩ := List.exists_cons_of_ne_nil (h.ne_nil hrow')
    have hline : (rs.map (rowLine sourceLines) ++ [[]])[n]? = some (rowLine sourceLines row) := by
      rw [List.getElem?_append_left, List.getElem?_map, hrow, Option.map_some]
      rw [List.length_map]
      exact (List.getElem?_eq_some_iff.1 hrow).1
    rw [rowIndent_cons, h.line List.mem_cons_self, indentOf, split_rows hreadable,
      List.getD_eq_getElem?_getD, hline, Option.getD_some,
      takeWhile_rowLine (hreadable row hmem) hrow']
  have hchars : Printed.lineChars true found = Printed.lineChars true row := by
    apply Printed.lineChars_congr h hspaced
    intro f _ t _
    rw [Printed.gap_true, Printed.gap_true]
  rw [rowChars, rowChars, hindent, hchars]

/-- Printing all tokens of intermediate code gives the code. -/
lemma print_tokens (text : List Char) :
    print (printedCode text) (tokens (printedCode text)) = printedCode text := by
  obtain ⟨founds, hfounds, hforall⟩ := exists_found text
  have hne : [] ∉ keptRows text := nil_notMem_rows _
  have hrows := rows_flatten hforall hne
  have hspaced := isChain_spaced_tokens (printedCode text)
  rw [hfounds, List.isChain_flatten (hrows ▸ nil_notMem_rows _)] at hspaced
  rw [hfounds, print, hrows, printedCode, print, List.flatMap_def, List.flatMap_def]
  congr 1
  have hlength := hforall.length_eq
  rw [List.length_zipIdx] at hlength
  apply List.ext_getElem
  · rw [List.length_map, List.length_map, hlength]
  · intro i hi hi'
    rw [List.length_map] at hi hi'
    obtain ⟨_, hfound⟩ := isFound_getElem hforall hi
    rw [List.getElem_map, List.getElem_map]
    apply hfound.rowChars_eq (hspaced.1 _ (List.getElem_mem hi)) _ hne
    · exact List.getElem?_eq_getElem hi'
    · exact fun row => readable_of_mem_rows

/-! ### Compiling twice -/

/-- No name of a text is a mark. -/
lemma named_tokens (text : List Char) : Erasure.Named (tokens text) := by
  intro t ht hname
  have hkind : t.kind = .name := of_decide_eq_true hname
  constructor
  · by_contra hends
    rw [Bool.not_eq_false] at hends
    obtain ⟨d, hchars, hpart, -⟩ := Erasure.delimits_of_endsType hends
    obtain ⟨rest, closed, hfits⟩ := reads_of_mem_tokens ht
    rw [hkind, hchars] at hfits
    obtain ⟨c, cs, heq, hm⟩ := hfits
    obtain ⟨rfl, -⟩ := List.cons.inj heq
    obtain ⟨-, -, -, hstart, -⟩ := Lexeme.measure_eq_token.1 hm
    simp only [Lexeme.isNameStart, Lexeme.isNumberPart, Lexeme.isNamePart, Char.isAlphanum,
      Bool.or_eq_false_iff, Bool.or_eq_true] at hstart hpart
    simp [hpart] at hstart
  · by_contra hopens
    rw [Bool.not_eq_false] at hopens
    have hpunctuation := punctuated_tokens text t ht (.inl hopens)
    rw [hkind] at hpunctuation
    cases hpunctuation

/-- There is nothing to erase in intermediate code. -/
lemma keptTokens_print (text : List Char) :
    keptTokens (tokens (printedCode text)) = tokens (printedCode text) := by
  apply Erasure.Settled.keptTokens_eq
  exact Erasure.settled_of_kept (named_tokens text) (map_kind_text_print text)

/-- Intermediate code is compiled to itself. -/
lemma printedCode_printedCode (text : List Char) :
    printedCode (printedCode text) = printedCode text := by
  rw [printedCode, keptTokens_print, print_tokens]

/-- Each token of intermediate code is printed where it stands. -/
lemma place_of_mem_printed_again {q : Nat × Printed}
    (hq : q ∈ printed (printedCode text) (keptTokens (tokens (printedCode text)))) :
    q.1 = q.2.token.line ∧ q.2.column = q.2.token.column := by
  have hreading := map_reading_print (printedCode text)
  have htoken := map_token_printed (printedCode text) (keptTokens (tokens (printedCode text)))
  change (tokens (printedCode (printedCode text))).map Token.reading = _ at hreading
  conv_lhs at hreading =>
    rw [printedCode_printedCode, ← keptTokens_print, ← htoken, List.map_map]
  have hsame := List.map_inj_left.1 hreading q hq
  simp only [Function.comp, Token.reading, Printed.reading, Prod.mk.injEq] at hsame
  exact ⟨hsame.2.2.1.symm, hsame.2.2.2.symm⟩

/-- The segment of a token that is printed where it stands leads from its place to its place. -/
lemma placed_again {q : Nat × Printed}
    (hq : q ∈ printed (printedCode text) (keptTokens (tokens (printedCode text)))) :
    Position.ofPoint (placed q).generated = q.2.token.position ∧
      (placed q).position? = some q.2.token.position := by
  obtain ⟨hline, hcolumn⟩ := place_of_mem_printed_again hq
  refine ⟨?_, rfl⟩
  rw [placed, Token.position, hline, hcolumn]

/-- The map of intermediate code, read from its text, leads every token to where it stands. -/
lemma exists_ofText_again (path : String) (text : List Char) (options : Config.CompilerOptions) :
    ∃ first, SourceMap.ofText (map ⟨path, .ofList (printedCode text)⟩ options).text = .ok first ∧
      ∀ t ∈ tokens (printedCode text),
        (OriginIndex.ofSourceMap first).originOf? t.position = some t.position := by
  obtain ⟨first, hread, htold⟩ := exists_ofText_told ⟨path, .ofList (printedCode text)⟩ options
  refine ⟨first, hread, fun t ht => ?_⟩
  generalize hsegments : (map ⟨path, .ofList (printedCode text)⟩ options).segments.destutter
    (· ≠ ·) = segments at htold
  have hmem : ∀ s, s ∈ segments ↔
      ∃ q ∈ printed (printedCode text) (keptTokens (tokens (printedCode text))), placed q = s := by
    intro s
    rw [← hsegments, mem_destutter_ne, segments_map_eq_arrange, (Segment.arrange_perm _).mem_iff,
      List.mem_map, String.toList_ofList]
  have hindex : OriginIndex.ofSourceMap first = .ofSourceMap { first with segments := segments } :=
    OriginIndex.ofSourceMap_congr htold
  rw [hindex]
  apply OriginIndex.originOf?_self
  · intro e he
    obtain ⟨s, hs, rfl⟩ := List.mem_map.1 he
    obtain ⟨q, hq, rfl⟩ := (hmem s).1 hs
    obtain ⟨hplace, horigin⟩ := placed_again hq
    exact horigin.trans (congrArg some hplace.symm)
  · have hmap := map_token_printed (printedCode text) (keptTokens (tokens (printedCode text)))
    rw [← keptTokens_print, ← hmap] at ht
    obtain ⟨q, hq, rfl⟩ := List.mem_map.1 ht
    exact ⟨_, List.mem_map_of_mem ((hmem _).2 ⟨q, hq, rfl⟩), (placed_again hq).1⟩

/-- Compiling intermediate code again changes nothing: the code is the same, all of its tokens are
kept, and the map, read from its text, leads every token to where it stands. Where tokens stand is
told by numbers without a bound. They are the words that stand for them as long as the code is less
than 4 GiB; longer code has offsets that no word addresses, and is outside of what this says of the
program that counts in words. -/
theorem compile_twice (file : SourceFile) (options options' : Config.CompilerOptions)
    (path : String) :
    let again : SourceFile := ⟨path, (compile file options).code⟩
    let found := tokens again.text.toList
    (compile again options').code = again.text ∧ keptTokens found = found ∧
      ∃ first, SourceMap.ofText (compile again options').mapText = .ok first ∧
        ∀ t ∈ found, (OriginIndex.ofSourceMap first).originOf? t.position = some t.position := by
  intro again found
  have hcode : again.text.toList = printedCode file.text.toList := String.toList_ofList
  have hfound : found = tokens (printedCode file.text.toList) := congrArg tokens hcode
  refine ⟨?_, ?_, ?_⟩
  · change String.ofList (printedCode again.text.toList) = again.text
    rw [hcode, printedCode_printedCode]
    rfl
  · rw [hfound, keptTokens_print]
  · rw [hfound]
    exact exists_ofText_again path file.text.toList options'

end Intermediate

end Provenance
