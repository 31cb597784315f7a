import Mathlib.Algebra.Group.Nat.Defs
import Provenance.Proofs.Printing

/-!
# The map of intermediate code

The map of intermediate code has one segment for each kept token. The segment places the token
where it is found when the code is read again, and traces it to where it stands in the source. All
places are counted in words; a source of less than two gigabytes leaves room for them, and so does
any other one that is `Addressable`.
-/

namespace Provenance

namespace Intermediate

variable {text : List Char}

/-! ### Printed tokens -/

/-- The printed tokens with the number of their line. -/
def printed (text : List Char) (kept : List Token) : List (Nat × Printed) :=
  (rows kept).zipIdx.flatMap fun (row, line) =>
    (rowPrinted (Text.split '\n' text) row).map (line, ·)

lemma segments_eq (text : List Char) (kept : List Token) :
    segments text kept = (printed text kept).map fun q => segmentOf q.1 q.2 := by
  simp [segments, printed, List.map_flatMap, Function.comp_def]

lemma map_token_printed (text : List Char) (kept : List Token) :
    (printed text kept).map (fun q => q.2.token) = kept := by
  have hrow : ∀ row : List Token, (rowPrinted (Text.split '\n' text) row).map Printed.token = row :=
    fun row => map_token_lineFrom _ _ row
  have h : (printed text kept).map (fun q => q.2.token) = (rows kept).zipIdx.flatMap Prod.fst := by
    simp only [printed, List.map_flatMap, List.map_map, Function.comp_def, hrow]
  rw [h, List.flatMap_def, List.zipIdx_map_fst, flatten_rows]

lemma readable_of_mem_rows {row : List Token} (h : row ∈ rows (keptTokens (tokens text))) :
    Readable row := by
  have hrow := isChain_joinsOnLine (isChain_joins_keptTokens text) h
  refine ⟨fun t ht cs => ?_, hrow.imp fun a b hab => hab.1.2 hab.2⟩
  have hmem : t ∈ keptTokens (tokens text) := by
    rw [← flatten_rows (keptTokens (tokens text))]
    exact List.mem_flatten_of_mem h ht
  obtain ⟨rest, hreads⟩ := reads_of_mem_tokens ((keptTokens_sublist _).subset hmem)
  exact hreads.lineFeed cs

/-- The tokens of intermediate code are the printed ones, found where they are printed. -/
lemma map_reading_print (text : List Char) :
    (tokens (print text (keptTokens (tokens text)))).map Token.reading =
      (printed text (keptTokens (tokens text))).map fun q => q.2.reading q.1 := by
  rw [map_reading_tokens, print, readings_rows fun row h => readable_of_mem_rows h]
  simp [printed, List.map_flatMap, Function.comp_def]

/-- Nothing is printed below its line or to the right of its column. -/
lemma place_le_of_mem_printed {q : Nat × Printed}
    (h : q ∈ printed text (keptTokens (tokens text))) :
    q.2.token ∈ tokens text ∧ q.1 ≤ q.2.token.line ∧ q.2.column ≤ q.2.token.column := by
  have hkept := isChain_joins_keptTokens text
  obtain ⟨⟨row, line⟩, hrow, hmap⟩ := List.mem_flatMap.1 h
  obtain ⟨q, hq, rfl⟩ := List.mem_map.1 hmap
  have hmem : row ∈ rows (keptTokens (tokens text)) :=
    List.mem_of_getElem? (List.mk_mem_zipIdx_iff_getElem?.1 hrow)
  have hsubset : ∀ t ∈ row, t ∈ tokens text := fun t ht => by
    refine (keptTokens_sublist _).subset ?_
    rw [← flatten_rows (keptTokens (tokens text))]
    exact List.mem_flatten_of_mem hmem ht
  have hq' : q.token ∈ row := by
    rw [← map_token_lineFrom _ _ row]
    exact List.mem_map_of_mem hq
  refine ⟨hsubset _ hq', ?_, ?_⟩
  · exact le_line_of_mem_zipIdx (pairwise_above_rows hkept) (fun _ _ _ _ => Nat.zero_le _)
      (nil_notMem_rows _) hrow hq'
  · refine column_le_of_mem_lineFrom (isChain_joinsOnLine hkept hmem) (fun t ht => ?_) hq
    obtain ⟨ts, rfl⟩ : ∃ ts, row = t :: ts := List.head?_eq_some_iff.1 ht
    have := byteLength_indentOf_le (hsubset t List.mem_cons_self)
    simpa [Printed.gap, rowIndent] using this

/-! ### Places in words -/

/-- The places of all tokens that a text keeps fit in words: lines counted from one, and columns up
to the end of the token. -/
def Addressable (text : List Char) : Prop :=
  ∀ t ∈ keptTokens (tokens text),
    t.line + 1 < 2 ^ 32 ∧ t.column + Text.byteLength t.chars < 2 ^ 32

lemma addressable_of_byteLength_lt (hsize : Text.byteLength text + 1 < 2 ^ 32) :
    Addressable text := by
  intro t ht
  obtain ⟨hline, hcolumn⟩ := place_le_of_mem_tokens ((keptTokens_sublist _).subset ht)
  omega

lemma token_mem_of_mem_printed {q : Nat × Printed}
    (h : q ∈ printed text (keptTokens (tokens text))) : q.2.token ∈ keptTokens (tokens text) := by
  have hmem := List.mem_map_of_mem (f := fun q : Nat × Printed => q.2.token) h
  rwa [map_token_printed] at hmem

/-- Where the kept tokens of a text stand fits in words, and so does where they are printed. -/
lemma Addressable.place_lt (haddressable : Addressable text) {q : Nat × Printed}
    (h : q ∈ printed text (keptTokens (tokens text))) :
    q.1 + 1 < 2 ^ 32 ∧ q.2.column + Text.byteLength q.2.token.chars < 2 ^ 32 ∧
      q.2.token.line + 1 < 2 ^ 32 ∧ q.2.token.column < 2 ^ 32 := by
  obtain ⟨-, hline, hcolumn⟩ := place_le_of_mem_printed h
  obtain ⟨hline', hcolumn'⟩ := haddressable _ (token_mem_of_mem_printed h)
  omega

/-- The places of a printed token fit in words, with room for a line counted from one. -/
lemma place_lt_of_mem_printed (hsize : Text.byteLength text < 2 ^ 31) {q : Nat × Printed}
    (h : q ∈ printed text (keptTokens (tokens text))) :
    q.1 < 2 ^ 31 ∧ q.2.column + Text.byteLength q.2.token.chars < 2 ^ 31 ∧
      q.2.token.line < 2 ^ 31 ∧ q.2.token.column < 2 ^ 31 := by
  obtain ⟨hmem, hline, hcolumn⟩ := place_le_of_mem_printed h
  obtain ⟨hline', hcolumn'⟩ := place_le_of_mem_tokens hmem
  omega

lemma byteLength_pos_of_mem_printed {q : Nat × Printed}
    (h : q ∈ printed text (keptTokens (tokens text))) : 0 < Text.byteLength q.2.token.chars := by
  obtain ⟨rest, hreads⟩ := reads_of_mem_tokens (place_le_of_mem_printed h).1
  exact Text.byteLength_pos hreads.ne_nil

end Intermediate

/-- The token stands at the position. -/
def Token.StandsAt (t : Token) (p : Position) : Prop :=
  p.line.toNat = t.line + 1 ∧ p.column.toNat = t.column

namespace Intermediate

variable {text : List Char}

lemma toNat_ofNat {n : Nat} (h : n < 2 ^ 32) : (UInt32.ofNat n).toNat = n :=
  UInt32.toNat_ofNat_of_lt' h

lemma toNat_ofPoint_of_lt {line column : Nat} (hline : line + 1 < 2 ^ 32)
    (hcolumn : column < 2 ^ 32) :
    (Position.ofPoint ⟨.ofNat line, .ofNat column⟩).line.toNat = line + 1 ∧
      (Position.ofPoint ⟨.ofNat line, .ofNat column⟩).column.toNat = column := by
  refine ⟨?_, toNat_ofNat hcolumn⟩
  rw [Position.ofPoint, UInt32.toNat_add, toNat_ofNat (by omega), UInt32.toNat_one]
  omega

lemma toNat_ofPoint {line column : Nat} (hline : line < 2 ^ 31) (hcolumn : column < 2 ^ 31) :
    (Position.ofPoint ⟨.ofNat line, .ofNat column⟩).line.toNat = line + 1 ∧
      (Position.ofPoint ⟨.ofNat line, .ofNat column⟩).column.toNat = column :=
  toNat_ofPoint_of_lt (by omega) (by omega)

/-- The tokens of a text stand one after another. -/
lemma pairwise_tokens (text : List Char) : (tokens text).Pairwise fun a b =>
    a.line < b.line ∨ a.line = b.line ∧ a.column + Text.byteLength a.chars ≤ b.column := by
  rw [← map_token_sites, List.pairwise_map]
  refine (pairwise_before_sites text).imp_of_mem fun {s s'} hs hs' h => ?_
  rcases h.token (sound_of_mem_sites hs) (sound_of_mem_sites hs') with hlt | ⟨hline, hle⟩
  · exact .inl hlt
  · exact .inr ⟨hline, by omega⟩

/-- Printed tokens stand one after another. -/
lemma pairwise_printed (text : List Char) :
    (printed text (keptTokens (tokens text))).Pairwise fun q q' =>
      q.1 < q'.1 ∨
        q.1 = q'.1 ∧ q.2.column + Text.byteLength q.2.token.chars ≤ q'.2.column := by
  have h : ((tokens (print text (keptTokens (tokens text)))).map Token.reading).Pairwise
      fun r r' => r.2.2.1 < r'.2.2.1 ∨ r.2.2.1 = r'.2.2.1 ∧
        r.2.2.2 + Text.byteLength r.2.1.toList ≤ r'.2.2.2 :=
    List.pairwise_map.2 (pairwise_tokens _)
  rw [map_reading_print] at h
  exact List.pairwise_map.1 h

/-! ### Segments -/

/-- The segment of a printed token in the map. -/
def placed (q : Nat × Printed) : Segment where
  generated := ⟨.ofNat q.1, .ofNat q.2.column⟩
  origin := some ⟨0, ⟨.ofNat q.2.token.line, .ofNat q.2.token.column⟩, none⟩
  isRange := false

/-- Segments of printed tokens stand at increasing places, as points and as positions. -/
lemma Addressable.pairwise_placed (haddressable : Addressable text) :
    ((printed text (keptTokens (tokens text))).map placed).Pairwise fun a b =>
      a.generated ≤ b.generated ∧ Position.ofPoint a.generated < .ofPoint b.generated := by
  rw [List.pairwise_map]
  refine (pairwise_printed text).imp_of_mem fun {q q'} hq hq' h => ?_
  obtain ⟨hline, hend, -⟩ := haddressable.place_lt hq
  obtain ⟨hline', hend', -⟩ := haddressable.place_lt hq'
  have hcolumn : q.2.column < 2 ^ 32 := by omega
  have hcolumn' : q'.2.column < 2 ^ 32 := by omega
  have hpos := byteLength_pos_of_mem_printed hq
  rw [Position.lt_iff_toNat, Point.le_iff_toNat]
  simp only [placed, toNat_ofPoint_of_lt hline hcolumn, toNat_ofPoint_of_lt hline' hcolumn',
    toNat_ofNat (Nat.lt_of_succ_lt hline), toNat_ofNat (Nat.lt_of_succ_lt hline'),
    toNat_ofNat hcolumn, toNat_ofNat hcolumn']
  omega

/-- The segments of the map are those of the printed tokens. -/
lemma segments_map_eq_arrange (file : SourceFile) (options : Config.CompilerOptions) :
    (map file options).segments = Segment.arrange
      ((printed file.text.toList (keptTokens (tokens file.text.toList))).map placed) := by
  simp only [map, SourceMap.ofSegments, segments_eq, List.map_map]
  rfl

/-- They come in the order of the tokens. -/
lemma Addressable.segments_map {file : SourceFile} (haddressable : Addressable file.text.toList)
    (options : Config.CompilerOptions) :
    (map file options).segments =
      (printed file.text.toList (keptTokens (tokens file.text.toList))).map placed := by
  rw [segments_map_eq_arrange, Segment.arrange_of_pairwise]
  exact haddressable.pairwise_placed.imp fun {a b} h => decide_eq_true h.1

lemma pairwise_placed (hsize : Text.byteLength text < 2 ^ 31) :
    ((printed text (keptTokens (tokens text))).map placed).Pairwise fun a b =>
      a.generated ≤ b.generated ∧ Position.ofPoint a.generated < .ofPoint b.generated :=
  (addressable_of_byteLength_lt (by omega)).pairwise_placed

lemma segments_map (file : SourceFile) (options : Config.CompilerOptions)
    (hsize : Text.byteLength file.text.toList < 2 ^ 31) :
    (map file options).segments =
      (printed file.text.toList (keptTokens (tokens file.text.toList))).map placed :=
  (addressable_of_byteLength_lt (by omega)).segments_map options

/-! ### Tokens and segments -/

/-- The code of a source is read as the tokens that are kept, and the map has one segment for each
of them, which leads from where the token is found to where it stood. -/
theorem code_mapped (file : SourceFile) (options : Config.CompilerOptions)
    (hsize : file.text.utf8ByteSize < 2 ^ 31) :
    let kept := keptTokens (tokens file.text.toList)
    let found := tokens (compile file options).code.toList
    let segments := (map file options).segments
    found.map (fun t => (t.kind, t.text)) = kept.map (fun t => (t.kind, t.text)) ∧
      segments.length = kept.length ∧
      (∀ (i : Nat) (s : Segment), segments[i]? = some s → ∃ (f k : Token) (origin : Position),
        found[i]? = some f ∧ kept[i]? = some k ∧ s.position? = some origin ∧
          f.StandsAt (.ofPoint s.generated) ∧ k.StandsAt origin) ∧
      segments.Pairwise fun a b => Position.ofPoint a.generated < .ofPoint b.generated := by
  intro kept found segments
  rw [← Text.byteLength_toList] at hsize
  -- segments, kept tokens and tokens found are three readings of the list of printed tokens
  have hsegments : segments = (printed file.text.toList kept).map placed :=
    segments_map file options hsize
  have hkept : (printed file.text.toList kept).map (fun q => q.2.token) = kept :=
    map_token_printed _ _
  have hfound : found.map Token.reading =
      (printed file.text.toList kept).map fun q => q.2.reading q.1 := by
    have := map_reading_print file.text.toList
    rwa [← String.toList_ofList (l := print file.text.toList _)] at this
  refine ⟨?_, ?_, fun i s hs => ?_, ?_⟩
  · have := congrArg (List.map fun r : Reading => (r.1, r.2.1)) hfound
    rw [← hkept]
    simpa [Function.comp_def, Token.reading, Printed.reading] using this
  · rw [hsegments, List.length_map, ← congrArg List.length hkept, List.length_map]
  · rw [hsegments, List.getElem?_map] at hs
    obtain ⟨q, hq, rfl⟩ := Option.map_eq_some_iff.1 hs
    obtain ⟨hline, hend, hline', hcolumn'⟩ :=
      place_lt_of_mem_printed hsize (List.mem_of_getElem? hq)
    have hcolumn : q.2.column < 2 ^ 31 := by omega
    have hf := congrArg (·[i]?) hfound
    simp only [List.getElem?_map, hq, Option.map_some] at hf
    obtain ⟨f, hf, hreading⟩ := Option.map_eq_some_iff.1 hf
    refine ⟨f, q.2.token, .ofPoint ⟨.ofNat q.2.token.line, .ofNat q.2.token.column⟩, hf, ?_, rfl,
      ?_, toNat_ofPoint hline' hcolumn'⟩
    · rw [← hkept, List.getElem?_map, hq]
      rfl
    · simp only [Token.reading, Printed.reading, Prod.mk.injEq] at hreading
      rw [Token.StandsAt, hreading.2.2.1, hreading.2.2.2]
      exact toNat_ofPoint hline hcolumn
  · rw [hsegments]
    exact (pairwise_placed hsize).imp And.right

/-- Where an annotation and a comment are left out, their neighbours are still told apart. -/
theorem code_mapped_neighbours :
    let file : SourceFile := ⟨"a.ts", "let a:T=1/**/;"⟩
    file.text.utf8ByteSize < 2 ^ 31 ∧
      (tokens (compile file ⟨[]⟩).code.toList).map (fun t => (t.kind, t.text)) =
        [(.name, "let"), (.name, "a"), (.punctuation, "="), (.number, "1"), (.punctuation, ";")] ∧
      (map file ⟨[]⟩).segments.length = 5 := by
  intro file
  have hsize : file.text.utf8ByteSize < 2 ^ 31 := by decide
  obtain ⟨hfound, hlength, -⟩ := code_mapped file ⟨[]⟩ hsize
  refine ⟨hsize, hfound.trans ?_, hlength.trans ?_⟩ <;> decide +kernel

end Intermediate

end Provenance
