import Provenance.Pipeline
import Provenance.Proofs.Composition
import Provenance.Proofs.LoweredCode
import Provenance.Proofs.MapText

/-!
# Words are traced to their tokens

The map of intermediate code is read from its text, and it traces each place within a printed token
to where the token stood in the source. The map of lowered code has an entry for each word; every
word begins in a printed token, so composition keeps all of them and drops the prologue alone. In
both forms the composed map finds the last word that begins at or before a query on its line.
-/

namespace Provenance

open Text (FirstWord byteLength)

/-! ### The first map -/

/-- The position at which a token stands. -/
def Token.position (t : Token) : Position := .ofPoint ⟨.ofNat t.line, .ofNat t.column⟩

namespace Intermediate

variable {file : SourceFile} {options : Config.CompilerOptions}

/-- The map of intermediate code is one that is read back. -/
lemma Addressable.legible_map (haddressable : Addressable file.text.toList)
    (options : Config.CompilerOptions) : (map file options).Legible := by
  have hsegments := haddressable.segments_map options
  have hranges : Segments.writeRanges? (map file options).segments = none := by
    rw [Segments.writeRanges?, if_neg]
    simp [hsegments, placed]
  refine ⟨?_, fun s hs => ?_, ?_, fun d hd => absurd hd (by simp [map, SourceMap.ofSegments])⟩
  · rw [hsegments]
    refine (haddressable.pairwise_placed.imp fun {a b} hab => ⟨hab.1, ?_⟩).isChain
    rintro rfl
    exact lt_irrefl _ hab.2
  · rw [hsegments] at hs
    obtain ⟨q, -, rfl⟩ := List.mem_map.1 hs
    intro o ho
    obtain rfl := Option.some.inj ho
    exact ⟨by simp [map, SourceMap.ofSegments], fun n hn => absurd hn (by simp)⟩
  · rw [hranges]
    intro flags hflags
    obtain rfl := List.mem_singleton.1 hflags
    exact ⟨[], rfl⟩

/-- The map of intermediate code is read from its text, and lookups in it are as before. -/
lemma Addressable.exists_ofText_map (haddressable : Addressable file.text.toList)
    (options : Config.CompilerOptions) :
    ∃ first, SourceMap.ofText (map file options).text = .ok first ∧
      OriginIndex.ofSourceMap first = .ofSourceMap (map file options) ∧
      first.segments.map Segments.unflagged =
        (map file options).segments.map Segments.unflagged := by
  obtain ⟨segments, heq, hread⟩ := SourceMap.ofText_text (haddressable.legible_map options)
  exact ⟨_, hread, OriginIndex.ofSourceMap_congr heq, heq⟩

lemma exists_ofText_map (file : SourceFile) (options : Config.CompilerOptions)
    (hsize : byteLength file.text.toList < 2 ^ 31) :
    ∃ first, SourceMap.ofText (map file options).text = .ok first ∧
      OriginIndex.ofSourceMap first = .ofSourceMap (map file options) ∧
      first.segments.map Segments.unflagged =
        (map file options).segments.map Segments.unflagged :=
  (addressable_of_byteLength_lt (by omega)).exists_ofText_map options

/-- Printed tokens of one line do not overlap: one that begins within another is the same one. -/
lemma column_le_of_printed {text : List Char} {q q' : Nat × Printed}
    (hq : q ∈ printed text (keptTokens (tokens text)))
    (hq' : q' ∈ printed text (keptTokens (tokens text))) (hline : q'.1 = q.1) {column : Nat}
    (hholds : q.2.Holds column) (hle : q'.2.column ≤ column) : q'.2.column ≤ q.2.column := by
  obtain ⟨-, hlt⟩ := hholds
  rcases eq_or_of_pairwise (pairwise_printed text) hq hq' with rfl | h | h
  · exact le_refl _
  all_goals omega

/-- A place is traced to where the token stood that is printed last on its line at or before it. -/
lemma Addressable.originOf?_of_last (haddressable : Addressable file.text.toList)
    (options : Config.CompilerOptions) {q : Nat × Printed}
    (hq : q ∈ printed file.text.toList (keptTokens (tokens file.text.toList))) {column : Nat}
    (hcolumn : column < 2 ^ 32) (hle : q.2.column ≤ column)
    (hlast : ∀ q' ∈ printed file.text.toList (keptTokens (tokens file.text.toList)),
      q'.1 = q.1 → q'.2.column ≤ column → q'.2.column ≤ q.2.column) :
    (OriginIndex.ofSourceMap (map file options)).originOf? ⟨.ofNat (q.1 + 1), .ofNat column⟩ =
      some q.2.token.position := by
  obtain ⟨hline, -⟩ := haddressable.place_lt hq
  have hplace : ∀ q ∈ printed file.text.toList (keptTokens (tokens file.text.toList)),
      (Position.ofPoint (placed q).generated).line.toNat = q.1 + 1 ∧
        (Position.ofPoint (placed q).generated).column.toNat = q.2.column := by
    intro q hq
    obtain ⟨hline, hend, -⟩ := haddressable.place_lt hq
    exact toNat_ofPoint_of_lt hline (by omega)
  have hquery : (UInt32.ofNat (q.1 + 1)).toNat = q.1 + 1 ∧ (UInt32.ofNat column).toNat = column :=
    ⟨toNat_ofNat hline, toNat_ofNat hcolumn⟩
  have hnearest : IsNearest (fun s : Segment => .ofPoint s.generated)
      ⟨.ofNat (q.1 + 1), .ofNat column⟩ (map file options).segments (placed q) := by
    rw [haddressable.segments_map options, isNearest_iff]
    · refine ⟨List.mem_map_of_mem hq, ⟨?_, ?_⟩, fun s hs hcov => ?_⟩
      · rw [← UInt32.toNat_inj, (hplace q hq).1, hquery.1]
      · rw [Position.le_iff_toNat, (hplace q hq).1, (hplace q hq).2, hquery.1, hquery.2]
        exact .inr ⟨rfl, hle⟩
      · obtain ⟨q', hq', rfl⟩ := List.mem_map.1 hs
        obtain ⟨hcovline, hcov⟩ := hcov
        rw [← UInt32.toNat_inj, (hplace q' hq').1, hquery.1] at hcovline
        rw [Position.le_iff_toNat, (hplace q' hq').1, (hplace q' hq').2, hquery.1, hquery.2] at hcov
        rw [Position.le_iff_toNat, (hplace q' hq').1, (hplace q' hq').2, (hplace q hq).1,
          (hplace q hq).2]
        have hsame : q'.1 = q.1 := by omega
        exact .inr ⟨by omega, hlast q' hq' hsame (by omega)⟩
    · exact haddressable.pairwise_placed.imp fun {a b} h =>
        (ne_of_lt h.2 : Position.ofPoint a.generated ≠ .ofPoint b.generated)
  have hentry : IsNearest OriginEntry.generated ⟨.ofNat (q.1 + 1), .ofNat column⟩
      ((map file options).segments.map fun s => ⟨.ofPoint s.generated, s.position?⟩)
      ⟨.ofPoint (placed q).generated, (placed q).position?⟩ :=
    hnearest.map fun _ _ => rfl
  rw [OriginIndex.ofSourceMap, OriginIndex.originOf?_of_isNearest hentry]
  rfl

/-- A place within a printed token is traced to where the token stood. -/
lemma originOf?_of_holds (options : Config.CompilerOptions)
    (hsize : byteLength file.text.toList < 2 ^ 31) {q : Nat × Printed}
    (hq : q ∈ printed file.text.toList (keptTokens (tokens file.text.toList))) {column : Nat}
    (hholds : q.2.Holds column) :
    (OriginIndex.ofSourceMap (map file options)).originOf? ⟨.ofNat (q.1 + 1), .ofNat column⟩ =
      some q.2.token.position := by
  obtain ⟨-, hend, -⟩ := place_lt_of_mem_printed hsize hq
  obtain ⟨hle, hlt⟩ := hholds
  exact (addressable_of_byteLength_lt (by omega)).originOf?_of_last options hq (by omega) hle
    fun q' hq' hsame hle' => column_le_of_printed hq hq' hsame ⟨hle, hlt⟩ hle'

end Intermediate

/-! ### Words in order -/

namespace Lowering

variable {lowered : List Line}

/-- What is found on numbered lines is found on one of them. -/
lemma mem_flatMap_zipIdx {α β : Type} {g : α → List β} {as : List α} {q : Nat × β} :
    (q ∈ as.zipIdx.flatMap fun (a, n) => (g a).map (n, ·)) ↔
      ∃ a, as[q.1]? = some a ∧ q.2 ∈ g a := by
  obtain ⟨n, b⟩ := q
  simp only [List.mem_flatMap, List.mem_map, Prod.exists, List.mk_mem_zipIdx_iff_getElem?]
  constructor
  · rintro ⟨a, m, ha, b', hb, heq⟩
    obtain ⟨rfl, rfl⟩ := Prod.mk.inj heq
    exact ⟨a, ha, hb⟩
  · rintro ⟨a, ha, hb⟩
    exact ⟨a, n, ha, b, hb, rfl⟩

lemma mem_numberedWords_iff {q : Nat × Word} :
    q ∈ numberedWords lowered ↔ ∃ l, lowered[q.1]? = some l ∧ q.2 ∈ l.words :=
  mem_flatMap_zipIdx

/-- What is found on numbered lines stands at increasing places, if it does on each line. -/
lemma pairwise_flatMap_zipIdx {α β : Type} {f : β → Nat} {g : α → List β} {as : List α}
    (h : ∀ a ∈ as, (g a).Pairwise fun b b' => f b < f b') :
    (as.zipIdx.flatMap fun (a, n) => (g a).map (n, ·)).Pairwise fun b b' =>
      b.1 < b'.1 ∨ b.1 = b'.1 ∧ f b.2 < f b'.2 := by
  have hnumbers : as.zipIdx.Pairwise fun a b => a.2 < b.2 := by
    have := List.pairwise_lt_range' (s := 0) (n := as.length)
    rw [← List.zipIdx_map_snd 0 as] at this
    exact List.pairwise_map.1 this
  rw [List.pairwise_flatMap]
  refine ⟨fun q hq => ?_, hnumbers.imp fun {a b} hab u hu v hv => ?_⟩
  · rw [List.pairwise_map]
    exact (h q.1 (List.fst_mem_of_mem_zipIdx hq)).imp fun hlt => .inr ⟨rfl, hlt⟩
  · obtain ⟨w, -, rfl⟩ := List.mem_map.1 hu
    obtain ⟨w', -, rfl⟩ := List.mem_map.1 hv
    exact .inl hab

/-- Words stand at increasing places, if those of each line do. -/
lemma pairwise_numberedWords
    (h : ∀ l ∈ lowered, l.words.Pairwise fun a b => a.written < b.written) :
    (numberedWords lowered).Pairwise fun a b =>
      a.1 < b.1 ∨ a.1 = b.1 ∧ a.2.written < b.2.written :=
  pairwise_flatMap_zipIdx h

lemma written_le_column {line : List Char} {w : Word} (h : w ∈ (lower line).words) :
    w.written ≤ w.column := by
  unfold lower at h
  split at h
  · simp at h
  · split at h <;> rcases List.mem_cons.1 h with rfl | h
    · exact le_refl _
    · exact written_of_mem_laterWords h ▸ Nat.sub_le _ _
    · exact le_refl _
    · exact written_of_mem_laterWords h ▸ Nat.sub_le _ _

end Lowering

namespace Intermediate

variable {text : List Char} {q : Nat × Lowering.Word}

/-- The lines of a text's intermediate code, lowered. -/
def loweredLines (text : List Char) : List Lowering.Line :=
  (keptRows text).map fun row => Lowering.lower (rowLine (Text.split '\n' text) row)

/-- The words of the final code with the numbers of their intermediate lines. -/
def finalWords (text : List Char) : List (Nat × Lowering.Word) :=
  Lowering.numberedWords (loweredLines text)

/-- The words of the final code are those of the lowered lines of its rows. -/
lemma mem_finalWords_iff : q ∈ finalWords text ↔ ∃ row, (keptRows text)[q.1]? = some row ∧
    q.2 ∈ (Lowering.lower (rowLine (Text.split '\n' text) row)).words := by
  rw [finalWords, Lowering.mem_numberedWords_iff, loweredLines]
  simp only [List.getElem?_map, Option.map_eq_some_iff]
  constructor
  · rintro ⟨l, ⟨row, hrow, rfl⟩, hw⟩
    exact ⟨row, hrow, hw⟩
  · rintro ⟨row, hrow, hw⟩
    exact ⟨_, ⟨row, hrow, rfl⟩, hw⟩

/-- A word of the final code begins in a printed token, before and after lowering. -/
lemma exists_twins_of_mem_finalWords (h : lexicalErrors text = []) (hq : q ∈ finalWords text) :
    ∃ z ∈ printedTwins text, z.1 = q.1 ∧ z.2.1.Holds q.2.column ∧ z.2.2.Holds q.2.written := by
  obtain ⟨row, hrow, hw⟩ := mem_finalWords_iff.1 hq
  have hprintable := printable_of_mem_rows h (List.mem_of_getElem? hrow)
  obtain ⟨p, hp, hcolumn, hwritten⟩ := exists_twins_of_word hprintable hw
  refine ⟨(q.1, p), List.mem_flatMap.2 ⟨(row, q.1), ?_, List.mem_map_of_mem hp⟩, rfl, hcolumn,
    hwritten⟩
  exact List.mk_mem_zipIdx_iff_getElem?.2 hrow

lemma mem_printed_of_mem_printedTwins {z : Nat × Printed × Printed} (hz : z ∈ printedTwins text) :
    (z.1, z.2.1) ∈ printed text (keptTokens (tokens text)) := by
  rw [← map_fst_printedTwins]
  exact List.mem_map_of_mem hz

/-- The places of words fit in machine words. -/
lemma place_lt_of_mem_finalWords (h : lexicalErrors text = []) (hsize : byteLength text < 2 ^ 31)
    (hq : q ∈ finalWords text) :
    q.1 < 2 ^ 31 ∧ q.2.column < 2 ^ 31 ∧ q.2.written ≤ q.2.column := by
  obtain ⟨z, hz, hline, ⟨-, hlt⟩, -⟩ := exists_twins_of_mem_finalWords h hq
  obtain ⟨row, -, hw⟩ := mem_finalWords_iff.1 hq
  have hle := Lowering.written_le_column hw
  obtain ⟨hline', hend, -⟩ := place_lt_of_mem_printed hsize (mem_printed_of_mem_printedTwins hz)
  simp only at hline' hend
  omega

lemma exists_firstWord_of_printable (sourceLines : List (List Char)) {row : List Token}
    (h : Printable row) : ∃ word rest,
      FirstWord (rowLine sourceLines row) (rowIndent sourceLines row) word rest := by
  obtain ⟨t, ts, rfl⟩ := List.exists_cons_of_ne_nil h.ne_nil
  obtain ⟨word, rest, hfirst, -⟩ := exists_firstWord_rowLine sourceLines h
  exact ⟨word, rest, hfirst⟩

lemma pairwise_finalWords (h : lexicalErrors text = []) :
    (finalWords text).Pairwise fun a b =>
      a.1 < b.1 ∨ a.1 = b.1 ∧ a.2.written < b.2.written := by
  refine Lowering.pairwise_numberedWords (List.forall_mem_map.2 fun row hrow => ?_)
  obtain ⟨word, rest, hfirst⟩ :=
    exists_firstWord_of_printable (Text.split '\n' text) (printable_of_mem_rows h hrow)
  exact Lowering.pairwise_words_lower hfirst

end Intermediate

/-! ### The composed map -/

namespace Lowering

/-- The entry of a word in the composed map. -/
def tracedEntry (index : OriginIndex) (q : Nat × Word) : OriginEntry where
  generated := ⟨.ofNat (q.1 + 2), .ofNat q.2.written⟩
  origin := index.originOf? ⟨.ofNat (q.1 + 1), .ofNat q.2.column⟩

/-- The map of lowered lines in one of its forms. -/
def mapOf (form : MapForm) (fileName : String) (lowered : List Line) : PositionMap :=
  match form with
  | .raw => .raw (rawMap lowered)
  | .structured => .structured (structuredMap fileName lowered)

variable {index : OriginIndex} {lowered : List Line}

/-- The raw mapping of a word. -/
def wordMapping (q : Nat × Word) : RawMapping :=
  ⟨⟨.ofNat (q.1 + 2), .ofNat q.2.written⟩, some ⟨.ofNat (q.1 + 1), .ofNat q.2.column⟩, q.2.name⟩

lemma rawMap_eq (lowered : List Line) :
    rawMap lowered = ⟨⟨1, 0⟩, none, none⟩ :: (numberedWords lowered).map wordMapping := rfl

/-- A composed map of raw form has the entries of all words, if all can be traced. -/
lemma ofRaw_through (htraced : ∀ q ∈ numberedWords lowered, (tracedEntry index q).origin.isSome) :
    OriginIndex.ofRaw (RawMapping.through index (rawMap lowered)) =
      .ofEntries ((numberedWords lowered).map (tracedEntry index)) := by
  have hkeep : ((numberedWords lowered).map wordMapping).filter
      (fun m => (m.origin.bind index.originOf?).isSome) =
        (numberedWords lowered).map wordMapping :=
    List.filter_eq_self.2 (List.forall_mem_map.2 htraced)
  rw [OriginIndex.ofRaw, RawMapping.through_eq_map, rawMap_eq, List.filter_cons_of_neg (by simp), hkeep,
    List.map_map, List.map_map]
  rfl

/-- The segment of a word, with the number of its name among given ones. -/
def wordSegment (names : List String) (q : Nat × Word) : Segment :=
  SourceMap.numbered names
    ⟨⟨.ofNat (q.1 + 1), .ofNat q.2.written⟩, some ⟨.ofNat q.1, .ofNat q.2.column⟩, q.2.name⟩

lemma ofNat_add_one (n : Nat) : UInt32.ofNat n + 1 = .ofNat (n + 1) := by
  rw [UInt32.ofNat_add]
  rfl

lemma entry_wordSegment (index : OriginIndex) (names : List String) (q : Nat × Word) :
    (⟨.ofPoint (wordSegment names q).generated,
        SourceMap.origin? index (wordSegment names q)⟩ : OriginEntry) = tracedEntry index q := by
  simp only [wordSegment, SourceMap.numbered, SourceMap.origin?, Segment.position?,
    Position.ofPoint, Option.map_some, Option.bind_some, ofNat_add_one, tracedEntry]

/-- The segments of a structured map: the prologue's and those of the words, in order. -/
lemma segments_structuredMap (fileName : String)
    (hwords : (numberedWords lowered).Pairwise fun a b =>
      a.1 < b.1 ∨ a.1 = b.1 ∧ a.2.written < b.2.written)
    (hsize : ∀ q ∈ numberedWords lowered, q.1 < 2 ^ 31 ∧ q.2.written < 2 ^ 31) :
    ∃ names, (structuredMap fileName lowered).segments =
        ⟨⟨0, 0⟩, none, false⟩ :: (numberedWords lowered).map (wordSegment names) ∧
      (structuredMap fileName lowered).segments.Pairwise fun a b =>
        a.precedes b ∧ a.generated ≠ b.generated := by
  obtain ⟨names, hsegments⟩ : ∃ names, (structuredMap fileName lowered).segments =
      Segment.arrange
        (⟨⟨0, 0⟩, none, false⟩ :: (numberedWords lowered).map (wordSegment names)) := by
    refine ⟨(structuredMap fileName lowered).names, ?_⟩
    simp only [structuredMap, SourceMap.ofSegments, List.map_cons, List.map_map]
    rfl
  have hplace : ∀ q ∈ numberedWords lowered,
      (wordSegment names q).generated.line.toNat = q.1 + 1 ∧
        (wordSegment names q).generated.column.toNat = q.2.written := by
    intro q hq
    obtain ⟨hline, hcolumn⟩ := hsize q hq
    exact ⟨Intermediate.toNat_ofNat (by omega), Intermediate.toNat_ofNat (by omega)⟩
  have hpairwise : List.Pairwise (fun a b : Segment => a.precedes b ∧ a.generated ≠ b.generated)
      (⟨⟨0, 0⟩, none, false⟩ :: (numberedWords lowered).map (wordSegment names)) := by
    refine List.pairwise_cons.2 ⟨List.forall_mem_map.2 fun q hq => ?_, List.pairwise_map.2 ?_⟩
    · obtain ⟨hline, -⟩ := hplace q hq
      refine ⟨decide_eq_true ((Point.le_iff_toNat _ _).2 (.inl ?_)), fun heq => ?_⟩
      · rw [hline]
        exact Nat.succ_pos q.1
      · rw [← heq] at hline
        exact absurd hline (Nat.succ_ne_zero q.1).symm
    · refine hwords.imp_of_mem fun {a b} ha hb hab => ?_
      obtain ⟨hline, hcolumn⟩ := hplace a ha
      obtain ⟨hline', hcolumn'⟩ := hplace b hb
      refine ⟨decide_eq_true ((Point.le_iff_toNat _ _).2 (by omega)), fun heq => ?_⟩
      rw [← heq] at hline' hcolumn'
      omega
  refine ⟨names, ?_, ?_⟩
  · rw [hsegments, Segment.arrange_of_pairwise (hpairwise.imp And.left)]
  · rw [hsegments, Segment.arrange_of_pairwise (hpairwise.imp And.left)]
    exact hpairwise

/-- A composed map of structured form has the entries of all words, if all can be traced. -/
lemma ofSourceMap_through {first : SourceMap} (hlines : first.HasCountableLines)
    (fileName : String) (source : SourceFile)
    (hwords : (numberedWords lowered).Pairwise fun a b =>
      a.1 < b.1 ∨ a.1 = b.1 ∧ a.2.written < b.2.written)
    (hsize : ∀ q ∈ numberedWords lowered, q.1 < 2 ^ 31 ∧ q.2.written < 2 ^ 31)
    (htraced : ∀ q ∈ numberedWords lowered,
      (tracedEntry (.ofSourceMap first) q).origin.isSome) :
    OriginIndex.ofSourceMap
        ((structuredMap fileName lowered).through (.ofSourceMap first) source) =
      .ofEntries ((numberedWords lowered).map (tracedEntry (.ofSourceMap first))) := by
  obtain ⟨names, hsegments, hpairwise⟩ := segments_structuredMap fileName hwords hsize
  have hentry := entry_wordSegment (.ofSourceMap first) names
  have hkeep : ((numberedWords lowered).map (wordSegment names)).filter
      (fun s => (SourceMap.origin? (.ofSourceMap first) s).isSome) =
        (numberedWords lowered).map (wordSegment names) := by
    refine List.filter_eq_self.2 (List.forall_mem_map.2 fun q hq => ?_)
    have := congrArg OriginEntry.origin (hentry q)
    simp only at this
    rw [this]
    exact htraced q hq
  have hview := SourceMap.through_view hlines source (hpairwise.imp And.right)
  rw [Segment.arrange_of_pairwise (hpairwise.imp And.left), hsegments,
    List.filter_cons_of_neg (by simp [SourceMap.origin?, Segment.position?]), hkeep] at hview
  have hentries := congrArg (List.map fun v : Point × Option Position × Option String =>
    (⟨.ofPoint v.1, v.2.1⟩ : OriginEntry)) hview
  simp only [List.map_map, Function.comp_def, hentry] at hentries
  exact congrArg OriginIndex.ofEntries hentries

/-- Lookups in a composed map, whatever its form, are lookups among the entries of all words. -/
lemma originIndex_through {first : SourceMap} (hlines : first.HasCountableLines) (form : MapForm)
    (fileName : String) (source : SourceFile)
    (hwords : (numberedWords lowered).Pairwise fun a b =>
      a.1 < b.1 ∨ a.1 = b.1 ∧ a.2.written < b.2.written)
    (hsize : ∀ q ∈ numberedWords lowered, q.1 < 2 ^ 31 ∧ q.2.written < 2 ^ 31)
    (htraced : ∀ q ∈ numberedWords lowered,
      (tracedEntry (.ofSourceMap first) q).origin.isSome) :
    ((mapOf form fileName lowered).through (.ofSourceMap first) source).originIndex =
      .ofEntries ((numberedWords lowered).map (tracedEntry (.ofSourceMap first))) := by
  cases form with
  | raw => exact ofRaw_through htraced
  | structured => exact ofSourceMap_through hlines fileName source hwords hsize htraced

end Lowering

namespace Intermediate

variable {file : SourceFile} {options : Config.CompilerOptions} {text : List Char}

/-! ### Lookups in the composed map -/

lemma toNat_tracedEntry (index : OriginIndex) (h : lexicalErrors text = [])
    (hsize : byteLength text < 2 ^ 31) {q : Nat × Lowering.Word} (hq : q ∈ finalWords text) :
    (Lowering.tracedEntry index q).generated.line.toNat = q.1 + 2 ∧
      (Lowering.tracedEntry index q).generated.column.toNat = q.2.written := by
  obtain ⟨hline, hcolumn, hle⟩ := place_lt_of_mem_finalWords h hsize hq
  exact ⟨toNat_ofNat (by omega), toNat_ofNat (by omega)⟩

/-- A query is answered by the last word of its line that begins at or before it. -/
lemma originOf?_of_word (index : OriginIndex) (h : lexicalErrors text = [])
    (hsize : byteLength text < 2 ^ 31) {q : Nat × Lowering.Word} (hq : q ∈ finalWords text)
    {query : Position} (hline : query.line.toNat = q.1 + 2)
    (hle : q.2.written ≤ query.column.toNat)
    (hlast : ∀ q' ∈ finalWords text, q'.1 = q.1 → q'.2.written ≤ query.column.toNat →
      q'.2.written ≤ q.2.written) :
    (OriginIndex.ofEntries ((finalWords text).map (Lowering.tracedEntry index))).originOf? query =
      (Lowering.tracedEntry index q).origin := by
  refine OriginIndex.originOf?_of_isNearest ?_
  obtain ⟨hentry, hentry'⟩ := toNat_tracedEntry index h hsize hq
  rw [isNearest_iff]
  · refine ⟨List.mem_map_of_mem hq, ⟨?_, ?_⟩, List.forall_mem_map.2 fun q' hq' hcov => ?_⟩
    · rw [← UInt32.toNat_inj, hentry, hline]
    · rw [Position.le_iff_toNat]
      omega
    · obtain ⟨hother, hother'⟩ := toNat_tracedEntry index h hsize hq'
      obtain ⟨hcovline, hcov⟩ := hcov
      rw [← UInt32.toNat_inj] at hcovline
      rw [Position.le_iff_toNat] at hcov ⊢
      have := hlast q' hq' (by omega) (by omega)
      omega
  · refine List.pairwise_map.2 ((pairwise_finalWords h).imp_of_mem fun {a b} ha hb hab heq => ?_)
    obtain ⟨hline, hcolumn⟩ := toNat_tracedEntry index h hsize ha
    obtain ⟨hline', hcolumn'⟩ := toNat_tracedEntry index h hsize hb
    rw [← heq] at hline' hcolumn'
    omega

/-- A query that no word of its line comes before has no answer. -/
lemma originOf?_eq_none_of_words {index : OriginIndex} (h : lexicalErrors text = [])
    (hsize : byteLength text < 2 ^ 31) {query : Position}
    (hnone : ∀ q ∈ finalWords text, query.line.toNat = q.1 + 2 →
      query.column.toNat < q.2.written) :
    (OriginIndex.ofEntries ((finalWords text).map (Lowering.tracedEntry index))).originOf? query =
      none := by
  refine OriginIndex.originOf?_eq_none (List.forall_mem_map.2 fun q hq hcov => ?_)
  obtain ⟨hline, hcolumn⟩ := toNat_tracedEntry index h hsize hq
  obtain ⟨hcovline, hcov⟩ := hcov
  rw [← UInt32.toNat_inj, hline] at hcovline
  rw [Position.le_iff_toNat, hline, hcolumn] at hcov
  have := hnone q hq hcovline.symm
  omega

end Intermediate

end Provenance
