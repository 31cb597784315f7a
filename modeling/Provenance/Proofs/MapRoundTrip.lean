import Mathlib.Data.List.Basic
import Provenance.Mapping.PositionMap
import Provenance.Proofs.Composition
import Provenance.Proofs.DebugIdText
import Provenance.Proofs.MapText
import Provenance.Proofs.Results

/-!
# Structured maps go through JSON

A structured map that is written and read again is the same to every lookup, and it keeps names,
sources and contents. It has to be well formed, as all maps are that are read or built, its segments
must stand at different places, and its debug identifier must not be a timestamp without an age:
such an identifier can be read with an age of zero, but an age of zero is not written.
-/

namespace Provenance

/-! ### Flags -/

lemma Text.mem_of_mem_split {separator : Char} {cs piece : List Char}
    (h : piece ∈ split separator cs) : ∀ c ∈ piece, c ∈ cs ∧ c ≠ separator := by
  induction cs generalizing piece with
  | nil =>
    rw [split, List.mem_singleton] at h
    rw [h]
    exact fun c hc => absurd hc List.not_mem_nil
  | cons d ds ih =>
    intro c hc
    by_cases hd : d = separator
    · rw [split, if_pos hd, List.mem_cons] at h
      rcases h with rfl | h
      · cases hc
      · exact (ih h c hc).imp_left (List.mem_cons_of_mem d)
    · rw [split_cons_of_ne hd, List.mem_cons] at h
      rcases h with rfl | h
      · rcases List.mem_cons.mp hc with rfl | hc
        · exact ⟨List.mem_cons_self, hd⟩
        · exact (ih (List.head_mem _) c hc).imp_left (List.mem_cons_of_mem d)
      · exact (ih (List.mem_of_mem_tail h) c hc).imp_left (List.mem_cons_of_mem d)

namespace Segments

/-- Whatever is written as a digit is one. -/
lemma isSome_digit? (n : Nat) : (Vlq.digit? (Vlq.digitChar n)).isSome := by
  by_cases hn : n < 64
  · rw [Vlq.digit?_digitChar n hn]
    rfl
  · have hslash : Vlq.digitChar n = '/' := by
      rw [Vlq.digitChar, if_neg (by omega), if_neg (by omega), if_neg (by omega), if_neg (by omega)]
    rw [hslash]
    decide

lemma isSome_of_mem_writeFlags {flags : List Nat} {c : Char} (h : c ∈ writeFlags flags) :
    (Vlq.digit? c).isSome := by
  unfold writeFlags at h
  split at h
  · cases h
  · obtain ⟨i, -, rfl⟩ := List.mem_map.mp h
    exact isSome_digit? _

lemma mem_writeRangesFrom {line : UInt32} {first index : Nat} {flags : List Nat}
    {segments : List Segment} {c : Char}
    (h : c ∈ writeRangesFrom line first index flags segments) :
    c = ';' ∨ (Vlq.digit? c).isSome := by
  induction segments generalizing line first index flags with
  | nil => exact .inr (isSome_of_mem_writeFlags h)
  | cons s rest ih =>
    simp only [writeRangesFrom] at h
    by_cases hline : s.generated.line = line
    · rw [if_pos hline] at h
      exact ih h
    · rw [if_neg hline, List.mem_append, List.mem_append] at h
      rcases h with (h | h) | h
      · exact .inr (isSome_of_mem_writeFlags h)
      · exact .inl (List.eq_of_mem_replicate h)
      · exact ih h

lemma exists_readFlags {text : List Char} (h : ∀ c ∈ text, (Vlq.digit? c).isSome) :
    ∃ bits, readFlags text = .ok bits := by
  unfold readFlags
  apply exists_bind_ok
  apply exists_mapM_ok
  intro c hc
  obtain ⟨n, hn⟩ := Option.isSome_iff_exists.mp (h c hc)
  rw [hn]
  exact ⟨_, rfl⟩

/-- The flags that are written can be read. -/
lemma legible_writeRanges? (segments : List Segment) :
    Legible (Text.split ';' ((writeRanges? segments).getD [])) := by
  intro text htext
  apply exists_readFlags
  intro c hc
  obtain ⟨hmem, hne⟩ := Text.mem_of_mem_split htext c hc
  unfold writeRanges? at hmem
  split at hmem
  · exact (mem_writeRangesFrom hmem).resolve_left hne
  · cases hmem

/-! ### Segments that fit -/

variable {sources names : Nat}

lemma source_lt_of_takeOrigin {r r' : Running} {column source line sourceColumn : Int}
    (h : takeOrigin sources r column source line sourceColumn = .ok r') :
    r'.source.toNat < sources := by
  unfold takeOrigin at h
  simp only at h
  split at h
  · next hlt =>
    obtain rfl := Except.ok.inj h
    exact hlt
  · cases h

/-- A segment that is read refers to a source and to a name that there are. -/
lemma fits_of_ofNumbers {line : UInt32} {isRange : Bool} {r r' : Running} {numbers : List Int}
    {s : Segment} (h : ofNumbers line sources names isRange r numbers = .ok (s, r')) :
    Fits sources names s := by
  unfold ofNumbers at h
  split at h
  · obtain ⟨rfl, -⟩ := Prod.mk.inj (Except.ok.inj h)
    nofun
  · obtain ⟨r'', hr, h⟩ := exists_of_bind_eq_ok h
    obtain ⟨rfl, -⟩ := Prod.mk.inj (Except.ok.inj h)
    intro o ho
    obtain rfl := Option.some.inj ho
    exact ⟨source_lt_of_takeOrigin hr, nofun⟩
  · obtain ⟨r'', hr, h⟩ := exists_of_bind_eq_ok h
    simp only at h
    split at h
    · next hname =>
      obtain ⟨rfl, -⟩ := Prod.mk.inj (Except.ok.inj h)
      intro o ho
      obtain rfl := Option.some.inj ho
      refine ⟨source_lt_of_takeOrigin hr, fun n hn => ?_⟩
      obtain rfl := Option.some.inj hn
      exact hname
    · cases h
  · cases h

lemma fits_of_readLine {line : UInt32} {r r' : Running} {pieces : List (List Char)}
    {flags : List Bool} {segments : List Segment}
    (h : readLine line sources names r pieces flags = .ok (segments, r')) :
    ∀ s ∈ segments, Fits sources names s := by
  induction pieces generalizing r r' flags segments with
  | nil =>
    obtain ⟨rfl, -⟩ := Prod.mk.inj (Except.ok.inj h)
    exact fun s hs => absurd hs List.not_mem_nil
  | cons piece pieces ih =>
    cases piece with
    | nil => exact ih h
    | cons c cs =>
      obtain ⟨numbers, -, h⟩ := exists_of_bind_eq_ok h
      obtain ⟨⟨s, r₁⟩, hsegment, h⟩ := exists_of_bind_eq_ok h
      obtain ⟨⟨rest, r₂⟩, hrest, h⟩ := exists_of_bind_eq_ok h
      obtain ⟨rfl, -⟩ := Prod.mk.inj (Except.ok.inj h)
      exact List.forall_mem_cons.mpr ⟨fits_of_ofNumbers hsegment, ih hrest⟩

lemma fits_of_readLines {line : UInt32} {r : Running} {lines flags : List (List Char)}
    {segments : List Segment} (h : readLines sources names r line lines flags = .ok segments) :
    ∀ s ∈ segments, Fits sources names s := by
  induction lines generalizing line r flags segments with
  | nil =>
    obtain rfl := Except.ok.inj h
    exact fun s hs => absurd hs List.not_mem_nil
  | cons text lines ih =>
    cases text with
    | nil => exact ih h
    | cons c cs =>
      obtain ⟨bits, -, h⟩ := exists_of_bind_eq_ok h
      obtain ⟨⟨segments₁, r₁⟩, hline, h⟩ := exists_of_bind_eq_ok h
      obtain ⟨rest, hrest, h⟩ := exists_of_bind_eq_ok h
      obtain rfl := Except.ok.inj h
      exact List.forall_mem_append.mpr ⟨fits_of_readLine hline, ih hrest⟩

/-- Segments in the order of the generated code, at different places, are told apart. -/
lemma isChain_ordered {segments : List Segment}
    (harranged : segments.Pairwise fun a b => a.precedes b)
    (hdistinct : segments.Pairwise fun a b => a.generated ≠ b.generated) :
    segments.IsChain Ordered := by
  refine ((harranged.and hdistinct).imp fun {a b} hab => ?_).isChain
  obtain ⟨hprecedes, hne⟩ := hab
  exact ⟨of_decide_eq_true hprecedes, fun heq => hne (congrArg Segment.generated heq)⟩

end Segments

namespace SourceMap

/-! ### Well-formed maps -/

/-- What all maps that are read or built have in common: segments stand in the order of the
generated code and refer to sources and names of the map, and a debug identifier has its digits. -/
structure WellFormed (map : SourceMap) : Prop where
  arranged : map.segments.Pairwise fun a b => a.precedes b
  fits : ∀ s ∈ map.segments, Segments.Fits map.sources.length map.names.length s
  debugId : ∀ d, map.debugId = some d → d.IsProper

variable {map : SourceMap}

lemma wellFormed_ofFields {fields : Json.Fields} (h : ofFields fields = .ok map) :
    map.WellFormed := by
  obtain ⟨segments, hsegments, h⟩ := exists_of_bind_eq_ok h
  obtain rfl := Except.ok.inj h
  refine ⟨Segment.pairwise_arrange _, fun s hs => ?_, fun d hd => ?_⟩
  · exact Segments.fits_of_readLines hsegments s ((Segment.arrange_perm _).mem_iff.mp hs)
  · obtain ⟨text, -, hd⟩ := Option.bind_eq_some_iff.mp hd
    exact DebugId.isProper_of_ofText? hd

/-- Every map that is read is well formed. -/
lemma wellFormed_ofText {text : String} (h : ofText text = .ok map) : map.WellFormed := by
  obtain ⟨body, -, h⟩ := exists_of_bind_eq_ok h
  split at h
  · next v hv =>
    unfold ofDocument at h
    split at h
    · split at h
      · cases h
      split at h
      · split at h <;> cases h
      · exact wellFormed_ofFields h
    · cases h
  · cases h

/-- A map that is built from segments is well formed, if it has a source for those with origins and
its names can be numbered. -/
lemma wellFormed_ofSegments {sources : List String} {contents : List (Option String)}
    {segments : List NamedSegment} (hsources : sources ≠ [] ∨ ∀ s ∈ segments, s.origin = none)
    (hnames : (namesOf segments).length ≤ UInt32.size) :
    (ofSegments sources contents segments).WellFormed := by
  refine ⟨Segment.pairwise_arrange _, fun t ht o ho => ?_, nofun⟩
  obtain ⟨s, hs, rfl⟩ := List.mem_map.mp ((Segment.arrange_perm _).mem_iff.mp ht)
  obtain ⟨point, hpoint, rfl⟩ := Option.map_eq_some_iff.mp ho
  constructor
  · rcases hsources with hne | hnone
    · exact List.length_pos_iff.mpr hne
    · cases (hnone s hs).symm.trans hpoint
  · intro n hn
    obtain ⟨name, hname, rfl⟩ := Option.map_eq_some_iff.mp hn
    have hmem : name ∈ namesOf segments :=
      List.mem_eraseDups.mpr (List.mem_filterMap.mpr ⟨s, hs, hname⟩)
    have hlt := List.idxOf_lt_length_of_mem hmem
    rw [UInt32.toNat_ofNat_of_lt' (by omega)]
    exact hlt

/-- Every composed map is well formed. -/
lemma wellFormed_through (index : OriginIndex) (source : SourceFile) (map : SourceMap) :
    (map.through index source).WellFormed :=
  wellFormed_ofSegments (.inl (List.cons_ne_nil _ _)) (length_namesOf_traced index map map.segments)

/-! ### Reading what was written -/

/-- Two maps that answer every lookup alike, with the same labels, sources and contents. -/
structure Matches (map read : SourceMap) : Prop where
  answers : ∀ p, (OriginIndex.ofSourceMap read).originOf? p =
    (OriginIndex.ofSourceMap map).originOf? p
  labelled : read.segments.map (fun s => (s.generated, s.position?, read.segmentName? s)) =
    map.segments.map fun s => (s.generated, s.position?, map.segmentName? s)
  sources : read.sources = map.sources
  sourceNames : ∀ source, read.sourceName? source = map.sourceName? source
  contents : read.sourceContents = map.sourceContents

/-- Contents that are left out when there are none are still one for each source. -/
lemma sourceContents_of_contents {read : SourceMap} (hsources : read.sources = map.sources)
    (hcontents : read.contents =
      if map.sourceContents.any Option.isSome then map.sourceContents else []) :
    read.sourceContents = map.sourceContents := by
  have hlength : map.sourceContents.length = map.sources.length := by
    rw [sourceContents, List.length_map, List.length_range]
  apply List.ext_getElem
  · simp only [sourceContents, List.length_map, hsources]
  · intro i hi hi'
    have hat : read.sourceContents[i] = (read.contents[i]?).join := by
      simp only [sourceContents, List.getElem_map, List.getElem_range]
    rw [hat, hcontents]
    split
    · rw [List.getElem?_eq_getElem hi', Option.join_some]
    · next hnone =>
      rw [List.getElem?_nil, Option.join_none]
      by_contra hsome
      exact hnone (List.any_eq_true.mpr
        ⟨_, List.getElem_mem hi', Option.isSome_iff_ne_none.mpr fun h => hsome h.symm⟩)

/-- Maps whose segments differ at most in their flags match, if they have the same names, sources
and contents. -/
lemma matches_of_unflagged {read : SourceMap}
    (hsegments : read.segments.map Segments.unflagged = map.segments.map Segments.unflagged)
    (hnames : read.names = map.names) (hsources : read.sources = map.sources)
    (hroot : read.sourceRoot = map.sourceRoot)
    (hcontents : read.sourceContents = map.sourceContents) : map.Matches read where
  answers p := by rw [OriginIndex.ofSourceMap_congr hsegments]
  labelled := by
    have hlabels := congrArg
      (List.map fun s => (s.generated, s.position?, map.segmentName? s)) hsegments
    rw [List.map_map, List.map_map] at hlabels
    have hname : ∀ n, read.name? n = map.name? n := fun n => by rw [name?, name?, hnames]
    simp only [segmentName?, funext hname]
    exact hlabels
  sources := hsources
  sourceNames source := by rw [sourceName?, sourceName?, hsources, hroot]
  contents := hcontents

/-- A well-formed map can be read from its text if its segments stand at different places and its
debug identifier is written in full. -/
lemma WellFormed.legible (h : map.WellFormed)
    (hdistinct : map.segments.Pairwise fun a b => a.generated ≠ b.generated)
    (hdebug : ∀ d, map.debugId = some d → ¬ d.IsBareTimestamp) : map.Legible where
  ordered := Segments.isChain_ordered h.arranged hdistinct
  fits := h.fits
  ranges := Segments.legible_writeRanges? map.segments
  debugId d hd := DebugId.ofText?_text (h.debugId d hd) (hdebug d hd)

end SourceMap

/-- The document of a structured map is read as its text is. -/
lemma PositionMap.ofJson_toJson (map : SourceMap) : ofJson (toJson (.structured map)) =
    ((SourceMap.ofText map.text).map .structured).mapError .format := rfl

/-- Writing and reading a structured map loses nothing that a lookup can see. A well-formed map
whose segments stand at different places, and whose debug identifier is not a timestamp without an
age, is read from its JSON value as a structured map and from its text as the same one. That map
answers every lookup alike, and its labels, sources and contents are the same. -/
theorem PositionMap.structured_round_trip (map : SourceMap) (h : map.WellFormed)
    (hdistinct : map.segments.Pairwise fun a b => a.generated ≠ b.generated)
    (hdebug : ∀ d, map.debugId = some d → ¬ d.IsBareTimestamp) :
    ∃ read, ofJson (toJson (.structured map)) = .ok (.structured read) ∧
      SourceMap.ofText map.text = .ok read ∧ map.Matches read := by
  obtain ⟨segments, hsegments, hread⟩ := SourceMap.ofText_text (h.legible hdistinct hdebug)
  refine ⟨_, by rw [ofJson_toJson, hread]; rfl, hread, ?_⟩
  exact SourceMap.matches_of_unflagged hsegments rfl rfl rfl
    (SourceMap.sourceContents_of_contents rfl rfl)

/-- A map of two lines that has every kind of segment, and an identifier with its age. -/
def SourceMap.labelled : SourceMap where
  file := none
  sourceRoot := some "src"
  sources := ["a.ts"]
  contents := [some "let x = 1;"]
  names := ["x"]
  segments := [⟨⟨0, 0⟩, some ⟨0, ⟨0, 0⟩, none⟩, false⟩, ⟨⟨0, 4⟩, some ⟨0, ⟨0, 4⟩, some 0⟩, true⟩,
    ⟨⟨2, 0⟩, none, false⟩]
  ignored := []
  debugId := some (.timestamp 0x01234567 1)

theorem PositionMap.structured_round_trip_labelled :
    ∃ read, ofJson (toJson (.structured SourceMap.labelled)) = .ok (.structured read) ∧
      SourceMap.ofText SourceMap.labelled.text = .ok read ∧ SourceMap.labelled.Matches read :=
  structured_round_trip SourceMap.labelled
    ⟨by decide, by simp [SourceMap.labelled, Segments.Fits],
      by simp [SourceMap.labelled, DebugId.isProper_timestamp]⟩
    (by decide) (by simp [SourceMap.labelled, DebugId.IsBareTimestamp])

/-! ### A timestamp without its age -/

/-- A map whose identifier is a timestamp without an age is written as a document that is not read:
the eight digits left are no identifier. -/
lemma SourceMap.ofText_bareTimestamp {map : SourceMap} {time : UInt32}
    (h : map.debugId = some (.timestamp time 0)) : ofText map.text = .error .badJson := by
  have hid : Field.isDebugId (.string (DebugId.timestamp time 0).text) = false := by
    rw [Field.isDebugId, DebugId.ofText?_bareTimestamp]
    rfl
  have hfields : Field.areMapFields map.toFields = false := by
    rw [toFields_eq_append, h]
    simp [Json.optionalField, Field.areMapFields, Field.plain, List.lookup_cons, Field.nullOr, hid]
  have hform : Field.isMap (.object map.toFields) = false := by
    rw [Field.isMap, hfields, Bool.and_false]
  rw [ofText_eq, toJson, ofDocument, hform]
  rfl

/-- A map without segments, whose identifier is one that is read with the age zero. -/
def SourceMap.stamped : SourceMap where
  file := none
  sourceRoot := none
  sources := []
  contents := []
  names := []
  segments := []
  ignored := []
  debugId := DebugId.ofText? "012345670"

/-- Not every well-formed map goes through JSON: one whose identifier is a timestamp without an age
does not. -/
theorem PositionMap.stamped_not_read :
    SourceMap.stamped.debugId = some (.timestamp 0x01234567 0) ∧ SourceMap.stamped.WellFormed ∧
      (SourceMap.stamped.segments.Pairwise fun a b => a.generated ≠ b.generated) ∧
      ∀ read, ofJson (toJson (.structured SourceMap.stamped)) ≠ .ok (.structured read) := by
  have hid : SourceMap.stamped.debugId = some (.timestamp 0x01234567 0) := by decide
  have hproper : ∀ d, SourceMap.stamped.debugId = some d → d.IsProper := by
    intro d hd
    obtain rfl := Option.some.inj (hid.symm.trans hd)
    exact DebugId.isProper_timestamp _ _
  refine ⟨hid, ⟨.nil, nofun, hproper⟩, .nil, fun read hread => ?_⟩
  rw [ofJson_toJson, SourceMap.ofText_bareTimestamp hid] at hread
  cases hread

end Provenance
