import Mathlib.Data.List.Perm.Subperm
import Provenance.Mapping.Composition
import Provenance.Proofs.Nearest

/-!
# Lookups in composed maps

A lookup in a composed map should say what two lookups say, one after the other. Composition drops
the entries that the first map cannot trace, so a query that falls on a dropped entry goes on to an
earlier one on its line. `Chains` states both halves; `RawMapping.chains_through` and
`SourceMap.chains_through` prove them of the two forms of maps.
-/

namespace Provenance

universe u

variable {α : Type u}

/-- How the lookups of a composed map relate to those of its parts. Where the two lookups in a row
answer, the composed one gives their answer. It always answers with the traced origin of the
nearest among the entries that can be traced, and not at all if none of those covers the query. -/
structure Chains (first second composed : OriginIndex) (place : α → Position)
    (traced : α → Option Position) (entries : List α) : Prop where
  chained : ∀ query p o, second.originOf? query = some p → first.originOf? p = some o →
    composed.originOf? query = some o
  nearest : ∀ query a, IsNearest place query (entries.filter fun a => (traced a).isSome) a →
    composed.originOf? query = traced a
  unresolved : ∀ query, (∀ a ∈ entries, (place a).Covers query → traced a = none) →
    composed.originOf? query = none

/-- Lookups chain as soon as the composed index finds, up to the order of its entries, what is
nearest among those that can be traced. -/
lemma Chains.of_entries {first : OriginIndex} {entries : List α} {composed : List OriginEntry}
    {place : α → Position} {origin : α → Option Position}
    (hkeep : ∀ query a, IsNearest place query
        (entries.filter fun a => ((origin a).bind first.originOf?).isSome) a →
      IsNearest (·.generated) query composed ⟨place a, (origin a).bind first.originOf?⟩)
    (hmem : ∀ e ∈ composed, ∃ a ∈ entries,
      ((origin a).bind first.originOf?).isSome ∧ place a = e.generated) :
    Chains first (.ofEntries (entries.map fun a => ⟨place a, origin a⟩)) (.ofEntries composed)
      place (fun a => (origin a).bind first.originOf?) entries where
  chained query p o hsecond hfirst := by
    by_cases hcov : ∃ a ∈ entries, (place a).Covers query
    · obtain ⟨a, ha⟩ := exists_isNearest hcov
      have hentry : IsNearest (·.generated) query (entries.map fun a => ⟨place a, origin a⟩)
          (⟨place a, origin a⟩ : OriginEntry) := ha.map fun _ _ => rfl
      rw [OriginIndex.originOf?_of_isNearest hentry] at hsecond
      simp only at hsecond
      have htraced : (origin a).bind first.originOf? = some o := by rw [hsecond]; exact hfirst
      rw [OriginIndex.originOf?_of_isNearest (hkeep query a (ha.filter (by rw [htraced]; rfl)))]
      exact htraced
    · rw [OriginIndex.originOf?_eq_none] at hsecond
      · simp at hsecond
      · intro e he hcov'
        obtain ⟨a, ha, rfl⟩ := List.mem_map.mp he
        exact hcov ⟨a, ha, hcov'⟩
  nearest query a ha := OriginIndex.originOf?_of_isNearest (hkeep query a ha)
  unresolved query h := by
    refine OriginIndex.originOf?_eq_none fun e he hcov => ?_
    obtain ⟨a, ha, htraced, hplace⟩ := hmem e he
    rw [← hplace] at hcov
    simp [h a ha hcov] at htraced

/-! ### Raw mappings -/

namespace RawMapping

/-- Composition keeps the mappings that can be traced, in their order, and changes origins only. -/
lemma through_eq_map (index : OriginIndex) (mappings : List RawMapping) :
    through index mappings =
      (mappings.filter fun m => (m.origin.bind index.originOf?).isSome).map fun m =>
        ⟨m.generated, m.origin.bind index.originOf?, m.name⟩ := by
  induction mappings with
  | nil => rfl
  | cons m rest ih =>
    rw [through, List.filterMap_cons, ← through, ih, List.filter_cons]
    cases h : m.origin.bind index.originOf? <;> simp [h]

lemma chains_through (index : OriginIndex) (mappings : List RawMapping) :
    Chains index (.ofRaw mappings) (.ofRaw (through index mappings)) (·.generated)
      (fun m => m.origin.bind index.originOf?) mappings := by
  apply Chains.of_entries
  · intro query m hm
    rw [through_eq_map, List.map_map]
    exact hm.map fun _ _ => rfl
  · intro e he
    rw [through_eq_map, List.map_map] at he
    obtain ⟨m, hm, rfl⟩ := List.mem_map.mp he
    exact ⟨m, (List.mem_filter.mp hm).1, (List.mem_filter.mp hm).2, rfl⟩

end RawMapping

/-! ### Names of segments -/

namespace SourceMap

lemma nodup_eraseDups {β : Type} [BEq β] [LawfulBEq β] (l : List β) : l.eraseDups.Nodup := by
  match l with
  | [] => exact List.nodup_nil
  | b :: l =>
    rw [List.eraseDups_cons, List.nodup_cons]
    refine ⟨by simp [List.mem_eraseDups], ?_⟩
    exact nodup_eraseDups (l.filter fun c => !c == b)
termination_by l.length
decreasing_by exact Nat.lt_succ_of_le (List.length_filter_le _ _)

/-- Different names that are found by words are no more than there are words. -/
lemma length_le_of_numbered {names : List String} (hd : names.Nodup) (find : UInt32 → Option String)
    (h : ∀ n ∈ names, ∃ i, find i = some n) : names.length ≤ UInt32.size := by
  choose! number hnumber using h
  have hinj : (names.map fun n => (number n).toNat).Nodup := by
    refine List.pairwise_map.mpr (hd.imp_of_mem fun {a b} ha hb hne heq => hne ?_)
    have := hnumber a ha
    rw [UInt32.toNat_inj.mp heq, hnumber b hb] at this
    exact (Option.some.inj this).symm
  have hsub : (names.map fun n => (number n).toNat) ⊆ List.range UInt32.size := by
    intro i hi
    obtain ⟨n, -, rfl⟩ := List.mem_map.mp hi
    exact List.mem_range.mpr (number n).toNat_lt_size
  simpa using (hinj.subperm hsub).length_le

/-- A numbered segment carries the name that it was given, if its number fits a word. -/
lemma segmentName?_numbered (sources : List String) (contents : List (Option String))
    {segments : List NamedSegment} {s : NamedSegment} (hs : s ∈ segments)
    (horigin : s.origin.isSome) (hsize : (namesOf segments).length ≤ UInt32.size) :
    (ofSegments sources contents segments).segmentName? (numbered (namesOf segments) s) =
      s.name := by
  obtain ⟨generated, origin, name⟩ := s
  obtain ⟨point, rfl⟩ := Option.isSome_iff_exists.mp horigin
  cases name with
  | none => rfl
  | some n =>
    have hn : n ∈ namesOf segments :=
      List.mem_eraseDups.mpr (List.mem_filterMap.mpr ⟨_, hs, rfl⟩)
    have hlt := List.idxOf_lt_length_of_mem hn
    simp only [segmentName?, numbered, ofSegments, name?, Option.map_some, Option.bind_some]
    rw [UInt32.toNat_ofNat_of_lt' (by omega), List.getElem?_eq_getElem hlt, List.getElem_idxOf]

/-! ### Structured maps -/

/-- The origins of the map have lines that can be counted from one. A line of a structured map is a
word that counts from zero, and that of an origin is one more: the sum has no word, and wraps around
to zero, for the line 2 ^ 32 - 1 and for no other. -/
def HasCountableLines (map : SourceMap) : Prop :=
  ∀ s ∈ map.segments, ∀ p, s.position? = some p → p.line ≠ 0

lemma line_ne_zero_of_originOf? {map : SourceMap} (h : map.HasCountableLines) {query p : Position}
    (hp : (OriginIndex.ofSourceMap map).originOf? query = some p) : p.line ≠ 0 := by
  by_cases hcov : ∃ s ∈ map.segments, (Position.ofPoint s.generated).Covers query
  · obtain ⟨s, hs⟩ := exists_isNearest hcov
    have hentry : IsNearest (·.generated) query
        (map.segments.map fun s => (⟨.ofPoint s.generated, s.position?⟩ : OriginEntry))
        ⟨.ofPoint s.generated, s.position?⟩ := hs.map fun _ _ => rfl
    rw [OriginIndex.ofSourceMap, OriginIndex.originOf?_of_isNearest hentry] at hp
    exact h s hs.mem p hp
  · rw [OriginIndex.ofSourceMap, OriginIndex.originOf?_eq_none] at hp
    · simp at hp
    · intro e he hcov'
      obtain ⟨s, hs, rfl⟩ := List.mem_map.mp he
      exact hcov ⟨s, hs, hcov'⟩

/-- The origin of a segment, traced through an index. -/
def origin? (index : OriginIndex) (s : Segment) : Option Position :=
  s.position?.bind index.originOf?

lemma origin?_eq (index : OriginIndex) (s : Segment) :
    s.position?.bind index.originOf? = origin? index s := rfl

/-- What composition makes of a segment that can be traced. -/
lemma filterMap_traced? (index : OriginIndex) (map : SourceMap) (l : List Segment) :
    l.filterMap (traced? index map) =
      (l.filter fun s => (origin? index s).isSome).map fun s =>
        ⟨s.generated, (origin? index s).map Position.toPoint, map.segmentName? s⟩ := by
  induction l with
  | nil => rfl
  | cons s rest ih =>
    rw [List.filterMap_cons, ih, List.filter_cons]
    cases h : origin? index s with
    | none => simp [traced?, origin?_eq, h]
    | some o => simp [traced?, origin?_eq, h]

lemma length_namesOf_traced (index : OriginIndex) (map : SourceMap) (l : List Segment) :
    (namesOf (l.filterMap (traced? index map))).length ≤ UInt32.size := by
  refine length_le_of_numbered (nodup_eraseDups _) map.name? fun n hn => ?_
  rw [namesOf, List.mem_eraseDups, filterMap_traced?] at hn
  obtain ⟨t, ht, hname⟩ := List.mem_filterMap.mp hn
  obtain ⟨s, -, rfl⟩ := List.mem_map.mp ht
  simp only [segmentName?] at hname
  obtain ⟨i, -, hi⟩ := Option.bind_eq_some_iff.mp hname
  exact ⟨i, hi⟩

/-- Segments of different places keep their order when some of them are dropped. -/
lemma arrange_filter {l : List Segment} (hd : l.Pairwise fun a b => a.generated ≠ b.generated)
    (test : Segment → Bool) :
    Segment.arrange (l.filter test) = (Segment.arrange l).filter test := by
  refine List.Perm.eq_of_pairwise ?_ (Segment.pairwise_arrange _)
    ((Segment.pairwise_arrange l).filter test) ?_
  · intro a b ha hb hab hba
    have ha := (List.mem_filter.mp ((Segment.arrange_perm _).mem_iff.mp ha)).1
    have hb := (Segment.arrange_perm l).mem_iff.mp (List.mem_filter.mp hb).1
    have heq := Segment.generated_eq_of_precedes hab hba
    rcases eq_or_of_pairwise hd ha hb with h | h | h
    · exact h
    · exact absurd heq h
    · exact absurd heq.symm h
  · exact (Segment.arrange_perm _).trans ((Segment.arrange_perm l).filter test).symm

/-- A change that keeps places keeps the arrangement. -/
lemma arrange_map {f : Segment → Segment} (hf : ∀ s, (f s).generated = s.generated)
    (l : List Segment) : Segment.arrange (l.map f) = (Segment.arrange l).map f := by
  refine (List.map_mergeSort fun a _ b _ => ?_).symm
  simp only [Segment.precedes, hf]

/-- A segment of a composed map, before and after its name is numbered. -/
def retraced (index : OriginIndex) (map : SourceMap) (s : Segment) : NamedSegment :=
  ⟨s.generated, (origin? index s).map Position.toPoint, map.segmentName? s⟩

lemma segments_through {index : OriginIndex} {map : SourceMap} (source : SourceFile)
    (hd : map.segments.Pairwise fun a b => a.generated ≠ b.generated) :
    (map.through index source).segments =
      ((Segment.arrange map.segments).filter fun s => (origin? index s).isSome).map fun s =>
        numbered (namesOf (map.segments.filterMap (traced? index map))) (retraced index map s) := by
  have hsegments : (map.through index source).segments = Segment.arrange
      ((map.segments.filterMap (traced? index map)).map
        (numbered (namesOf (map.segments.filterMap (traced? index map))))) := rfl
  rw [hsegments, ← arrange_filter hd, ← arrange_map (fun _ => by rfl)]
  generalize namesOf (map.segments.filterMap (traced? index map)) = names
  rw [filterMap_traced?, List.map_map]
  rfl

/-- Composition keeps the segments that can be traced, in their order, with their names. -/
lemma through_view {first : SourceMap} (hlines : first.HasCountableLines) {map : SourceMap}
    (source : SourceFile) (hd : map.segments.Pairwise fun a b => a.generated ≠ b.generated) :
    let composed := map.through (.ofSourceMap first) source
    composed.segments.map (fun s => (s.generated, s.position?, composed.segmentName? s)) =
      ((Segment.arrange map.segments).filter fun s =>
          (origin? (.ofSourceMap first) s).isSome).map fun s =>
        (s.generated, origin? (.ofSourceMap first) s, map.segmentName? s) := by
  intro composed
  rw [segments_through source hd, List.map_map]
  refine List.map_congr_left fun s hs => ?_
  obtain ⟨hmem, htraced⟩ := List.mem_filter.mp hs
  obtain ⟨o, ho⟩ := Option.isSome_iff_exists.mp htraced
  have hretraced : retraced (.ofSourceMap first) map s ∈
      map.segments.filterMap (traced? (.ofSourceMap first) map) := by
    rw [filterMap_traced?]
    refine List.mem_map.mpr ⟨s, List.mem_filter.mpr ⟨?_, htraced⟩, rfl⟩
    exact (Segment.arrange_perm _).mem_iff.mp hmem
  have hname : composed.segmentName? (numbered _ (retraced (.ofSourceMap first) map s)) = _ :=
    segmentName?_numbered [source.path] [some source.text] hretraced (by simp [retraced, ho])
      (length_namesOf_traced _ _ _)
  have hline : o.line ≠ 0 := by
    obtain ⟨p, -, hp⟩ := Option.bind_eq_some_iff.mp ho
    exact line_ne_zero_of_originOf? hlines hp
  simp only [Function.comp_apply, hname]
  simp [numbered, retraced, Segment.position?, ho, Position.ofPoint_toPoint hline]

lemma chains_through {first : SourceMap} (hlines : first.HasCountableLines) {map : SourceMap}
    (source : SourceFile) (hd : map.segments.Pairwise fun a b => a.generated ≠ b.generated) :
    Chains (.ofSourceMap first) (.ofSourceMap map)
      (.ofSourceMap (map.through (.ofSourceMap first) source))
      (fun s => .ofPoint s.generated) (origin? (.ofSourceMap first)) map.segments := by
  have hentries : (map.through (.ofSourceMap first) source).segments.map
        (fun s => (⟨.ofPoint s.generated, s.position?⟩ : OriginEntry)) =
      ((Segment.arrange map.segments).filter fun s =>
          (origin? (.ofSourceMap first) s).isSome).map fun s =>
        ⟨.ofPoint s.generated, origin? (.ofSourceMap first) s⟩ := by
    simpa only [List.map_map, Function.comp_def] using
      congrArg (List.map fun v : Point × Option Position × Option String =>
        (⟨.ofPoint v.1, v.2.1⟩ : OriginEntry)) (through_view hlines source hd)
  have hperm := (Segment.arrange_perm map.segments).filter
    fun s => (origin? (.ofSourceMap first) s).isSome
  apply Chains.of_entries
  · intro query s hs
    rw [hentries]
    refine IsNearest.map (IsNearest.perm hs ?_ hperm.symm) fun _ _ => rfl
    exact (hd.filter _).imp fun hne heq => hne (Position.ofPoint_inj.mp heq)
  · intro e he
    rw [hentries] at he
    obtain ⟨s, hs, rfl⟩ := List.mem_map.mp he
    obtain ⟨hmem, htraced⟩ := List.mem_filter.mp (hperm.mem_iff.mp hs)
    exact ⟨s, hmem, htraced, rfl⟩

end SourceMap

/-! ### Both forms -/

/-- A composed map holds the entries of the second map whose origin the first one traces, in their
order, with their places and names; its lookups chain those of the two maps. For structured maps
`HasCountableLines` leaves out a first map with an origin on the line 2 ^ 32 - 1, counted from zero:
counted from one that line has no word, so the sum overflows when the first map is indexed. -/
theorem through_chains :
    (∀ (index : OriginIndex) (mappings : List RawMapping),
      RawMapping.through index mappings =
        (mappings.filter fun m => (m.origin.bind index.originOf?).isSome).map (fun m =>
          ⟨m.generated, m.origin.bind index.originOf?, m.name⟩) ∧
      Chains index (.ofRaw mappings) (.ofRaw (RawMapping.through index mappings)) (·.generated)
        (fun m => m.origin.bind index.originOf?) mappings) ∧
    ∀ (first map : SourceMap) (source : SourceFile), first.HasCountableLines →
      map.segments.Pairwise (fun a b => a.generated ≠ b.generated) →
      let index := OriginIndex.ofSourceMap first
      let composed := map.through index source
      composed.segments.map (fun s => (s.generated, s.position?, composed.segmentName? s)) =
        ((Segment.arrange map.segments).filter fun s =>
            (s.position?.bind index.originOf?).isSome).map (fun s =>
          (s.generated, s.position?.bind index.originOf?, map.segmentName? s)) ∧
      Chains index (.ofSourceMap map) (.ofSourceMap composed) (fun s => .ofPoint s.generated)
        (fun s => s.position?.bind index.originOf?) map.segments :=
  ⟨fun index mappings =>
      ⟨RawMapping.through_eq_map index mappings, RawMapping.chains_through index mappings⟩,
    fun _ _ source hlines hd =>
      ⟨SourceMap.through_view hlines source hd, SourceMap.chains_through hlines source hd⟩⟩

/-- Within a word the composed map leads to where the two lookups lead, whatever comes after. -/
theorem through_chains_within_word :
    let first := SourceMap.ofSegments ["a.ts"] []
      [⟨⟨0, 0⟩, some ⟨2, 0⟩, none⟩, ⟨⟨1, 4⟩, some ⟨4, 6⟩, none⟩]
    let second := SourceMap.ofSegments ["a.js"] []
      [⟨⟨0, 0⟩, none, none⟩, ⟨⟨1, 0⟩, some ⟨0, 0⟩, none⟩, ⟨⟨1, 7⟩, some ⟨1, 4⟩, some "b"⟩,
        ⟨⟨1, 9⟩, some ⟨3, 0⟩, none⟩]
    first.HasCountableLines ∧
      second.segments.Pairwise (fun a b => a.generated ≠ b.generated) ∧
      (OriginIndex.ofSourceMap (second.through (.ofSourceMap first) ⟨"a.ts", ""⟩)).originOf? ⟨2, 8⟩ =
        some ⟨5, 6⟩ := by
  intro first second
  have hfirst : first.segments = _ := Segment.arrange_of_pairwise (by decide)
  have hsecond : second.segments = _ := Segment.arrange_of_pairwise (by decide)
  have hlines : first.HasCountableLines := by
    intro s hs p hp
    rw [hfirst] at hs
    simp only [List.map_cons, List.map_nil, List.mem_cons, List.not_mem_nil, or_false] at hs
    rcases hs with rfl | rfl <;> cases hp <;> decide
  have hd : second.segments.Pairwise fun a b => a.generated ≠ b.generated := by
    rw [hsecond]
    decide
  have hword : (OriginIndex.ofSourceMap second).originOf? ⟨2, 8⟩ = some ⟨2, 4⟩ := by
    rw [OriginIndex.ofSourceMap, hsecond]
    exact OriginIndex.originOf?_of_isNearest
      ⟨[_, _], [_], rfl, by decide, by decide, by decide⟩
  have htoken : (OriginIndex.ofSourceMap first).originOf? ⟨2, 4⟩ = some ⟨5, 6⟩ := by
    rw [OriginIndex.ofSourceMap, hfirst]
    exact OriginIndex.originOf?_of_isNearest ⟨[_], [], rfl, by decide, by decide, by decide⟩
  refine ⟨hlines, hd, ?_⟩
  exact (through_chains.2 first second ⟨"a.ts", ""⟩ hlines hd).2.chained ⟨2, 8⟩ ⟨2, 4⟩ ⟨5, 6⟩
    hword htoken

end Provenance
