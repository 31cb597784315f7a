import Provenance.Proofs.Composition
import Provenance.Proofs.Endpoints

/-!
# Three ways of tracing, one answer

A position of intermediate code is traced in three places: in the mappings of a raw list, in the
segments of a structured map, and in the endpoints of a syntax tree. `SourceMap.mappings` reads a
structured map as a raw list; composing goes along with this reading (`mappings_through`), so both
forms keep the same mappings. `through_agree` adds the endpoints.
-/

namespace Provenance

/-! ### Points in order -/

namespace Position

lemma toNat_toPoint_line {p : Position} (h : p.line ≠ 0) :
    p.toPoint.line.toNat + 1 = p.line.toNat := by
  have hpos : 1 ≤ p.line.toNat := Nat.one_le_iff_ne_zero.mpr fun h0 => h (UInt32.toNat_inj.mp h0)
  have hone : (1 : UInt32) ≤ p.line := UInt32.le_iff_toNat_le.mpr hpos
  rw [toPoint, if_neg h, UInt32.toNat_sub_of_le _ _ hone]
  exact Nat.sub_add_cancel hpos

/-- Positions of proper lines are ordered as their points are. -/
lemma toPoint_le_toPoint {p q : Position} (hp : p.line ≠ 0) (hq : q.line ≠ 0) (h : p ≤ q) :
    p.toPoint ≤ q.toPoint := by
  rw [le_iff_toNat, ← toNat_toPoint_line hp, ← toNat_toPoint_line hq, Nat.add_lt_add_iff_right,
    Nat.add_right_cancel_iff] at h
  rwa [Point.le_iff_toNat, toPoint_column, toPoint_column]

lemma toPoint_ofPoint {p : Point} (h : (ofPoint p).line ≠ 0) : (ofPoint p).toPoint = p :=
  ofPoint_inj.mp (ofPoint_toPoint h)

end Position

/-! ### Mappings -/

namespace RawMapping

/-- The lines of the mapping count from one. -/
structure HasLines (m : RawMapping) : Prop where
  generated : m.generated.line ≠ 0
  origin : ∀ p, m.origin = some p → p.line ≠ 0

instance (m : RawMapping) : Decidable m.HasLines :=
  decidable_of_iff (m.generated.line ≠ 0 ∧ ∀ p ∈ m.origin, p.line ≠ 0)
    ⟨fun h => ⟨h.1, h.2⟩, fun h => ⟨h.generated, h.origin⟩⟩

/-- The mapping as it is written: without a name where it has no origin. -/
def written (m : RawMapping) : RawMapping := { m with name := m.origin.bind fun _ => m.name }

/-- The mapping as a segment whose name is not yet numbered. -/
def segment (m : RawMapping) : NamedSegment :=
  ⟨m.generated.toPoint, m.origin.map Position.toPoint, m.name⟩

/-- The mappings whose origin an index can trace. -/
def traceable (index : OriginIndex) (mappings : List RawMapping) : List RawMapping :=
  mappings.filter fun m => (m.origin.bind index.originOf?).isSome

variable {index : OriginIndex} {triples : List RawMapping} {k m : RawMapping}

/-- Names that are not written do not matter to composition. -/
lemma through_map_written (index : OriginIndex) (mappings : List RawMapping) :
    through index (mappings.map written) = through index mappings := by
  rw [through, List.filterMap_map]
  refine List.filterMap_congr fun m _ => ?_
  obtain ⟨generated, origin, name⟩ := m
  cases origin <;> rfl

lemma mem_through : k ∈ through index triples ↔ ∃ m ∈ triples, ∃ p o, m.origin = some p ∧
    index.originOf? p = some o ∧ k = ⟨m.generated, some o, m.name⟩ := by
  simp only [through, List.mem_filterMap, Option.map_eq_some_iff, Option.bind_eq_some_iff]
  constructor
  · rintro ⟨m, hm, o, ⟨p, hp, ho⟩, rfl⟩
    exact ⟨m, hm, p, o, hp, ho, rfl⟩
  · rintro ⟨m, hm, p, o, hp, ho, rfl⟩
    exact ⟨m, hm, o, ⟨p, hp, ho⟩, rfl⟩

lemma width_of_mem_through (hk : k ∈ through index triples) :
    k.width = if k.name.isSome then 5 else 4 := by
  obtain ⟨m, -, p, o, -, -, rfl⟩ := mem_through.mp hk
  cases h : m.name <;> simp [width]

/-- Composition keeps the number of elements that a mapping is written with. -/
lemma map_width_through (index : OriginIndex) (mappings : List RawMapping) :
    (through index mappings).map width = (traceable index mappings).map width := by
  rw [through_eq_map, List.map_map]
  refine List.map_congr_left fun m hm => ?_
  obtain ⟨o, ho⟩ := Option.isSome_iff_exists.mp (List.mem_filter.mp hm).2
  obtain ⟨p, hp, ho⟩ := Option.bind_eq_some_iff.mp ho
  simp only [Function.comp_apply, width, hp, Option.bind_some, ho]
  cases m.name <;> rfl

/-- A mapping that is kept at the place of another one is that one, traced. -/
lemma exists_origin_of_mem_through
    (hsorted : triples.Pairwise fun a b => a.generated < b.generated) (hm : m ∈ triples)
    (hk : k ∈ through index triples) (h : k.generated = m.generated) :
    ∃ p o, m.origin = some p ∧ index.originOf? p = some o ∧ k.origin = some o := by
  obtain ⟨m', hm', p, o, hp, ho, rfl⟩ := mem_through.mp hk
  refine ⟨p, o, ?_, ho, rfl⟩
  rcases eq_or_of_pairwise hsorted hm' hm with rfl | hlt | hlt
  · exact hp
  · exact absurd h (ne_of_lt hlt)
  · exact absurd h.symm (ne_of_lt hlt)

/-- A mapping is dropped exactly when it has no origin or one that is not traced. -/
lemma dropped_iff (hsorted : triples.Pairwise fun a b => a.generated < b.generated)
    (hm : m ∈ triples) : (∀ k ∈ through index triples, k.generated ≠ m.generated) ↔
      m.origin = none ∨ ∃ p, m.origin = some p ∧ index.originOf? p = none := by
  constructor
  · intro hdropped
    cases hp : m.origin with
    | none => exact .inl rfl
    | some p =>
      refine .inr ⟨p, rfl, ?_⟩
      cases ho : index.originOf? p with
      | none => rfl
      | some o =>
        have hkept : ⟨m.generated, some o, m.name⟩ ∈ through index triples :=
          mem_through.mpr ⟨m, hm, p, o, hp, ho, rfl⟩
        exact absurd rfl (hdropped ⟨m.generated, some o, m.name⟩ hkept)
  · rintro huntraced k hk heq
    obtain ⟨p, o, hp, ho, -⟩ := exists_origin_of_mem_through hsorted hm hk heq
    rcases huntraced with hnone | ⟨p', hp', hnone⟩
    · cases hnone.symm.trans hp
    · cases hp'.symm.trans hp
      cases hnone.symm.trans ho

end RawMapping

namespace SourceMap

/-- A structured map read as a list of mappings. -/
def mappings (map : SourceMap) : List RawMapping :=
  map.segments.map fun s => ⟨.ofPoint s.generated, s.position?, map.segmentName? s⟩

/-- The structured map built from mappings. -/
def ofMappings (sources : List String) (contents : List (Option String))
    (mappings : List RawMapping) : SourceMap :=
  ofSegments sources contents (mappings.map RawMapping.segment)

/-- The map holds the given mappings, in this order, and no others. -/
def Holds (map : SourceMap) (mappings : List RawMapping) : Prop :=
  map.mappings = mappings.map RawMapping.written

variable {map : SourceMap} {triples : List RawMapping}

/-- The segments of a map that holds sorted mappings stand in order and at different places. -/
lemma pairwise_of_holds (hmap : map.Holds triples) (hlines : ∀ m ∈ triples, m.HasLines)
    (hsorted : triples.Pairwise fun a b => a.generated < b.generated) :
    map.segments.Pairwise fun a b => a.precedes b ∧ a.generated ≠ b.generated := by
  have hplaces : map.segments.map (fun s => Position.ofPoint s.generated) =
      triples.map (·.generated) := by
    simpa only [mappings, RawMapping.written, List.map_map, Function.comp_def] using
      congrArg (List.map RawMapping.generated) hmap
  have hline : ∀ s ∈ map.segments, (Position.ofPoint s.generated).line ≠ 0 := by
    intro s hs
    have hmem : Position.ofPoint s.generated ∈ triples.map (·.generated) :=
      hplaces ▸ List.mem_map_of_mem hs
    obtain ⟨m, hm, heq⟩ := List.mem_map.mp hmem
    exact heq ▸ (hlines m hm).generated
  have hlt : map.segments.Pairwise fun a b =>
      Position.ofPoint a.generated < Position.ofPoint b.generated := by
    rw [← List.pairwise_map (f := fun s : Segment => Position.ofPoint s.generated), hplaces,
      List.pairwise_map]
    exact hsorted
  refine hlt.imp_of_mem fun {a b} ha hb h => ⟨?_, fun heq => ne_of_lt h (congrArg _ heq)⟩
  have hle := Position.toPoint_le_toPoint (hline a ha) (hline b hb) (le_of_lt h)
  rw [Position.toPoint_ofPoint (hline a ha), Position.toPoint_ofPoint (hline b hb)] at hle
  exact decide_eq_true hle

/-- Composing a map whose segments are in order is composing the list that it is read as. -/
lemma mappings_through {first : SourceMap} (hfirst : first.HasCountableLines)
    (source : SourceFile)
    (hd : map.segments.Pairwise fun a b => a.precedes b ∧ a.generated ≠ b.generated) :
    (map.through (.ofSourceMap first) source).mappings =
      RawMapping.through (.ofSourceMap first) map.mappings := by
  have hview := through_view hfirst source (hd.imp And.right)
  rw [Segment.arrange_of_pairwise (hd.imp And.left)] at hview
  have hread := congrArg (List.map fun v : Point × Option Position × Option String =>
    (⟨.ofPoint v.1, v.2.1, v.2.2⟩ : RawMapping)) hview
  simp only [List.map_map, Function.comp_def] at hread
  rw [RawMapping.through_eq_map, mappings, mappings, hread, List.filter_map, List.map_map]
  rfl

/-- The map built from sorted mappings holds them, if their names can be numbered. -/
lemma holds_ofMappings (sources : List String) (contents : List (Option String))
    (hlines : ∀ m ∈ triples, m.HasLines)
    (hsorted : triples.Pairwise fun a b => a.generated < b.generated)
    (hnames : (namesOf (triples.map RawMapping.segment)).length ≤ UInt32.size) :
    (ofMappings sources contents triples).Holds triples := by
  have harranged : (ofMappings sources contents triples).segments =
      (triples.map RawMapping.segment).map
        (numbered (namesOf (triples.map RawMapping.segment))) := by
    refine Segment.arrange_of_pairwise ?_
    rw [List.map_map, List.pairwise_map]
    refine hsorted.imp_of_mem fun {a b} ha hb h => decide_eq_true ?_
    exact Position.toPoint_le_toPoint (hlines a ha).generated (hlines b hb).generated (le_of_lt h)
  rw [Holds, mappings, harranged, List.map_map, List.map_map]
  refine List.map_congr_left fun m hm => ?_
  have hname (h : m.segment.origin.isSome) :
      (ofMappings sources contents triples).segmentName? (numbered _ m.segment) = m.name :=
    segmentName?_numbered sources contents (List.mem_map_of_mem hm) h hnames
  obtain ⟨hgenerated, horigin⟩ := hlines m hm
  obtain ⟨generated, origin, name⟩ := m
  cases origin with
  | none => simp [RawMapping.written, RawMapping.segment, numbered, Segment.position?,
      segmentName?, Position.ofPoint_toPoint hgenerated]
  | some p =>
    simp only [Function.comp_apply, hname rfl]
    simp [RawMapping.written, RawMapping.segment, numbered, Segment.position?,
      Position.ofPoint_toPoint hgenerated, Position.ofPoint_toPoint (horigin p rfl)]

end SourceMap

/-! ### Agreement -/

/-- What composing a list of mappings, composing a structured map that holds them and patching a
tree have in common: what is `kept` of the list and the map that is `composed`. -/
structure Agreement (index : OriginIndex) (source : SourceFile) (triples kept : List RawMapping)
    (composed : SourceMap) : Prop where
  /-- The list keeps what can be traced, in order and with its places and names. -/
  kept_eq : kept = (RawMapping.traceable index triples).map fun m =>
    ⟨m.generated, m.origin.bind index.originOf?, m.name⟩
  /-- The composed map reads as what the list keeps. -/
  mappings_eq : composed.mappings = kept
  /-- What is dropped has no origin, or one that is not traced. -/
  dropped_iff : ∀ m ∈ triples, (∀ k ∈ kept, k.generated ≠ m.generated) ↔
    m.origin = none ∨ ∃ p, m.origin = some p ∧ index.originOf? p = none
  /-- What is kept is written with as many elements as before. -/
  width_eq : kept.map RawMapping.width = (RawMapping.traceable index triples).map RawMapping.width
  width : ∀ k ∈ kept, k.width = if k.name.isSome then 5 else 4
  /-- The composed map has the given source alone, with its text. -/
  sources : composed.sources = [source.path] ∧ composed.sourceName? 0 = some source.path ∧
    composed.sourceContents = [some source.text]
  fromSource : ∀ s ∈ composed.segments, ∃ o, s.origin = some o ∧ o.source = 0
  /-- An endpoint at the origin of a kept mapping moves to where that mapping is traced. -/
  moved : ∀ tree path side, .key "loc" ∉ path → side = "start" ∨ side = "end" →
    ∀ m ∈ triples, ∀ p, m.origin = some p → SyntaxTree.position? path side tree = some p →
      ∀ k ∈ kept, k.generated = m.generated →
        SyntaxTree.position? path side (SyntaxTree.patch index tree) = k.origin
  /-- An endpoint at the origin of a dropped mapping stays as it is. -/
  unmoved : ∀ tree path side, .key "loc" ∉ path → side = "start" ∨ side = "end" →
    ∀ m ∈ triples, ∀ p, m.origin = some p → SyntaxTree.position? path side tree = some p →
      (∀ k ∈ kept, k.generated ≠ m.generated) →
        SyntaxTree.endpoint? path side (SyntaxTree.patch index tree) =
          SyntaxTree.endpoint? path side tree

/-- Every segment of a composed map has an origin in its only source. -/
lemma SourceMap.exists_origin_of_mem_through {index : OriginIndex} {source : SourceFile}
    {map : SourceMap} {s : Segment} (hs : s ∈ (map.through index source).segments) :
    ∃ o, s.origin = some o ∧ o.source = 0 := by
  have hmem := (Segment.arrange_perm _).mem_iff.mp hs
  obtain ⟨t, ht, rfl⟩ := List.mem_map.mp hmem
  obtain ⟨u, -, hu⟩ := List.mem_filterMap.mp ht
  obtain ⟨o, -, rfl⟩ := Option.map_eq_some_iff.mp hu
  exact ⟨_, rfl, rfl⟩

/-- The list of mappings, a structured map that holds them and trees are traced alike. -/
lemma agreement_through {first map : SourceMap} (hfirst : first.HasCountableLines)
    (source : SourceFile) {triples : List RawMapping} (hlines : ∀ m ∈ triples, m.HasLines)
    (hsorted : triples.Pairwise fun a b => a.generated < b.generated) (hmap : map.Holds triples) :
    Agreement (.ofSourceMap first) source triples (RawMapping.through (.ofSourceMap first) triples)
      (map.through (.ofSourceMap first) source) where
  kept_eq := RawMapping.through_eq_map _ _
  mappings_eq := by
    rw [SourceMap.mappings_through hfirst source (SourceMap.pairwise_of_holds hmap hlines hsorted),
      hmap, RawMapping.through_map_written]
  dropped_iff _ hm := RawMapping.dropped_iff hsorted hm
  width_eq := RawMapping.map_width_through _ _
  width _ hk := RawMapping.width_of_mem_through hk
  sources := ⟨rfl, rfl, rfl⟩
  fromSource _ hs := SourceMap.exists_origin_of_mem_through hs
  moved tree path side hpath hside m hm p hp hposition k hk hplace := by
    obtain ⟨p', o, hp', ho, hk⟩ := RawMapping.exists_origin_of_mem_through hsorted hm hk hplace
    cases hp'.symm.trans hp
    rw [hk]
    exact SyntaxTree.position?_patch hpath hside hposition ho
  unmoved tree path side hpath hside m hm p hp hposition hdropped := by
    rcases (RawMapping.dropped_iff hsorted hm).mp hdropped with hnone | ⟨p', hp', hnone⟩
    · cases hnone.symm.trans hp
    · cases hp'.symm.trans hp
      exact SyntaxTree.endpoint?_patch_of_eq_none hpath hside hposition hnone

/-- Sorted mappings are traced alike in a list, in a structured map that holds them and in a tree,
and the map built from them holds them. `HasCountableLines` leaves out a first map with an origin on
the line 2 ^ 32 - 1, counted from zero, at which counting from one overflows when that map is
indexed; the condition on names leaves out more names than words can number. -/
theorem through_agree {first : SourceMap} (hfirst : first.HasCountableLines) (source : SourceFile)
    {triples : List RawMapping} (hlines : ∀ m ∈ triples, m.HasLines)
    (hsorted : triples.Pairwise fun a b => a.generated < b.generated) :
    (∀ sources contents,
      (SourceMap.namesOf (triples.map RawMapping.segment)).length ≤ UInt32.size →
        (SourceMap.ofMappings sources contents triples).Holds triples) ∧
    ∀ map : SourceMap, map.Holds triples → ∃ kept composed,
      PositionMap.through (.ofSourceMap first) source (.raw triples) = .raw kept ∧
      PositionMap.through (.ofSourceMap first) source (.structured map) = .structured composed ∧
      Agreement (.ofSourceMap first) source triples kept composed := by
  constructor
  · intro sources contents hnames
    exact SourceMap.holds_ofMappings sources contents hlines hsorted hnames
  · intro map hmap
    exact ⟨_, _, rfl, rfl, agreement_through hfirst source hlines hsorted hmap⟩

/-- Of four mappings two are kept: the first has no origin, that of the last is on a line that the
first map does not know. A node that begins at the origin of the third is moved with it. -/
theorem through_agree_on_two :
    let first := SourceMap.ofSegments ["a.ts"] []
      [⟨⟨0, 0⟩, some ⟨2, 0⟩, none⟩, ⟨⟨1, 4⟩, some ⟨4, 6⟩, none⟩]
    let triples : List RawMapping :=
      [⟨⟨1, 0⟩, none, none⟩, ⟨⟨2, 0⟩, some ⟨1, 0⟩, none⟩, ⟨⟨2, 7⟩, some ⟨2, 9⟩, some "b"⟩,
        ⟨⟨3, 0⟩, some ⟨4, 0⟩, none⟩]
    let tree := Json.object [("loc", .object [("start", SyntaxTree.pointOf 2 9)])]
    first.HasCountableLines ∧ (∀ m ∈ triples, m.HasLines) ∧
      triples.Pairwise (fun a b => a.generated < b.generated) ∧
      ∃ composed,
        PositionMap.through (.ofSourceMap first) ⟨"a.ts", "b"⟩
          (.structured (.ofMappings ["a.js"] [] triples)) = .structured composed ∧
        composed.mappings = [⟨⟨2, 0⟩, some ⟨3, 0⟩, none⟩, ⟨⟨2, 7⟩, some ⟨5, 6⟩, some "b"⟩] ∧
        SyntaxTree.position? [] "start" (SyntaxTree.patch (.ofSourceMap first) tree) =
          some ⟨5, 6⟩ := by
  intro first triples tree
  have hfirst : first.segments = _ := Segment.arrange_of_pairwise (by decide)
  have hcountable : first.HasCountableLines := by
    intro s hs p hp
    rw [hfirst] at hs
    simp only [List.map_cons, List.map_nil, List.mem_cons, List.not_mem_nil, or_false] at hs
    rcases hs with rfl | rfl <;> cases hp <;> decide
  have hlines : ∀ m ∈ triples, m.HasLines := by decide
  have hsorted : triples.Pairwise fun a b => a.generated < b.generated := by decide
  have hindex : OriginIndex.ofSourceMap first =
      .ofEntries [⟨⟨1, 0⟩, some ⟨3, 0⟩⟩, ⟨⟨2, 4⟩, some ⟨5, 6⟩⟩] := by
    rw [OriginIndex.ofSourceMap, hfirst]
    rfl
  have hstart : (OriginIndex.ofSourceMap first).originOf? ⟨1, 0⟩ = some ⟨3, 0⟩ := by
    rw [hindex]
    exact OriginIndex.originOf?_of_isNearest ⟨[], [_], rfl, by decide, by decide, by decide⟩
  have hword : (OriginIndex.ofSourceMap first).originOf? ⟨2, 9⟩ = some ⟨5, 6⟩ := by
    rw [hindex]
    exact OriginIndex.originOf?_of_isNearest ⟨[_], [], rfl, by decide, by decide, by decide⟩
  have hunknown : (OriginIndex.ofSourceMap first).originOf? ⟨4, 0⟩ = none := by
    rw [hindex]
    exact OriginIndex.originOf?_eq_none (by decide)
  obtain ⟨hholds, hagree⟩ := through_agree hcountable ⟨"a.ts", "b"⟩ hlines hsorted
  obtain ⟨kept, composed, hraw, hcomposed, agreement⟩ := hagree _ (hholds ["a.js"] [] (by decide))
  have hkept : kept = [⟨⟨2, 0⟩, some ⟨3, 0⟩, none⟩, ⟨⟨2, 7⟩, some ⟨5, 6⟩, some "b"⟩] := by
    rw [agreement.kept_eq]
    simp [RawMapping.traceable, triples, hstart, hword, hunknown]
  refine ⟨hcountable, hlines, hsorted, composed, hcomposed, agreement.mappings_eq.trans hkept, ?_⟩
  have hthird : (⟨⟨2, 7⟩, some ⟨2, 9⟩, some "b"⟩ : RawMapping) ∈ triples := by decide
  have hmem : (⟨⟨2, 7⟩, some ⟨5, 6⟩, some "b"⟩ : RawMapping) ∈ kept := by simp [hkept]
  exact agreement.moved tree [] "start" List.not_mem_nil (.inl rfl) _ hthird ⟨2, 9⟩ rfl
    (by decide) _ hmem rfl

end Provenance
