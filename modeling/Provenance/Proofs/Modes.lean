import Mathlib.Data.Option.Basic
import Provenance.Proofs.Agreement
import Provenance.Proofs.EndToEnd

/-!
# What the integration mode decides

The two modes run the same stages on the same code, so they fail alike and give back the same code
and metadata. A typed file has its tree patched in one mode and its map composed in the other; what
a mode does not relocate it gives back as the second stage made it. A patched tree differs from the
tree it was made from in the lines and columns of endpoints (`DiffersInCoordinates`), and a composed
map leads to nothing but origins of the first map (`OriginatesFrom`).
-/

namespace Provenance

/-! ### Trees that differ in coordinates -/

namespace SyntaxTree

/-- The values look the same from outside: both are objects, or arrays of one length, or the two
are equal. What lies in them is told by longer paths. -/
def SameOutline : Json → Json → Prop
  | .object _, .object _ => True
  | .array xs, .array ys => xs.length = ys.length
  | v, w => v = w

/-- The path leads to a coordinate of an endpoint: to the `line` or the `column` in the `start` or
the `end` of a location that is not within another one. -/
def IsCoordinate (path : List Step) : Prop :=
  ∃ above side name, .key "loc" ∉ above ∧ (side = "start" ∨ side = "end") ∧
    (name = "line" ∨ name = "column") ∧
    path = above ++ [.key "loc", .key side, .key name]

/-- The trees have the same values in the same places, apart from coordinates of endpoints, which
are words in both where they differ. -/
structure DiffersInCoordinates (tree patched : Json) : Prop where
  outside : ∀ path, ¬ IsCoordinate path →
    Option.Rel SameOutline (follow? path tree) (follow? path patched)
  coordinate : ∀ path, IsCoordinate path → follow? path patched = follow? path tree ∨
    ∃ m n : UInt32, follow? path tree = some (.word m) ∧ follow? path patched = some (.word n)

variable {index : OriginIndex} {v : Json} {side name : String} {path : List Step}

lemma SameOutline.refl (v : Json) : SameOutline v v := by
  cases v <;> first | rfl | trivial

lemma rel_refl (found : Option Json) : Option.Rel SameOutline found found := by
  cases found with
  | none => exact .none
  | some v => exact .some (.refl v)

lemma sameOutline_patch (index : OriginIndex) (v : Json) : SameOutline v (patch index v) := by
  cases v with
  | object fields => trivial
  | array items => simp [SameOutline, patch, patchItems_eq_map]
  | _ => rfl

lemma sameOutline_patchLoc (index : OriginIndex) (v : Json) :
    SameOutline v (patchLoc index v) := by
  cases v with
  | object fields => trivial
  | _ => exact .refl _

lemma sameOutline_patchPoint (index : OriginIndex) (v : Json) :
    SameOutline v (patchPoint index v) := by
  cases h : (point? v).bind index.originOf? with
  | none =>
    rw [patchPoint_of_eq_none h]
    exact .refl v
  | some o =>
    obtain ⟨fields, rfl, heq⟩ := exists_patchPoint_eq h
    rw [heq]
    trivial

lemma follow?_append (above below : List Step) (v : Json) :
    follow? (above ++ below) v = (follow? above v).bind (follow? below) := by
  induction above generalizing v with
  | nil => rfl
  | cons s above ih =>
    rw [List.cons_append, follow?, follow?]
    cases step? s v with
    | none => rfl
    | some w => exact ih w

/-- No path goes on from a word. -/
lemma follow?_word (s : Step) (path : List Step) (n : UInt32) :
    follow? (s :: path) (.word n) = none := by
  cases s <;> rfl

lemma eq_word_of_word? {n : UInt32} (h : v.word? = some n) : v = .word n := by
  cases v with
  | int k =>
    simp only [Json.word?] at h
    split at h
    · next hk =>
      obtain ⟨hnonneg, hlt⟩ := hk
      rw [← Option.some.inj h, Json.word, UInt32.toNat_ofNat_of_lt' hlt,
        Int.toNat_of_nonneg hnonneg]
    · cases h
  | _ => cases h

/-- Both coordinates of a point are words. -/
lemma exists_word_of_point? {p : Position} (h : point? v = some p)
    (hname : name = "line" ∨ name = "column") :
    ∃ n : UInt32, step? (.key name) v = some (.word n) := by
  cases v with
  | object fields =>
    simp only [point?, Option.bind_eq_bind, Option.bind_eq_some_iff] at h
    obtain ⟨l, hl, line, hline, c, hc, column, hcolumn, -⟩ := h
    rcases hname with rfl | rfl
    · exact ⟨line, hl.trans (congrArg some (eq_word_of_word? hline))⟩
    · exact ⟨column, hc.trans (congrArg some (eq_word_of_word? hcolumn))⟩
  | _ => cases h

/-- A step into a point finds what it found before the point was moved, unless it leads to a
coordinate; coordinates that are moved are words before and after. -/
lemma step?_patchPoint (index : OriginIndex) (s : Step) (v : Json) :
    step? s (patchPoint index v) = step? s v ∨
      (∃ name, (name = "line" ∨ name = "column") ∧ s = .key name) ∧ ∃ m n : UInt32,
        step? s v = some (.word m) ∧ step? s (patchPoint index v) = some (.word n) := by
  cases h : (point? v).bind index.originOf? with
  | none =>
    rw [patchPoint_of_eq_none h]
    exact .inl rfl
  | some o =>
    obtain ⟨p, hp, -⟩ := Option.bind_eq_some_iff.mp h
    obtain ⟨fields, rfl, heq⟩ := exists_patchPoint_eq h
    rw [heq]
    cases s with
    | item n => exact .inl rfl
    | key name =>
      by_cases hname : name = "line" ∨ name = "column"
      · refine .inr ⟨⟨name, hname, rfl⟩, ?_⟩
        obtain ⟨m, hm⟩ := exists_word_of_point? hp hname
        rcases hname with rfl | rfl
        · exact ⟨m, o.line, hm, by simp [step?]⟩
        · exact ⟨m, o.column, hm, by simp [step?]⟩
      · rw [not_or] at hname
        refine .inl ?_
        simp [step?, hname]

/-- A step into a location leads to an endpoint that is patched, or to what it led to before. -/
lemma step?_patchLoc (index : OriginIndex) (s : Step) (loc : Json) :
    (∃ side, (side = "start" ∨ side = "end") ∧ s = .key side) ∧
        step? s (patchLoc index loc) = (step? s loc).map (patchPoint index) ∨
      step? s (patchLoc index loc) = step? s loc := by
  cases loc with
  | object fields =>
    cases s with
    | item n => exact .inr rfl
    | key side =>
      rw [patchLoc_eq_map, step?, step?, get?_map_values fun k u =>
        if k = "start" ∨ k = "end" then patchPoint index u else u]
      by_cases hside : side = "start" ∨ side = "end"
      · refine .inl ⟨⟨side, hside, rfl⟩, ?_⟩
        simp [hside]
      · refine .inr ?_
        simp [hside]
  | _ => exact .inr rfl

/-- Below a point only coordinates change. -/
lemma follow?_patchPoint (index : OriginIndex) (v : Json) (hpath : path ≠ []) :
    follow? path (patchPoint index v) = follow? path v ∨
      (∃ name, (name = "line" ∨ name = "column") ∧ path = [.key name]) ∧ ∃ m n : UInt32,
        follow? path v = some (.word m) ∧ follow? path (patchPoint index v) = some (.word n) := by
  obtain ⟨s, rest, rfl⟩ := List.exists_cons_of_ne_nil hpath
  simp only [follow?]
  rcases step?_patchPoint index s v with heq | ⟨⟨name, hname, rfl⟩, m, n, hm, hn⟩
  · rw [heq]
    exact .inl rfl
  · rw [hm, hn]
    cases rest with
    | nil => exact .inr ⟨⟨name, hname, rfl⟩, m, n, rfl, rfl⟩
    | cons t rest => exact .inl ((follow?_word t rest n).trans (follow?_word t rest m).symm)

/-- Below a location only coordinates of its endpoints change. -/
lemma follow?_patchLoc (index : OriginIndex) (loc : Json) (path : List Step) :
    Option.Rel SameOutline (follow? path loc) (follow? path (patchLoc index loc)) ∧
        (path.length = 2 → follow? path (patchLoc index loc) = follow? path loc) ∨
      (∃ side name, (side = "start" ∨ side = "end") ∧ (name = "line" ∨ name = "column") ∧
          path = [.key side, .key name]) ∧ ∃ m n : UInt32,
        follow? path loc = some (.word m) ∧ follow? path (patchLoc index loc) = some (.word n) := by
  cases path with
  | nil => exact .inl ⟨.some (sameOutline_patchLoc index loc), fun h => by cases h⟩
  | cons s rest =>
    simp only [follow?]
    rcases step?_patchLoc index s loc with ⟨⟨side, hside, rfl⟩, heq⟩ | heq
    · rw [heq]
      cases step? (.key side) loc with
      | none => exact .inl ⟨.none, fun _ => rfl⟩
      | some v =>
        by_cases hrest : rest = []
        · subst hrest
          exact .inl ⟨.some (sameOutline_patchPoint index v), fun h => by cases h⟩
        · rcases follow?_patchPoint index v hrest with hsame | ⟨⟨name, hname, rfl⟩, m, n, hm, hn⟩
          · rw [Option.map_some, Option.bind_some, Option.bind_some, hsame]
            exact .inl ⟨rel_refl _, fun _ => rfl⟩
          · exact .inr ⟨⟨side, name, hside, hname, rfl⟩, m, n, hm, hn⟩
    · rw [heq]
      exact .inl ⟨rel_refl _, fun _ => rfl⟩

/-- Either a path enters no location, or there is a first one that it enters. -/
lemma enters_loc (path : List Step) : .key "loc" ∉ path ∨
    ∃ above below, .key "loc" ∉ above ∧ path = above ++ .key "loc" :: below := by
  by_cases h : .key "loc" ∈ path
  · obtain ⟨above, below, rfl, habove⟩ := List.eq_append_cons_of_mem h
    exact .inr ⟨above, below, habove, rfl⟩
  · exact .inl h

/-- Where a path enters a location, the patched tree has the patched location. -/
lemma follow?_enter (index : OriginIndex) {above : List Step} (habove : .key "loc" ∉ above)
    (below : List Step) (tree : Json) :
    follow? (above ++ .key "loc" :: below) tree = none ∧
        follow? (above ++ .key "loc" :: below) (patch index tree) = none ∨
      ∃ loc, follow? (above ++ .key "loc" :: below) tree = follow? below loc ∧
        follow? (above ++ .key "loc" :: below) (patch index tree) =
          follow? below (patchLoc index loc) := by
  have hstep : ∀ v, step? (.key "loc") v = v.get? "loc" := fun v => by cases v <;> rfl
  rw [follow?_append, follow?_append, follow?_patch habove]
  cases follow? above tree with
  | none => exact .inl ⟨rfl, rfl⟩
  | some v =>
    simp only [Option.map_some, Option.bind_some, follow?, hstep, get?_loc_patch]
    cases v.get? "loc" with
    | none => exact .inl ⟨rfl, rfl⟩
    | some loc => exact .inr ⟨loc, rfl, rfl⟩

/-- Patching changes coordinates of endpoints and nothing else. -/
lemma differsInCoordinates_patch (index : OriginIndex) (tree : Json) :
    DiffersInCoordinates tree (patch index tree) where
  outside path hpath := by
    rcases enters_loc path with hloc | ⟨above, below, habove, rfl⟩
    · rw [follow?_patch hloc]
      cases follow? path tree with
      | none => exact .none
      | some v => exact .some (sameOutline_patch index v)
    · rcases follow?_enter index habove below tree with ⟨h, h'⟩ | ⟨loc, h, h'⟩
      · rw [h, h']
        exact .none
      · rw [h, h']
        rcases follow?_patchLoc index loc below with
          ⟨hrel, -⟩ | ⟨⟨side, name, hside, hname, rfl⟩, -⟩
        · exact hrel
        · exact absurd ⟨above, side, name, habove, hside, hname, rfl⟩ hpath
  coordinate path hpath := by
    obtain ⟨above, side, name, habove, hside, hname, rfl⟩ := hpath
    rcases follow?_enter index habove [.key side, .key name] tree with
      ⟨h, h'⟩ | ⟨loc, h, h'⟩
    · rw [h, h']
      exact .inl rfl
    · rw [h, h']
      rcases follow?_patchLoc index loc [.key side, .key name] with ⟨-, heq⟩ | ⟨-, hwords⟩
      · exact .inl (heq rfl)
      · exact .inr hwords

end SyntaxTree

/-! ### Maps that originate from another one -/

/-- What the origins of a map lead to was the origin of some segment of the first map. -/
lemma SourceMap.exists_of_originOf? {first : SourceMap} {query o : Position}
    (h : (OriginIndex.ofSourceMap first).originOf? query = some o) :
    ∃ s ∈ first.segments, s.position? = some o := by
  by_cases hcov : ∃ s ∈ first.segments, (Position.ofPoint s.generated).Covers query
  · obtain ⟨s, hs⟩ := exists_isNearest hcov
    have hentry : IsNearest (·.generated) query
        (first.segments.map fun s => (⟨.ofPoint s.generated, s.position?⟩ : OriginEntry))
        ⟨.ofPoint s.generated, s.position?⟩ := hs.map fun _ _ => rfl
    rw [OriginIndex.ofSourceMap, OriginIndex.originOf?_of_isNearest hentry] at h
    exact ⟨s, hs.mem, h⟩
  · rw [OriginIndex.ofSourceMap, OriginIndex.originOf?_eq_none] at h
    · cases h
    · intro e he hcov'
      obtain ⟨s, hs, rfl⟩ := List.mem_map.mp he
      exact hcov ⟨s, hs, hcov'⟩

/-- A map and what became of it when it was composed: both are lists or both are structured, and
every origin that is left is that of a segment of the first map. A structured map stores a point;
the position it stands for is the same unless its line is the one after the greatest word. -/
def OriginatesFrom (first : SourceMap) : PositionMap → PositionMap → Prop
  | .raw _, .raw composed => ∀ m ∈ composed, ∃ s ∈ first.segments, ∃ p,
      s.position? = some p ∧ m.origin = some p
  | .structured _, .structured composed => ∀ t ∈ composed.segments, ∃ s ∈ first.segments, ∃ p,
      s.position? = some p ∧ t.origin.map (·.point) = some p.toPoint ∧
        (p.line ≠ 0 → t.position? = some p)
  | _, _ => False

lemma originatesFrom_through (first : SourceMap) (source : SourceFile) (map : PositionMap) :
    OriginatesFrom first map (map.through (.ofSourceMap first) source) := by
  cases map with
  | raw mappings =>
    intro k hk
    obtain ⟨m, -, p, o, -, ho, rfl⟩ := RawMapping.mem_through.mp hk
    obtain ⟨s, hs, hposition⟩ := SourceMap.exists_of_originOf? ho
    exact ⟨s, hs, o, hposition, rfl⟩
  | structured map =>
    intro t ht
    have hmem := (Segment.arrange_perm _).mem_iff.mp ht
    obtain ⟨n, hn, rfl⟩ := List.mem_map.mp hmem
    obtain ⟨u, -, hu⟩ := List.mem_filterMap.mp hn
    obtain ⟨o, ho, rfl⟩ := Option.map_eq_some_iff.mp hu
    obtain ⟨p, -, ho⟩ := Option.bind_eq_some_iff.mp ho
    obtain ⟨s, hs, hposition⟩ := SourceMap.exists_of_originOf? ho
    refine ⟨s, hs, o, hposition, rfl, fun hline => ?_⟩
    simp [Segment.position?, SourceMap.numbered, Position.ofPoint_toPoint hline]

/-! ### Two modes -/

namespace Pipeline

/-- Two results agree: they fail with one error, or both succeed with outputs that are related. -/
def Agree (related : TransformOutput → TransformOutput → Prop) :
    Except PipelineError TransformOutput → Except PipelineError TransformOutput → Prop
  | .error e, .error e' => e = e'
  | .ok a, .ok b => related a b
  | _, _ => False

variable {p : Pipeline} {request : TransformRequest} {out : TransformOutput}

/-- What is behind the result of a typed file: the compiler found no error, its map was read, and
the second stage took the intermediate code. -/
lemma exists_stages (htyped : isTyped request.fileName) (h : p.transform request = .ok out) :
    let compiled := p.compiler.compile (fileOf request) p.options
    Diagnostic.firstError? compiled.diagnostics = none ∧ ∃ first own,
      SourceMap.ofText compiled.mapText = .ok first ∧
      p.transformer.transform { request with source := compiled.code } = .ok own ∧
      out = p.relocate (.ofSourceMap first) (fileOf request) own := by
  intro compiled
  rw [transform, if_pos htyped] at h
  cases hcompile : p.compileStage request with
  | error e =>
    rw [hcompile] at h
    cases h
  | ok staged =>
    obtain ⟨index, intermediate⟩ := staged
    rw [hcompile] at h
    simp only [compileStage] at hcompile
    split at hcompile
    · cases hcompile
    next hnone =>
    split at hcompile
    · cases hcompile
    next first hfirst =>
    cases hcompile
    cases hown : p.transformer.transform { request with source := compiled.code } with
    | error e =>
      simp only [transformStage] at h
      rw [hown] at h
      cases h
    | ok own =>
      simp only [transformStage] at h
      rw [hown] at h
      cases h
      exact ⟨hnone, first, own, hfirst, rfl, rfl⟩

section

variable (compiler : Compiler) (transformer : Transformer) (options : Config.CompilerOptions)
  (request : TransformRequest)

lemma relocate_code (index : OriginIndex) (source : SourceFile) (own : TransformOutput) :
    (p.relocate index source own).code = own.code ∧
      (p.relocate index source own).metadata = own.metadata := by
  unfold relocate
  split <;> exact ⟨rfl, rfl⟩

/-- The modes fail alike, and give back the same code and metadata. -/
lemma agree_modes :
    Agree (fun a b => a.code = b.code ∧ a.metadata = b.metadata)
      (transform ⟨compiler, transformer, options, .treeLocations⟩ request)
      (transform ⟨compiler, transformer, options, .standaloneMap⟩ request) := by
  by_cases htyped : isTyped request.fileName
  · -- neither stage looks at the mode
    have hcompile : compileStage ⟨compiler, transformer, options, .treeLocations⟩ request =
      compileStage ⟨compiler, transformer, options, .standaloneMap⟩ request := rfl
    rw [transform, transform, if_pos htyped, if_pos htyped, hcompile]
    cases compileStage ⟨compiler, transformer, options, .standaloneMap⟩ request with
    | error e => exact rfl
    | ok staged =>
      obtain ⟨index, intermediate⟩ := staged
      simp only [transformStage]
      cases transformer.transform intermediate with
      | error message => exact rfl
      | ok own =>
        have htree := relocate_code (p := ⟨compiler, transformer, options, .treeLocations⟩) index
          (fileOf request) own
        have hmap := relocate_code (p := ⟨compiler, transformer, options, .standaloneMap⟩) index
          (fileOf request) own
        exact ⟨htree.1.trans hmap.1.symm, htree.2.trans hmap.2.symm⟩
  · rw [transform, transform, if_neg htyped, if_neg htyped]
    simp only [transformStage]
    cases transformer.transform request with
    | error message => exact rfl
    | ok own => exact ⟨rfl, rfl⟩

end

/-- The mode decides what is relocated and nothing else. Results agree in all but tree and map. For a
typed file each mode relocates one of the two, if the second stage returned it, and gives the other
one back as it is; any other file is what the second stage makes of it. -/
theorem transform_modes (compiler : Compiler) (transformer : Transformer)
    (options : Config.CompilerOptions) (request : TransformRequest) :
    let inTree := transform ⟨compiler, transformer, options, .treeLocations⟩ request
    let inMap := transform ⟨compiler, transformer, options, .standaloneMap⟩ request
    Agree (fun a b => a.code = b.code ∧ a.metadata = b.metadata) inTree inMap ∧
      (isTyped request.fileName → ∀ a b, inTree = .ok a → inMap = .ok b →
        let compiled := compiler.compile (fileOf request) options
        ∃ first own, SourceMap.ofText compiled.mapText = .ok first ∧
          transformer.transform { request with source := compiled.code } = .ok own ∧
          (a.map = own.map ∧ Option.Rel SyntaxTree.DiffersInCoordinates own.tree a.tree) ∧
          b.tree = own.tree ∧ Option.Rel (OriginatesFrom first) own.map b.map) ∧
      (¬ isTyped request.fileName → ∀ mode,
        transform ⟨compiler, transformer, options, mode⟩ request =
          (transformer.transform request).mapError .transform) := by
  intro inTree inMap
  refine ⟨agree_modes compiler transformer options request, fun htyped a b ha hb => ?_,
    fun hplain mode => if_neg hplain⟩
  obtain ⟨-, first, own, hfirst, hown, rfl⟩ := exists_stages htyped ha
  obtain ⟨-, first', own', hfirst', hown', rfl⟩ := exists_stages htyped hb
  cases hfirst.symm.trans hfirst'
  cases hown.symm.trans hown'
  refine ⟨first, own, hfirst, hown, ⟨rfl, ?_⟩, rfl, ?_⟩
  · change Option.Rel _ own.tree (own.tree.map _)
    cases own.tree with
    | none => exact .none
    | some tree => exact .some (SyntaxTree.differsInCoordinates_patch _ tree)
  · change Option.Rel _ own.map (own.map.map _)
    cases own.map with
    | none => exact .none
    | some map => exact .some (originatesFrom_through first _ map)

/-- A line that goes through both stages: the map of one mode and the tree of the other are those of
the second stage. -/
theorem transform_modes_line :
    let request : TransformRequest := ⟨"a;\n", "a.ts", .null⟩
    isTyped request.fileName ∧ ∃ a b own,
      (erasing .raw ⟨[]⟩ .treeLocations).transform request = .ok a ∧
        (erasing .raw ⟨[]⟩ .standaloneMap).transform request = .ok b ∧
          (Lowering.transformer .raw).transform
            { request with source := Intermediate.code request.source } = .ok own ∧
          a.code = b.code ∧ a.map = own.map ∧ b.tree = own.tree := by
  intro request
  have htyped : isTyped request.fileName := by decide +kernel
  have hsize : request.source.utf8ByteSize < 2 ^ 31 := by decide
  have hfirst : Text.FirstWord "a;".toList [] "a;".toList [] :=
    ⟨rfl, by simp, by decide, Text.solid_of_all (by decide), by simp⟩
  have hlines : Text.lines (Intermediate.code request.source).toList = ["a;".toList] := by
    decide +kernel
  have hrejection : Lowering.rejection? request.fileName
      (Text.lines (Intermediate.code request.source).toList) = none := by
    rw [hlines]
    apply Lowering.rejection?_eq_none
    rw [List.forall_mem_singleton, Lowering.firstWord?, hfirst.words]
    decide
  have haccepted := fun mode =>
    exists_transform .raw ⟨[]⟩ mode htyped hsize (by decide +kernel) hrejection
  obtain ⟨a, ha⟩ := haccepted .treeLocations
  obtain ⟨b, hb⟩ := haccepted .standaloneMap
  obtain ⟨hagree, hrelocated, -⟩ :=
    transform_modes Intermediate.eraser (Lowering.transformer .raw) ⟨[]⟩ request
  obtain ⟨-, own, -, hown, ⟨hmap, -⟩, htree, -⟩ := hrelocated htyped a b ha hb
  change Agree _ ((erasing .raw ⟨[]⟩ .treeLocations).transform request)
    ((erasing .raw ⟨[]⟩ .standaloneMap).transform request) at hagree
  rw [ha, hb] at hagree
  exact ⟨htyped, a, b, own, ha, hb, hown, hagree.1, hmap, htree⟩

end Pipeline

end Provenance
