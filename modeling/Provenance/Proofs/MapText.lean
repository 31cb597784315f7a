import Mathlib.Data.List.Nodup
import Provenance.Mapping.Document
import Provenance.Proofs.JsonText
import Provenance.Proofs.Nearest
import Provenance.Proofs.SegmentText

/-!
# Structured maps are read as they are written

The document of a map has the form of a map and is never an index of sections, so the text of a
map is read. Range flags are the only part of a segment that the reading here says nothing about.
-/

namespace Provenance

/-! ### Values and fields -/

namespace Json

lemma Fields.get?_append (key : String) (fs gs : Fields) :
    get? key (fs ++ gs) = (get? key fs).or (get? key gs) := by
  induction fs with
  | nil => rfl
  | cons f fs ih =>
    rw [List.cons_append, get?_cons, get?_cons, ih]
    split_ifs <;> rfl

lemma arePlain_iff {vs : List Json} : arePlain vs ↔ ∀ v ∈ vs, v.isPlain := by
  induction vs with
  | nil => simp [arePlain]
  | cons v vs ih => simp [arePlain, ih]

lemma arePlainFields_iff {fs : Fields} : arePlainFields fs ↔ ∀ f ∈ fs, f.2.isPlain := by
  induction fs with
  | nil => simp [arePlainFields]
  | cons f fs ih => simp [arePlainFields, ih]

lemma itemsNesting_le {vs : List Json} {n : Nat} (h : ∀ v ∈ vs, v.written.nesting ≤ n) :
    Written.itemsNesting (writtenItems vs) ≤ n := by
  induction vs with
  | nil => exact Nat.zero_le n
  | cons v vs ih =>
    obtain ⟨hv, hvs⟩ := List.forall_mem_cons.1 h
    exact max_le hv (ih hvs)

lemma fieldsNesting_le {fs : Fields} {n : Nat} (h : ∀ f ∈ fs, f.2.written.nesting ≤ n) :
    Written.fieldsNesting (writtenFields fs) ≤ n := by
  induction fs with
  | nil => exact Nat.zero_le n
  | cons f fs ih =>
    obtain ⟨hf, hfs⟩ := List.forall_mem_cons.1 h
    exact max_le hf (ih hfs)

/-- A value that is plain, of which a container holds no other containers. -/
def IsFlat (v : Json) : Prop := v.isPlain ∧ v.written.nesting ≤ 1

lemma isFlat_string (s : String) : IsFlat (.string s) := ⟨rfl, Nat.zero_le 1⟩

lemma isFlat_array {vs : List Json} (h : ∀ v ∈ vs, v.isPlain ∧ v.written.nesting = 0) :
    IsFlat (.array vs) :=
  ⟨arePlain_iff.2 fun v hv => (h v hv).1,
    Nat.succ_le_succ (itemsNesting_le fun v hv => (h v hv).2.le)⟩

lemma isPlain_word (w : UInt32) : (word w).isPlain := by
  have := w.toNat_lt
  simp only [word, isPlain, Bool.and_eq_true, decide_eq_true_eq, UInt64.size]
  omega

/-- A field that may be absent. -/
def optionalField (name : String) : Option Json → Fields
  | some v => [(name, v)]
  | none => []

@[simp] lemma mem_optionalField {name : String} {value : Option Json} {f : String × Json} :
    f ∈ optionalField name value ↔ f.1 = name ∧ value = some f.2 := by
  cases value <;> simp [optionalField, Prod.ext_iff, eq_comm]

@[simp] lemma get?_optionalField (key name : String) (value : Option Json) :
    Fields.get? key (optionalField name value) = if key = name then value else none := by
  cases value <;> simp [optionalField, Fields.get?]

lemma sublist_optionalField (name : String) (value : Option Json) :
    ((optionalField name value).map Prod.fst).Sublist [name] := by
  cases value <;> simp [optionalField]

end Json

namespace SourceMap

open Json (optionalField)

variable {map : SourceMap}

/-! ### What is passed over -/

mutual
lemma keep_whole : ∀ w, Part.keep .whole w = w
  | .null => rfl
  | .bool _ => rfl
  | .number _ => rfl
  | .string _ => rfl
  | .array items => by simp [Part.keep, keepItems_whole 0 items]
  | .object fields => by simp [Part.keep, keepFields_whole fields]

lemma keepItems_whole : ∀ place ws, Part.keepItems .whole place ws = ws
  | _, [] => rfl
  | place, w :: ws => by
    rw [Part.keepItems, show Part.item place .whole = .whole from rfl, keep_whole w,
      keepItems_whole (place + 1) ws]

lemma keepFields_whole : ∀ fs, Part.keepFields .whole fs = fs
  | [] => rfl
  | (key, w) :: fs => by
    cases h : Json.Written.text? key <;>
      simp only [Part.keepFields, h, Part.field, keep_whole w, keepFields_whole fs]
end

/-- Nothing is passed over in a map without sections and scopes. -/
lemma keepFields_map {fs : Json.Fields}
    (h : ∀ f ∈ fs, f.1 ≠ "sections" ∧ f.1 ≠ "x_facebook_sources") :
    Part.keepFields .map (Json.writtenFields fs) = Json.writtenFields fs := by
  induction fs with
  | nil => rfl
  | cons f fs ih =>
    obtain ⟨⟨hsections, hscopes⟩, hfs⟩ := List.forall_mem_cons.1 h
    simp only [Json.writtenFields, Part.keepFields, Json.text?_pieces, Part.field,
      if_neg hsections, if_neg hscopes, keep_whole, ih hfs]

/-! ### The fields of a map -/

lemma toFields_eq (map : SourceMap) : map.toFields =
    optionalField "debugId" (map.debugId.map fun d => .string d.text) ++
    optionalField "file" (map.file.map .string) ++
    optionalField "ignoreList"
      (if map.ignored.isEmpty then none else some (.array (map.ignored.map .word))) ++
    [("mappings", .string (.ofList (Segments.write map.segments))),
      ("names", .array (map.names.map .string))] ++
    optionalField "rangeMappings"
      ((Segments.writeRanges? map.segments).map fun cs => .string (.ofList cs)) ++
    optionalField "sourceRoot" (map.sourceRoot.map .string) ++
    [("sources", .array (map.sources.map .string))] ++
    optionalField "sourcesContent"
      (if map.sourceContents.any Option.isSome then
        some (.array (map.sourceContents.map fun c => .ofOption (c.map .string)))
      else none) ++
    [("version", .int 3)] := rfl

/-- The names of all fields that the document of a map can have. -/
def fieldNames : List String :=
  ["debugId", "file", "ignoreList", "mappings", "names", "rangeMappings", "sourceRoot", "sources",
    "sourcesContent", "version"]

lemma sublist_fieldNames (map : SourceMap) : (map.toFields.map Prod.fst).Sublist fieldNames := by
  have h := Json.sublist_optionalField
  simp only [toFields_eq, List.map_append]
  exact ((((((((h _ _).append (h _ _)).append (h _ _)).append (.refl _)).append (h _ _)).append
    (h _ _)).append (.refl _)).append (h _ _)).append (.refl _)

lemma mem_fieldNames {f : String × Json} (h : f ∈ map.toFields) : f.1 ∈ fieldNames :=
  (sublist_fieldNames map).subset (List.mem_map_of_mem h)

/-- No field stands twice. -/
lemma once_toFields (map : SourceMap) : Field.once map.toFields := by
  have hnodup : (map.toFields.map Prod.fst).Nodup := (sublist_fieldNames map).nodup (by decide)
  refine List.all_eq_true.2 fun name _ => decide_eq_true ?_
  have hcount := List.nodup_iff_count_le_one.1 hnodup name
  rw [List.count_eq_countP, List.countP_map, List.countP_eq_length_filter] at hcount
  simpa [Function.comp_def, beq_eq_decide] using hcount

/-- A field that holds what belongs there. -/
def IsProper (f : String × Json) : Prop :=
  f.2 ≠ .null ∧ f.2.IsFlat ∧ Field.areMapFields [f]

/-- A value that fits the plain type of its field belongs there. -/
lemma IsProper.of_plain {name : String} {v : Json} (ok : Json → Bool)
    (hlookup : Field.plain.lookup name = some ok) (hname : name ≠ "sections") (hnull : v ≠ .null)
    (hflat : v.IsFlat) (hok : ok v) : IsProper (name, v) := by
  refine ⟨hnull, hflat, ?_⟩
  have hor : Field.nullOr ok v := by
    cases v <;> first | rfl | exact hok
  simp [Field.areMapFields, hname, hlookup, hor]

lemma IsProper.string {name text : String} (ok : Json → Bool)
    (hlookup : Field.plain.lookup name = some ok) (hname : name ≠ "sections")
    (hok : ok (.string text)) : IsProper (name, .string text) :=
  .of_plain ok hlookup hname nofun (Json.isFlat_string text) hok

/-- An array belongs to a field of a list type if its values are of the type and contain nothing. -/
lemma IsProper.array {name : String} {vs : List Json} (ok : Json → Bool)
    (hlookup : Field.plain.lookup name = some (Field.listOf ok)) (hname : name ≠ "sections")
    (h : ∀ v ∈ vs, (v.isPlain ∧ v.written.nesting = 0) ∧ ok v) : IsProper (name, .array vs) :=
  .of_plain (Field.listOf ok) hlookup hname nofun (Json.isFlat_array fun v hv => (h v hv).1)
    (List.all_eq_true.2 fun v hv => (h v hv).2)

/-- A field of a map's document holds what belongs there, if the debug identifier is read back. -/
lemma isProper_of_mem_toFields
    (hdebug : ∀ d, map.debugId = some d → DebugId.ofText? d.text = some d)
    {f : String × Json} (h : f ∈ map.toFields) : IsProper f := by
  obtain ⟨name, v⟩ := f
  simp only [toFields_eq, List.mem_append, Json.mem_optionalField, List.mem_cons, List.not_mem_nil,
    or_false, Prod.mk.injEq] at h
  rcases h with (((((((⟨rfl, h⟩ | ⟨rfl, h⟩) | ⟨rfl, h⟩) | ⟨rfl, rfl⟩ | ⟨rfl, rfl⟩) | ⟨rfl, h⟩) |
    ⟨rfl, h⟩) | ⟨rfl, rfl⟩) | ⟨rfl, h⟩) | ⟨rfl, rfl⟩
  · obtain ⟨d, hd, rfl⟩ := Option.map_eq_some_iff.1 h
    exact .string Field.isDebugId rfl (by decide) (Option.isSome_of_eq_some (hdebug d hd))
  · obtain ⟨file, -, rfl⟩ := Option.map_eq_some_iff.1 h
    exact .string (fun _ => true) rfl (by decide) rfl
  · obtain ⟨-, h⟩ := Option.ite_none_left_eq_some.1 h
    obtain rfl := Option.some.inj h
    refine .array Field.isWord rfl (by decide) (List.forall_mem_map.2 fun w _ => ?_)
    exact ⟨⟨Json.isPlain_word w, rfl⟩, by simp [Field.isWord]⟩
  · exact .string Field.isString rfl (by decide) rfl
  · exact .array (fun _ => true) rfl (by decide)
      (List.forall_mem_map.2 fun _ _ => ⟨⟨rfl, rfl⟩, rfl⟩)
  · obtain ⟨ranges, -, rfl⟩ := Option.map_eq_some_iff.1 h
    exact .string Field.isString rfl (by decide) rfl
  · obtain ⟨root, -, rfl⟩ := Option.map_eq_some_iff.1 h
    exact .string Field.isString rfl (by decide) rfl
  · exact .array (Field.nullOr Field.isString) rfl (by decide)
      (List.forall_mem_map.2 fun _ _ => ⟨⟨rfl, rfl⟩, rfl⟩)
  · obtain ⟨-, h⟩ := Option.ite_none_right_eq_some.1 h
    obtain rfl := Option.some.inj h
    refine .array (Field.nullOr Field.isString) rfl (by decide) (List.forall_mem_map.2 ?_)
    rintro (_ | content) - <;> exact ⟨⟨rfl, rfl⟩, rfl⟩
  · exact .of_plain Field.isWord rfl (by decide) nofun ⟨rfl, Nat.zero_le 1⟩ rfl

lemma areMapFields_of_forall {fs : Json.Fields} (h : ∀ f ∈ fs, Field.areMapFields [f]) :
    Field.areMapFields fs := by
  induction fs with
  | nil => rfl
  | cons f fs ih =>
    obtain ⟨hf, hfs⟩ := List.forall_mem_cons.1 h
    obtain ⟨name, v⟩ := f
    simpa [Field.areMapFields, ih hfs] using hf

/-! ### Reading the document -/

lemma toFields_eq_append (map : SourceMap) : map.toFields =
    optionalField "debugId" (map.debugId.map fun d => .string d.text) ++
      toFields { map with debugId := none } := by
  rw [toFields_eq, toFields_eq]
  simp only [List.append_assoc]
  rfl

/-- Whatever the debug identifier is, no field holds more than a list of simple values. -/
lemma isFlat_of_mem_toFields {f : String × Json} (h : f ∈ map.toFields) : f.2.IsFlat := by
  rw [toFields_eq_append, List.mem_append, Json.mem_optionalField] at h
  rcases h with ⟨-, h⟩ | h
  · obtain ⟨d, -, hd⟩ := Option.map_eq_some_iff.1 h
    rw [← hd]
    exact Json.isFlat_string _
  · exact (isProper_of_mem_toFields (fun d hd => by cases hd) h).2.1

/-- The text of a map is read as its document, and no part of that is passed over. -/
lemma parse_text (map : SourceMap) :
    (Json.Written.ofText? map.text).bind (fun w => (Part.map.keep w).toJson?) =
      some map.toJson := by
  have hplain : map.toJson.isPlain :=
    Json.arePlainFields_iff.2 fun f hf => (isFlat_of_mem_toFields hf).1
  have hkeep : Part.map.keep map.toJson.written = map.toJson.written := by
    have hfields : ∀ f ∈ map.toFields, f.1 ≠ "sections" ∧ f.1 ≠ "x_facebook_sources" := by
      intro f hf
      have hname := mem_fieldNames hf
      constructor <;> rintro heq <;> rw [heq] at hname <;> exact absurd hname (by decide)
    rw [toJson, Json.written, Part.keep, if_neg (by decide), keepFields_map hfields]
  have hnesting : map.toJson.written.nesting ≤ Json.Written.maxNesting :=
    (Nat.succ_le_succ (Json.fieldsNesting_le fun f hf => (isFlat_of_mem_toFields hf).2)).trans
      (by decide)
  rw [text, Json.ofText?_text hplain, Option.bind_some, hkeep, Json.Written.toJson?,
    if_pos hnesting, Json.value?_written _ hplain]

/-- The document of a map has the form of a map, if the debug identifier is read back. -/
lemma isMap_toJson (hdebug : ∀ d, map.debugId = some d → DebugId.ofText? d.text = some d) :
    Field.isMap map.toJson := by
  rw [toJson, Field.isMap, once_toFields,
    areMapFields_of_forall fun f hf => (isProper_of_mem_toFields hdebug hf).2.2]
  rfl

/-- What is needed to read a map back: its segments are in order and told apart, they refer to the
sources and the names of the map, and its flags and its debug identifier can be read. -/
structure Legible (map : SourceMap) : Prop where
  ordered : map.segments.IsChain Segments.Ordered
  fits : ∀ s ∈ map.segments, Segments.Fits map.sources.length map.names.length s
  ranges : Segments.Legible (Text.split ';' ((Segments.writeRanges? map.segments).getD []))
  debugId : ∀ d, map.debugId = some d → DebugId.ofText? d.text = some d

/-- Nothing that a map's document holds is null. -/
lemma present?_toFields (hdebug : ∀ d, map.debugId = some d → DebugId.ofText? d.text = some d)
    (name : String) : present? name map.toFields = Json.Fields.get? name map.toFields := by
  rw [present?]
  split
  · next h => exact absurd rfl (isProper_of_mem_toFields hdebug (Json.Fields.mem_of_get? h)).1
  · rfl

lemma present?_eq_none (hdebug : ∀ d, map.debugId = some d → DebugId.ofText? d.text = some d)
    {name : String} (h : name ∉ fieldNames) : present? name map.toFields = none := by
  rw [present?_toFields hdebug, Option.eq_none_iff_forall_ne_some]
  exact fun v hv => h (mem_fieldNames (Json.Fields.mem_of_get? hv))

lemma texts_strings (ts : List String) : texts (.array (ts.map .string)) = ts.map some := by
  simp [texts, Json.items?, Function.comp_def, Json.string?]

lemma texts_optional (ts : List (Option String)) :
    texts (.array (ts.map fun t => .ofOption (t.map .string))) = ts := by
  have h : ∀ t : Option String, (Json.ofOption (t.map .string)).string? = t := by
    rintro (_ | t) <;> rfl
  simp [texts, Json.items?, Function.comp_def, h]

lemma filterMap_word? (ws : List UInt32) : (ws.map Json.word).filterMap Json.word? = ws := by
  simp [List.filterMap_map]

/-- Segments that are in order stay so when their flags change. -/
lemma arrange_of_ordered {segments segments' : List Segment}
    (hordered : segments.IsChain Segments.Ordered)
    (h : segments'.map Segments.unflagged = segments.map Segments.unflagged) :
    Segment.arrange segments' = segments' := by
  have hprecedes : segments.Pairwise fun a b => a.precedes b := by
    have : Trans (fun a b : Segment => (a.precedes b : Prop))
        (fun a b => (a.precedes b : Prop)) fun a b => (a.precedes b : Prop) :=
      ⟨fun hab hbc => Segment.precedes_trans _ _ _ hab hbc⟩
    exact List.isChain_iff_pairwise.1 (hordered.imp fun a b hab => decide_eq_true hab.1)
  have hpoints : segments'.map Segment.generated = segments.map Segment.generated := by
    have h := congrArg (List.map Segment.generated) h
    rwa [List.map_map, List.map_map] at h
  refine Segment.arrange_of_pairwise ?_
  have hpairwise := List.pairwise_map.2 (hprecedes.imp fun {a b} h => of_decide_eq_true h)
  rw [← hpoints] at hpairwise
  exact (List.pairwise_map.1 hpairwise).imp fun h => decide_eq_true h

/-- The fields of a map are read as they are written, apart from the flags of segments. -/
lemma ofFields_toFields (h : map.Legible) :
    ∃ segments, segments.map Segments.unflagged = map.segments.map Segments.unflagged ∧
      ofFields map.toFields = .ok { map with
        segments := segments
        contents := if map.sourceContents.any Option.isSome then map.sourceContents else []
        ignored := distinctSorted map.ignored } := by
  have hget : ∀ name, Json.Fields.get? name map.toFields = _ := fun name =>
    congrArg (Json.Fields.get? name) (toFields_eq map)
  simp only [Json.Fields.get?_append, Json.get?_optionalField, Json.Fields.get?_cons,
    Json.Fields.get?_nil] at hget
  obtain ⟨segments, hread, heq⟩ :=
    Segments.read_write (.ofList ((Segments.writeRanges? map.segments).getD [])) h.ordered h.fits
      (by simpa using h.ranges)
  refine ⟨segments, heq, ?_⟩
  have hranges : ((((Segments.writeRanges? map.segments).map fun cs =>
      Json.string (.ofList cs)).bind Json.string?).getD "") =
        .ofList ((Segments.writeRanges? map.segments).getD []) := by
    cases Segments.writeRanges? map.segments <;> rfl
  have hstring : ∀ v : Option String, (v.map Json.string).bind Json.string? = v := by
    rintro (_ | v) <;> rfl
  have hignored : (((if map.ignored = [] then none else
      some (Json.array (map.ignored.map Json.word))).bind Json.items?).getD []).filterMap
        Json.word? = map.ignored := by
    split_ifs with hnil
    · simp [hnil]
    · exact filterMap_word? map.ignored
  have hid : ((map.debugId.map fun d => Json.string d.text).bind Json.string?).bind
      DebugId.ofText? = map.debugId := by
    cases hd : map.debugId with
    | none => rfl
    | some d => exact h.debugId d hd
  simp [ofFields, present?_toFields h.debugId, hget, texts_strings, texts_optional, nameText,
    Json.items?, Json.string?, Function.comp_def, hstring, hranges, hread, hignored, hid,
    arrange_of_ordered h.ordered heq]
  split_ifs <;> rfl

/-- What is read from the text of a map is what its document stands for. -/
lemma ofText_eq (map : SourceMap) : ofText map.text = ofDocument map.toJson := by
  have hheader : withoutHeader map.text.toList = .ok map.text.toList := by
    rw [text, Json.text, String.toList_ofList]
    rfl
  rw [ofText, hheader]
  simp only [bind, Except.bind, String.ofList_toList]
  rw [show (Json.Written.ofText? map.text).bind (fun w => (Part.map.keep w).toJson?) = _ from
    parse_text map]

/-- A map is read from its text as it was written, apart from the flags of its segments. -/
theorem ofText_text (h : map.Legible) :
    ∃ segments, segments.map Segments.unflagged = map.segments.map Segments.unflagged ∧
      ofText map.text = .ok { map with
        segments := segments
        contents := if map.sourceContents.any Option.isSome then map.sourceContents else []
        ignored := distinctSorted map.ignored } := by
  obtain ⟨segments, heq, hfields⟩ := ofFields_toFields h
  have hform := isMap_toJson h.debugId
  refine ⟨segments, heq, ?_⟩
  have hsections : "sections" ∉ fieldNames := by decide
  have hscopes : "x_facebook_sources" ∉ fieldNames := by decide
  have hdocument : ofDocument map.toJson = ofFields map.toFields := by
    rw [toJson] at hform ⊢
    simp [ofDocument, hform, present?_eq_none h.debugId hsections,
      present?_eq_none h.debugId hscopes]
  exact (ofText_eq map).trans (hdocument.trans hfields)

end SourceMap

/-- Lookups do not depend on the flags of segments. -/
lemma OriginIndex.ofSourceMap_congr {a b : SourceMap}
    (h : a.segments.map Segments.unflagged = b.segments.map Segments.unflagged) :
    ofSourceMap a = ofSourceMap b := by
  have h := congrArg (List.map fun s : Segment =>
    (⟨.ofPoint s.generated, s.position?⟩ : OriginEntry)) h
  rw [List.map_map, List.map_map] at h
  exact congrArg ofEntries h

end Provenance
