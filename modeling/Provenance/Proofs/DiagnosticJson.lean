import Mathlib.Data.List.Forall2
import Provenance.Diagnostic.Codec
import Provenance.Proofs.RawTuples

/-!
# Diagnostics in JSON

A diagnostic can be written in several ways: a record as an object or as the array of its fields, a
severity as its name or as the only key of an object, and what is absent as null or not at all.
`Tells` says what a value means in any of them, apart from the decoder, and no value has two
meanings. A list of diagnostics that is decoded is the one that the value tells, down to the last
explanation of each message, and it is read back from the one form in which it is written.
-/

namespace Provenance

/-! ### Parts of a record -/

/-- A field of a record, by its name in an object and by its place in an array. -/
def Json.field? (name : String) (place : Nat) : Json → Option Json
  | .object fields => Fields.get? name fields
  | .array items => items[place]?
  | _ => none

lemma Json.word_injective : Function.Injective word := by
  intro m n h
  have hword : some m = some n := by rw [← word?_word m, h, word?_word]
  exact Option.some.inj hword

/-- What a field tells that may be left out: nothing if it is absent or null. -/
inductive TellsOption {α : Type} (Tells : Json → α → Prop) : Option Json → Option α → Prop where
  | absent : TellsOption Tells none none
  | null : TellsOption Tells (some .null) none
  | value {v : Json} {a : α} (h : Tells v a) : TellsOption Tells (some v) (some a)

/-- An array tells a list if its elements tell the elements of the list, in their order. -/
def TellsList {α : Type} (Tells : Json → α → Prop) (v : Json) (as : List α) : Prop :=
  ∃ items, v = .array items ∧ List.Forall₂ Tells items as

lemma TellsOption.unique {α : Type} {Tells : Json → α → Prop} (h : Relator.RightUnique Tells)
    (hnull : ∀ a, ¬ Tells .null a) : Relator.RightUnique (TellsOption Tells) := by
  intro field a b ha hb
  cases ha with
  | absent =>
    cases hb
    rfl
  | null =>
    cases hb with
    | null => rfl
    | value hb => exact absurd hb (hnull _)
  | value ha =>
    cases hb with
    | null => exact absurd ha (hnull _)
    | value hb => exact congrArg some (h ha hb)

lemma TellsList.unique {α : Type} {Tells : Json → α → Prop} (h : Relator.RightUnique Tells) :
    Relator.RightUnique (TellsList Tells) := by
  rintro v as bs ⟨items, rfl, has⟩ ⟨_, hitems, hbs⟩
  obtain rfl := Json.array.inj hitems
  exact h.forall₂ has hbs

namespace Decode

variable {α : Type} {decode : Json → Except DecodeError α} {Tells : Json → α → Prop}
  {name : String} {fields : Json.Fields} {v : Json} {a : α}

lemma string_eq_ok_iff {s : String} : string v = .ok s ↔ v = .string s := by
  cases v <;> simp [string]

lemma exists_of_required (h : required name decode fields = .ok a) :
    ∃ v, Json.Fields.get? name fields = some v ∧ decode v = .ok a := by
  unfold required at h
  split at h
  · next v hv => exact ⟨v, hv, h⟩
  · cases h

/-- What is absent is read as null is. -/
lemma tellsOption_of_nullable (hdecode : ∀ v a, decode v = .ok a → Tells v a)
    {field : Option Json} {a : Option α} (h : nullable decode (field.getD .null) = .ok a) :
    TellsOption Tells field a := by
  cases field with
  | none =>
    obtain rfl := Except.ok.inj h
    exact .absent
  | some v =>
    rw [Option.getD_some] at h
    unfold nullable at h
    split at h
    · obtain rfl := Except.ok.inj h
      exact .null
    · obtain ⟨a, ha, rfl⟩ := exists_of_map_eq_ok h
      exact .value (hdecode _ a ha)

lemma tellsOption_of_optional (hdecode : ∀ v a, decode v = .ok a → Tells v a) {a : Option α}
    (h : optional name decode fields = .ok a) :
    TellsOption Tells (Json.Fields.get? name fields) a := by
  apply tellsOption_of_nullable hdecode
  unfold optional at h
  split at h
  · next v hv => rwa [hv]
  · next hnone => rwa [hnone]

lemma tellsList_of_list (hdecode : ∀ v a, decode v = .ok a → Tells v a) {as : List α}
    (h : list decode v = .ok as) : TellsList Tells v as := by
  cases v with
  | array items => exact ⟨items, rfl, (mapM_eq_ok_iff.mp h).imp hdecode⟩
  | _ => cases h

/-! ### What is written is read -/

variable {toJson : α → Json}

lemma check_of_eq_ok (h : decode v = .ok a) : check decode v = .ok () := by
  rw [check, h]
  rfl

/-- A value that is written as anything but null can be left out. -/
lemma nullable_ofOption (hread : ∀ a, decode (toJson a) = .ok a) (hnull : ∀ a, toJson a ≠ .null)
    (a : Option α) : nullable decode (.ofOption (a.map toJson)) = .ok a := by
  cases a with
  | none => rfl
  | some a =>
    change nullable decode (toJson a) = .ok (some a)
    unfold nullable
    split
    · next hv => exact absurd hv (hnull a)
    · rw [hread]
      rfl

lemma list_map (hread : ∀ a, decode (toJson a) = .ok a) (as : List α) :
    list decode (.array (as.map toJson)) = .ok as := by
  rw [list, mapM_eq_ok_iff, List.forall₂_map_left_iff, List.forall₂_same]
  exact fun a _ => hread a

end Decode

/-! ### Severities -/

namespace Severity

variable {v : Json} {s : Severity}

/-- A severity is told by its name, or by an object with the name as its key and null. -/
inductive Tells : Json → Severity → Prop where
  | name (s : Severity) : Tells (.string s.name) s
  | key (s : Severity) : Tells (.object [(s.name, .null)]) s

lemma name_injective : Function.Injective name := by
  intro s s' h
  cases s <;> cases s' <;> first | rfl | exact absurd h (by decide)

lemma Tells.unique : Relator.RightUnique Tells := by
  intro v s s' h h'
  cases h with
  | name =>
    generalize hv : Json.string s.name = v at h'
    cases h' with
    | name => exact name_injective (Json.string.inj hv)
    | key => cases hv
  | key =>
    generalize hv : Json.object [(s.name, .null)] = v at h'
    cases h' with
    | name => cases hv
    | key => exact name_injective (by simpa using hv)

lemma ofName?_eq_some_iff {name : String} : ofName? name = some s ↔ s.name = name := by
  constructor
  · intro h
    simpa using List.find?_some h
  · rintro rfl
    cases s <;> decide

lemma decodeName_eq_ok_iff {name : String} : decodeName name = .ok s ↔ s.name = name := by
  rw [← ofName?_eq_some_iff, decodeName]
  cases ofName? name <;> simp

/-- A severity is read from the values that tell it, and from nothing else. -/
lemma ofJson_eq_ok_iff : ofJson v = .ok s ↔ Tells v s := by
  constructor
  · intro h
    match v, h with
    | .string name, h =>
      obtain rfl := decodeName_eq_ok_iff.mp h
      exact .name s
    | .object [(name, content)], h =>
      obtain ⟨s', hs', hcontent⟩ := exists_of_bind_eq_ok h
      obtain rfl := decodeName_eq_ok_iff.mp hs'
      cases content with
      | null =>
        obtain rfl := Except.ok.inj hcontent
        exact .key s'
      | _ => cases hcontent
  · intro h
    cases h with
    | name => exact decodeName_eq_ok_iff.mpr rfl
    | key =>
      rw [ofJson, decodeName_eq_ok_iff.mpr rfl]
      rfl

end Severity

/-! ### Message chains -/

namespace MessageChain

/-- The chain that a value tells: its text, and what explains it, if anything does. -/
inductive Tells : Json → MessageChain → Prop where
  | alone {v : Json} {text : String} (htext : v.field? "text" 0 = some (.string text))
      (hnext : v.field? "next" 1 = none) : Tells v ⟨text, []⟩
  | explained {v : Json} {text : String} {items : List Json} {next : List MessageChain}
      (htext : v.field? "text" 0 = some (.string text))
      (hnext : v.field? "next" 1 = some (.array items)) (hitems : List.Forall₂ Tells items next) :
      Tells v ⟨text, next⟩

mutual
lemma Tells.unique {v : Json} (m m' : MessageChain) (h : Tells v m) (h' : Tells v m') :
    m = m' := by
  match m, m', h, h' with
  | ⟨text, next⟩, ⟨text', next'⟩, h, h' =>
    have htext : text = text' := by
      cases h <;> cases h' <;> simp_all
    cases h with
    | alone _ hnext =>
      cases h' with
      | alone => rw [htext]
      | explained _ hnext' => cases hnext.symm.trans hnext'
    | @explained _ _ items _ _ hnext hitems =>
      cases h' with
      | alone _ hnext' => cases hnext.symm.trans hnext'
      | explained _ hnext' hitems' =>
        obtain rfl := Json.array.inj (Option.some.inj (hnext.symm.trans hnext'))
        rw [htext, forall₂_unique next next' hitems hitems']

lemma forall₂_unique {items : List Json} (ms ms' : List MessageChain)
    (h : List.Forall₂ Tells items ms) (h' : List.Forall₂ Tells items ms') : ms = ms' := by
  match ms, ms' with
  | [], ms' =>
    cases h
    cases h'
    rfl
  | m :: ms, [] =>
    cases h
    cases h'
  | m :: ms, m' :: ms' =>
    obtain _ | ⟨hm, hms⟩ := h
    obtain _ | ⟨hm', hms'⟩ := h'
    rw [Tells.unique m m' hm hm', forall₂_unique ms ms' hms hms']
end

/-- The explanations that a field tells are none if it is absent. -/
lemma Tells.of_fields {v : Json} {text : String} {next : Option (List MessageChain)}
    (htext : v.field? "text" 0 = some (.string text))
    (hnext : Option.Rel (TellsList Tells) (v.field? "next" 1) next) :
    Tells v ⟨text, next.getD []⟩ := by
  generalize hfield : v.field? "next" 1 = field at hnext
  cases hnext with
  | none => exact .alone htext hfield
  | some hlist =>
    obtain ⟨items, rfl, hitems⟩ := hlist
    exact .explained htext hfield hitems

mutual
/-- What is decoded is what the value tells, on every level of the chain. -/
lemma tells_of_ofJson (v : Json) {m : MessageChain} (h : ofJson v = .ok m) : Tells v m := by
  match v with
  | .object fields =>
    rw [ofJson] at h
    obtain ⟨⟨text, next⟩, hfields, hrest⟩ := exists_of_bind_eq_ok h
    obtain ⟨htext, hnext⟩ := tells_of_ofFields fields hfields
    cases text with
    | none => cases hrest
    | some text =>
      obtain rfl := Except.ok.inj hrest
      exact .of_fields htext hnext
  | .array [text] =>
    rw [ofJson] at h
    obtain ⟨text', htext, hrest⟩ := exists_of_bind_eq_ok h
    obtain rfl := Decode.string_eq_ok_iff.mp htext
    obtain rfl := Except.ok.inj hrest
    exact .alone rfl rfl
  | .array [text, next] =>
    rw [ofJson] at h
    obtain ⟨text', htext, hrest⟩ := exists_of_bind_eq_ok h
    obtain ⟨ms, hnext, hms⟩ := exists_of_bind_eq_ok hrest
    obtain rfl := Decode.string_eq_ok_iff.mp htext
    obtain rfl := Except.ok.inj hms
    exact .of_fields (v := .array [.string text', next]) rfl
      (Option.Rel.some (tells_of_ofList next hnext))
  | .array (text :: next :: v :: vs) =>
    rw [ofJson] at h
    obtain ⟨_, _, hrest⟩ := exists_of_bind_eq_ok h
    obtain ⟨_, _, hlong⟩ := exists_of_bind_eq_ok hrest
    cases hlong
  | .array [] => cases h
  | .null | .bool _ | .int _ | .float _ | .string _ => cases h

/-- The first field of a name is the one that counts. -/
lemma tells_of_ofFields (fields : Json.Fields) {text : Option String}
    {next : Option (List MessageChain)} (h : ofFields fields = .ok (text, next)) :
    Json.Fields.get? "text" fields = text.map .string ∧
      Option.Rel (TellsList Tells) (Json.Fields.get? "next" fields) next := by
  match fields with
  | [] =>
    rw [ofFields] at h
    obtain ⟨rfl, rfl⟩ := Prod.mk.inj (Except.ok.inj h)
    exact ⟨rfl, .none⟩
  | (key, value) :: rest =>
    rw [ofFields] at h
    rw [Json.Fields.get?_cons, Json.Fields.get?_cons]
    split_ifs at h with htext hnext
    · subst htext
      obtain ⟨text', hvalue, hbind⟩ := exists_of_bind_eq_ok h
      obtain ⟨⟨text'', next'⟩, hrest, heq⟩ := exists_of_bind_eq_ok hbind
      obtain ⟨rfl, rfl⟩ := Prod.mk.inj (Except.ok.inj heq)
      obtain rfl := Decode.string_eq_ok_iff.mp hvalue
      exact ⟨rfl, (tells_of_ofFields rest hrest).2⟩
    · subst hnext
      obtain ⟨ms, hvalue, hbind⟩ := exists_of_bind_eq_ok h
      obtain ⟨⟨text', next'⟩, hrest, heq⟩ := exists_of_bind_eq_ok hbind
      obtain ⟨rfl, rfl⟩ := Prod.mk.inj (Except.ok.inj heq)
      exact ⟨(tells_of_ofFields rest hrest).1, .some (tells_of_ofList value hvalue)⟩
    · rw [if_neg (Ne.symm htext), if_neg (Ne.symm hnext)]
      exact tells_of_ofFields rest h

lemma tells_of_ofList (v : Json) {ms : List MessageChain} (h : ofList v = .ok ms) :
    TellsList Tells v ms := by
  match v with
  | .array items =>
    rw [ofList] at h
    exact ⟨items, rfl, tells_of_ofItems items h⟩
  | .null | .bool _ | .int _ | .float _ | .string _ | .object _ => cases h

lemma tells_of_ofItems (items : List Json) {ms : List MessageChain} (h : ofItems items = .ok ms) :
    List.Forall₂ Tells items ms := by
  match items with
  | [] =>
    rw [ofItems] at h
    obtain rfl := Except.ok.inj h
    exact .nil
  | v :: vs =>
    rw [ofItems] at h
    obtain ⟨m, hm, hbind⟩ := exists_of_bind_eq_ok h
    obtain ⟨ms', hms, heq⟩ := exists_of_bind_eq_ok hbind
    obtain rfl := Except.ok.inj heq
    exact .cons (tells_of_ofJson v hm) (tells_of_ofItems vs hms)
end

mutual
/-- A chain is read back from what it is written as, whatever its depth. -/
lemma ofJson_toJson (m : MessageChain) : ofJson m.toJson = .ok m := by
  match m with
  | ⟨text, []⟩ =>
    simp [toJson, ofJson, ofFields, Decode.string, bind, Except.bind, pure, Except.pure]
  | ⟨text, m :: ms⟩ =>
    have hnext := ofItems_toJsonAll (m :: ms)
    simp [toJson, ofJson, ofFields, ofList, hnext, Decode.string, bind, Except.bind, pure,
      Except.pure]

lemma ofItems_toJsonAll (ms : List MessageChain) : ofItems (toJsonAll ms) = .ok ms := by
  match ms with
  | [] => rfl
  | m :: ms =>
    rw [toJsonAll, ofItems, ofJson_toJson m, ofItems_toJsonAll ms]
    rfl
end

end MessageChain

/-! ### Files -/

namespace SourceFile

/-- The file that a value tells, by its name and its text. -/
structure Tells (v : Json) (file : SourceFile) : Prop where
  name : v.field? "name" 0 = some (.string file.path)
  text : v.field? "text" 1 = some (.string file.text)

lemma Tells.unique : Relator.RightUnique Tells := by
  rintro v ⟨path, text⟩ ⟨path', text'⟩ ⟨hname, htext⟩ ⟨hname', htext'⟩
  simp_all

lemma tells_of_ofJson {v : Json} {file : SourceFile} (h : ofJson v = .ok file) : Tells v file := by
  match v, h with
  | .object fields, h =>
    obtain ⟨_, -, hfields⟩ := exists_of_bind_eq_ok h
    obtain ⟨name, hname, hrest⟩ := exists_of_bind_eq_ok hfields
    obtain ⟨text, htext, heq⟩ := exists_of_bind_eq_ok hrest
    obtain ⟨v, hv, hname⟩ := Decode.exists_of_required hname
    obtain ⟨w, hw, htext⟩ := Decode.exists_of_required htext
    obtain rfl := Decode.string_eq_ok_iff.mp hname
    obtain rfl := Decode.string_eq_ok_iff.mp htext
    obtain rfl := Except.ok.inj heq
    exact ⟨hv, hw⟩
  | .array [name], h =>
    obtain ⟨_, _, hrest⟩ := exists_of_bind_eq_ok h
    cases hrest
  | .array (name :: text :: extra), h =>
    obtain ⟨name', hname, hrest⟩ := exists_of_bind_eq_ok h
    obtain ⟨text', htext, heq⟩ := exists_of_bind_eq_ok hrest
    obtain rfl := Decode.string_eq_ok_iff.mp hname
    obtain rfl := Decode.string_eq_ok_iff.mp htext
    split_ifs at heq
    obtain rfl := Except.ok.inj heq
    exact ⟨rfl, rfl⟩

lemma ofJson_toJson (file : SourceFile) : ofJson file.toJson = .ok file := by
  simp [toJson, ofJson, Decode.inOrder, Decode.required, Decode.check, Decode.string,
    Json.Fields.get?, List.lookup_cons, bind, Except.bind, pure, Except.pure, Except.map]

end SourceFile

/-! ### Diagnostics -/

namespace Diagnostic

/-- The diagnostic that a value tells, part by part. -/
structure Tells (v : Json) (d : Diagnostic) : Prop where
  severity : ∃ w, v.field? "severity" 0 = some w ∧ Severity.Tells w d.severity
  message : ∃ w, v.field? "message" 1 = some w ∧ MessageChain.Tells w d.message
  file : TellsOption SourceFile.Tells (v.field? "file" 2) d.file
  start : TellsOption (fun w n => w = .word n) (v.field? "start" 3) d.start

lemma Tells.unique : Relator.RightUnique Tells := by
  rintro v ⟨severity, message, file, start⟩ ⟨severity', message', file', start'⟩ h h'
  obtain ⟨w, hw, hseverity⟩ := h.severity
  obtain ⟨w', hw', hseverity'⟩ := h'.severity
  obtain ⟨x, hx, hmessage⟩ := h.message
  obtain ⟨x', hx', hmessage'⟩ := h'.message
  obtain rfl := Option.some.inj (hw.symm.trans hw')
  obtain rfl := Option.some.inj (hx.symm.trans hx')
  rw [mk.injEq]
  refine ⟨Severity.Tells.unique hseverity hseverity',
    MessageChain.Tells.unique message message' hmessage hmessage', ?_, ?_⟩
  · exact TellsOption.unique SourceFile.Tells.unique (fun _ h => by cases h.name) h.file h'.file
  · exact TellsOption.unique (fun _ _ _ hm hn => Json.word_injective (hm.symm.trans hn))
      (fun _ => Json.noConfusion) h.start h'.start

lemma tells_of_ofJson {v : Json} {d : Diagnostic} (h : ofJson v = .ok d) : Tells v d := by
  match v, h with
  | .object fields, h =>
    obtain ⟨_, -, hfields⟩ := exists_of_bind_eq_ok h
    obtain ⟨severity, hseverity, h⟩ := exists_of_bind_eq_ok hfields
    obtain ⟨message, hmessage, h⟩ := exists_of_bind_eq_ok h
    obtain ⟨file, hfile, h⟩ := exists_of_bind_eq_ok h
    obtain ⟨start, hstart, heq⟩ := exists_of_bind_eq_ok h
    obtain ⟨v, hv, hseverity⟩ := Decode.exists_of_required hseverity
    obtain ⟨w, hw, hmessage⟩ := Decode.exists_of_required hmessage
    obtain rfl := Except.ok.inj heq
    exact ⟨⟨v, hv, Severity.ofJson_eq_ok_iff.mp hseverity⟩,
      ⟨w, hw, MessageChain.tells_of_ofJson w hmessage⟩,
      Decode.tellsOption_of_optional (fun _ _ => SourceFile.tells_of_ofJson) hfile,
      Decode.tellsOption_of_optional (fun _ _ => Decode.word_eq_ok_iff.mp) hstart⟩
  | .array [v], h =>
    obtain ⟨_, _, hrest⟩ := exists_of_bind_eq_ok h
    cases hrest
  | .array (v :: w :: rest), h =>
    obtain ⟨severity, hseverity, h⟩ := exists_of_bind_eq_ok h
    obtain ⟨message, hmessage, h⟩ := exists_of_bind_eq_ok h
    obtain ⟨file, hfile, h⟩ := exists_of_bind_eq_ok h
    obtain ⟨start, hstart, heq⟩ := exists_of_bind_eq_ok h
    split_ifs at heq
    obtain rfl := Except.ok.inj heq
    refine ⟨⟨v, rfl, Severity.ofJson_eq_ok_iff.mp hseverity⟩,
      ⟨w, rfl, MessageChain.tells_of_ofJson w hmessage⟩, ?_, ?_⟩
    · have htells := Decode.tellsOption_of_nullable
        (fun _ _ => SourceFile.tells_of_ofJson) hfile
      rwa [List.head?_eq_getElem?] at htells
    · have htells := Decode.tellsOption_of_nullable
        (fun _ _ => Decode.word_eq_ok_iff.mp) hstart
      rwa [List.head?_drop] at htells

lemma ofJson_toJson (d : Diagnostic) : ofJson d.toJson = .ok d := by
  have hseverity : Severity.ofJson d.severity.toJson = .ok d.severity :=
    Severity.ofJson_eq_ok_iff.mpr (.name d.severity)
  have hmessage : MessageChain.ofJson d.message.toJson = .ok d.message :=
    MessageChain.ofJson_toJson d.message
  have hfile := Decode.nullable_ofOption SourceFile.ofJson_toJson
    (fun file => Json.noConfusion) d.file
  have hword : ∀ n, Decode.word (.word n) = .ok n := fun n => Decode.word_eq_ok_iff.mpr rfl
  have hstart := Decode.nullable_ofOption hword (fun n => Json.noConfusion) d.start
  simp [toJson, ofJson, Decode.inOrder, List.lookup_cons, Decode.check_of_eq_ok hseverity,
    Decode.check_of_eq_ok hmessage, Decode.check_of_eq_ok hfile, Decode.check_of_eq_ok hstart,
    Decode.required, Decode.optional, Json.Fields.get?, hseverity, hmessage, hfile, hstart, bind,
    Except.bind, pure, Except.pure]

/-- Every list of diagnostics is read back from what it is written as. Whatever form a list is read
from, it is the one list that the value tells, with all that explains each message, and it is the
same when it is written and read again. -/
theorem json_round_trip :
    (∀ ds, listOfJson (.array (ds.map toJson)) = .ok ds) ∧
    ∀ v ds, listOfJson v = .ok ds →
      (∀ ds', TellsList Tells v ds' ↔ ds' = ds) ∧
      listOfJson (.array (ds.map toJson)) = .ok ds := by
  refine ⟨Decode.list_map ofJson_toJson, fun v ds h => ⟨fun ds' => ?_, ?_⟩⟩
  · have htells : TellsList Tells v ds := Decode.tellsList_of_list (fun _ _ => tells_of_ofJson) h
    constructor
    · exact fun htells' => TellsList.unique Tells.unique htells' htells
    · rintro rfl
      exact htells
  · exact Decode.list_map ofJson_toJson ds

/-- Two diagnostics in forms in which they are not written: an object without a file, with null for
the offset, a severity as a key, and explanations in either form, and the array of four fields. -/
theorem json_round_trip_forms :
    let v : Json := .array [
      .object [
        ("message", .object [
          ("next", .array [
            .array [.string "A"],
            .array [.string "B", .array [.object [("next", .array []), ("text", .string "C")]]]]),
          ("text", .string "T")]),
        ("severity", .object [("error", .null)]),
        ("start", .null)],
      .array [.string "warning", .array [.string "W"],
        .array [.string "a.ts", .string "x"], .int 7]]
    let ds : List Diagnostic := [
      ⟨.error, ⟨"T", [⟨"A", []⟩, ⟨"B", [⟨"C", []⟩]⟩]⟩, none, none⟩,
      ⟨.warning, ⟨"W", []⟩, some ⟨"a.ts", "x"⟩, some 7⟩]
    listOfJson v = .ok ds ∧ .array (ds.map toJson) ≠ v ∧
      listOfJson (.array (ds.map toJson)) = .ok ds := by
  intro v ds
  have hread : listOfJson v = .ok ds := rfl
  exact ⟨hread, by decide, (json_round_trip.2 v ds hread).2⟩

end Diagnostic

end Provenance
