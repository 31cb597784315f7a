import Mathlib.Data.List.Forall2
import Provenance.Mapping.PositionMap
import Provenance.Proofs.Results

/-!
# Arrays that are raw mappings

The reader of a raw mapping goes through the elements of an array one after another. What it accepts
can be told at once: two, four or five elements, words in front and words or nulls behind them
(`IsTuple`). Each mapping is written as such an array and read back from it, and an array is written
as it was read unless a null or a name that is no text was lost on the way (`IsWhole`).
-/

namespace Provenance

/-! ### Words and nulls -/

/-- An integer in the range of words. -/
def Json.IsWord (v : Json) : Prop := ∃ n : Int, v = .int n ∧ 0 ≤ n ∧ n < UInt32.size

/-- What stands for a word that may be absent: null if it is. -/
def Json.ofWord? (w : Option UInt32) : Json := .ofOption (w.map .word)

lemma Json.word_ofNat {n : Int} (hn : 0 ≤ n) (hlt : n.toNat < UInt32.size) :
    Json.word (.ofNat n.toNat) = .int n := by
  rw [word, UInt32.toNat_ofNat_of_lt' hlt, Int.toNat_of_nonneg hn]

lemma Json.isWord_iff {v : Json} : v.IsWord ↔ ∃ w, v = .word w := by
  constructor
  · rintro ⟨n, rfl, hn, hlt⟩
    exact ⟨_, (word_ofNat hn ((Int.toNat_lt hn).mpr hlt)).symm⟩
  · rintro ⟨w, rfl⟩
    exact ⟨_, rfl, Int.natCast_nonneg _, Int.ofNat_lt.mpr w.toNat_lt_size⟩

lemma Json.exists_ofWord?_iff {v : Json} : v = .null ∨ v.IsWord ↔ ∃ w, v = .ofWord? w := by
  rw [isWord_iff]
  constructor
  · rintro (rfl | ⟨w, rfl⟩)
    · exact ⟨none, rfl⟩
    · exact ⟨some w, rfl⟩
  · rintro ⟨w, rfl⟩
    cases w with
    | none => exact .inl rfl
    | some w => exact .inr ⟨w, rfl⟩

lemma Json.ofWord?_eq_null_iff {w : Option UInt32} : ofWord? w = .null ↔ w = none := by
  cases w <;> simp [ofWord?, ofOption, word]

namespace Decode

/-- A word is read from the integer that it is written as, and from nothing else. -/
lemma word_eq_ok_iff {v : Json} {w : UInt32} : word v = .ok w ↔ v = .word w := by
  constructor
  · intro h
    unfold word at h
    split at h
    · split_ifs at h with hn
      rw [← Except.ok.inj h, Json.word_ofNat hn.1 hn.2]
    · cases h
  · rintro rfl
    simp [word, Json.word, w.toNat_lt_size]

lemma nullable_word_eq_ok_iff {v : Json} {w : Option UInt32} :
    nullable word v = .ok w ↔ v = .ofWord? w := by
  constructor
  · intro h
    unfold nullable at h
    split at h
    · rw [← Except.ok.inj h]
      rfl
    · obtain ⟨x, hx, rfl⟩ := exists_of_map_eq_ok h
      exact word_eq_ok_iff.mp hx
  · rintro rfl
    cases w with
    | none => rfl
    | some x =>
      change (word (.word x)).map some = .ok (some x)
      rw [word_eq_ok_iff.mpr rfl]
      rfl

end Decode

namespace RawMapping

variable {v : Json} {items : List Json} {m : RawMapping}

/-! ### What an array tells -/

/-- A mapping from what was read: without both coordinates of an origin there is none, and no name
either. -/
def ofParts (generated : Position) (line column : Option UInt32) (name : Option String) :
    RawMapping :=
  match line, column with
  | some line, some column => ⟨generated, some ⟨line, column⟩, name⟩
  | _, _ => ⟨generated, none, none⟩

/-- The mapping that the elements of an array tell. -/
inductive Tells : List Json → RawMapping → Prop where
  | place (p : Position) : Tells [.word p.line, .word p.column] ⟨p, none, none⟩
  | origin (p : Position) (line column : Option UInt32) :
      Tells [.word p.line, .word p.column, .ofWord? line, .ofWord? column]
        (ofParts p line column none)
  | named (p : Position) (line column : Option UInt32) (name : Json) :
      Tells [.word p.line, .word p.column, .ofWord? line, .ofWord? column, name]
        (ofParts p line column name.string?)

lemma tells_cons_of_ofTail {p : Position} (h : ofTail p items = .ok m) :
    Tells (.word p.line :: .word p.column :: items) m := by
  cases items with
  | nil =>
    rw [← Except.ok.inj h]
    exact .place p
  | cons line items =>
    obtain ⟨line, hline, hrest⟩ := exists_of_bind_eq_ok h
    cases items with
    | nil => cases hrest
    | cons column items =>
      obtain ⟨column, hcolumn, hnames⟩ := exists_of_bind_eq_ok hrest
      rw [Decode.nullable_word_eq_ok_iff.mp hline, Decode.nullable_word_eq_ok_iff.mp hcolumn]
      match items, hnames with
      | [], hnames =>
        obtain rfl : ofParts p line column none = m := by
          cases line <;> cases column <;> exact Except.ok.inj hnames
        exact .origin p line column
      | [name], hnames =>
        obtain rfl : ofParts p line column name.string? = m := by
          cases line <;> cases column <;> exact Except.ok.inj hnames
        exact .named p line column name

/-- A mapping is read from the arrays that tell it. -/
lemma ofJson_eq_ok_iff : ofJson v = .ok m ↔ ∃ items, v = .array items ∧ Tells items m := by
  constructor
  · intro h
    match v, h with
    | .array (line :: items), h =>
      obtain ⟨line, hline, hrest⟩ := exists_of_bind_eq_ok h
      cases items with
      | nil => cases hrest
      | cons column items =>
        obtain ⟨column, hcolumn, htail⟩ := exists_of_bind_eq_ok hrest
        rw [Decode.word_eq_ok_iff.mp hline, Decode.word_eq_ok_iff.mp hcolumn]
        exact ⟨_, rfl, tells_cons_of_ofTail htail⟩
  · rintro ⟨items, rfl, h⟩
    have hword : ∀ w, Decode.word (.word w) = .ok w := fun w => Decode.word_eq_ok_iff.mpr rfl
    have hslot : ∀ w, Decode.nullable Decode.word (.ofWord? w) = .ok w := fun w =>
      Decode.nullable_word_eq_ok_iff.mpr rfl
    cases h with
    | place p => simp [ofJson, hword, ofTail, bind, Except.bind]
    | origin p line column =>
      cases line <;> cases column <;>
        simp [ofJson, hword, hslot, ofTail, ofParts, bind, Except.bind, pure, Except.pure]
    | named p line column name =>
      cases line <;> cases column <;>
        simp [ofJson, hword, hslot, ofTail, ofParts, bind, Except.bind, pure, Except.pure]

/-! ### Shapes -/

/-- The shape of an array that tells a mapping. The fifth element may be anything. -/
structure IsTuple (items : List Json) : Prop where
  width : items.length = 2 ∨ items.length = 4 ∨ items.length = 5
  generated : ∀ v ∈ items.take 2, v.IsWord
  origin : ∀ v ∈ (items.drop 2).take 2, v = .null ∨ v.IsWord

/-- No part of an array is lost when it is read: neither of its coordinates is null, and its name is
a text. -/
structure IsWhole (items : List Json) : Prop where
  origin : ∀ v ∈ (items.drop 2).take 2, v ≠ .null
  name : ∀ v ∈ items.drop 4, ∃ s, v = .string s

lemma Tells.isTuple (h : Tells items m) : IsTuple items := by
  have hword : ∀ w, (Json.word w).IsWord := fun w => Json.isWord_iff.mpr ⟨w, rfl⟩
  have hslot : ∀ w, Json.ofWord? w = .null ∨ (Json.ofWord? w).IsWord := fun w =>
    Json.exists_ofWord?_iff.mpr ⟨w, rfl⟩
  cases h with
  | place p => exact ⟨.inl rfl, by simp [hword], by simp⟩
  | origin p line column => exact ⟨.inr (.inl rfl), by simp [hword], by simp [hslot]⟩
  | named p line column name => exact ⟨.inr (.inr rfl), by simp [hword], by simp [hslot]⟩

/-- The shape of an array decides whether it tells a mapping. -/
lemma isTuple_iff : IsTuple items ↔ ∃ m, Tells items m := by
  constructor
  · rintro ⟨hwidth, hgenerated, horigin⟩
    have hword := fun v hv => Json.isWord_iff.mp (hgenerated v hv)
    have hslot := fun v hv => Json.exists_ofWord?_iff.mp (horigin v hv)
    match items, hwidth with
    | [a, b], _ =>
      obtain ⟨line, rfl⟩ := hword a (by simp)
      obtain ⟨column, rfl⟩ := hword b (by simp)
      exact ⟨_, .place ⟨line, column⟩⟩
    | [a, b, c, d], _ =>
      obtain ⟨line, rfl⟩ := hword a (by simp)
      obtain ⟨column, rfl⟩ := hword b (by simp)
      obtain ⟨line', rfl⟩ := hslot c (by simp)
      obtain ⟨column', rfl⟩ := hslot d (by simp)
      exact ⟨_, .origin ⟨line, column⟩ line' column'⟩
    | [a, b, c, d, name], _ =>
      obtain ⟨line, rfl⟩ := hword a (by simp)
      obtain ⟨column, rfl⟩ := hword b (by simp)
      obtain ⟨line', rfl⟩ := hslot c (by simp)
      obtain ⟨column', rfl⟩ := hslot d (by simp)
      exact ⟨_, .named ⟨line, column⟩ line' column' name⟩
  · rintro ⟨m, h⟩
    exact h.isTuple

lemma exists_ofJson_iff :
    (∃ m, ofJson v = .ok m) ↔ ∃ items, v = .array items ∧ IsTuple items := by
  simp only [ofJson_eq_ok_iff, isTuple_iff]
  constructor
  · rintro ⟨m, items, rfl, h⟩
    exact ⟨items, rfl, m, h⟩
  · rintro ⟨items, rfl, m, h⟩
    exact ⟨m, items, rfl, h⟩

/-! ### Writing -/

lemma width_cases (m : RawMapping) : m.width = 2 ∨ m.width = 4 ∨ m.width = 5 := by
  unfold width
  split <;> simp

/-- A name that was read stands beside an origin. -/
lemma Tells.name_eq_none (h : Tells items m) (horigin : m.origin = none) : m.name = none := by
  cases h with
  | place p => rfl
  | origin p line column => cases line <;> cases column <;> rfl
  | named p line column name => cases line <;> cases column <;> simp_all [ofParts]

/-- A mapping whose name stands beside an origin is told by the elements it is written with. -/
lemma tells_elements (h : m.origin = none → m.name = none) : Tells m.elements m := by
  obtain ⟨p, origin, name⟩ := m
  cases origin with
  | none =>
    obtain rfl : name = none := h rfl
    exact .place p
  | some q =>
    cases name with
    | none => exact .origin p (some q.line) (some q.column)
    | some s => exact .named p (some q.line) (some q.column) (.string s)

lemma ofJson_toJson (h : m.origin = none → m.name = none) : ofJson m.toJson = .ok m :=
  ofJson_eq_ok_iff.mpr ⟨_, rfl, tells_elements h⟩

/-- The elements that were read are written again just if nothing of them was lost. -/
lemma Tells.elements_eq_iff (h : Tells items m) : m.elements = items ↔ IsWhole items := by
  constructor
  · rintro rfl
    obtain ⟨p, origin, name⟩ := m
    cases origin with
    | none => exact ⟨by simp [elements], by simp [elements]⟩
    | some q => cases name <;> exact ⟨by simp [elements, Json.word], by simp [elements]⟩
  · rintro ⟨horigin, hname⟩
    cases h with
    | place p => rfl
    | origin p line column =>
      simp [Json.ofWord?_eq_null_iff, Option.ne_none_iff_exists'] at horigin
      obtain ⟨⟨line, rfl⟩, column, rfl⟩ := horigin
      rfl
    | named p line column name =>
      simp [Json.ofWord?_eq_null_iff, Option.ne_none_iff_exists'] at horigin hname
      obtain ⟨⟨line, rfl⟩, column, rfl⟩ := horigin
      obtain ⟨s, rfl⟩ := hname
      rfl

end RawMapping

/-! ### Lists -/

namespace PositionMap

open RawMapping (IsTuple IsWhole)

variable {values : List Json} {map : PositionMap} {ms : List RawMapping}

/-- A list of mappings is read element by element. -/
lemma ofJson_array_eq_ok_iff : ofJson (.array values) = .ok map ↔
    ∃ ms, map = .raw ms ∧ values.mapM RawMapping.ofJson = .ok ms := by
  constructor
  · intro h
    cases hread : values.mapM RawMapping.ofJson with
    | error e => simp [ofJson, hread, Except.map, Except.mapError] at h
    | ok ms => exact ⟨ms, by simpa [ofJson, hread, Except.map, Except.mapError] using h.symm, rfl⟩
  · rintro ⟨ms, rfl, hread⟩
    simp [ofJson, hread, Except.map, Except.mapError]

lemma exists_ofJson_array_iff : (∃ map, ofJson (.array values) = .ok map) ↔
    ∀ v ∈ values, ∃ items, v = .array items ∧ IsTuple items := by
  simp only [← RawMapping.exists_ofJson_iff, ← exists_mapM_ok_iff, ofJson_array_eq_ok_iff]
  constructor
  · rintro ⟨map, ms, -, hread⟩
    exact ⟨ms, hread⟩
  · rintro ⟨ms, hread⟩
    exact ⟨_, ms, rfl, hread⟩

lemma mapM_ofJson_map_toJson (h : ∀ m ∈ ms, m.origin = none → m.name = none) :
    (ms.map RawMapping.toJson).mapM RawMapping.ofJson = .ok ms := by
  rw [mapM_eq_ok_iff, List.forall₂_map_left_iff, List.forall₂_same]
  exact fun m hm => RawMapping.ofJson_toJson (h m hm)

lemma name_eq_none_of_mapM (h : values.mapM RawMapping.ofJson = .ok ms) :
    ∀ m ∈ ms, m.origin = none → m.name = none := by
  rw [mapM_eq_ok_iff] at h
  induction h with
  | nil => exact fun _ hm => absurd hm List.not_mem_nil
  | cons hread _ ih =>
    obtain ⟨items, -, htells⟩ := RawMapping.ofJson_eq_ok_iff.mp hread
    exact List.forall_mem_cons.mpr ⟨htells.name_eq_none, ih⟩

/-- The arrays that were read are written again just if nothing was lost of any of them. -/
lemma map_toJson_eq_iff (h : values.mapM RawMapping.ofJson = .ok ms) :
    ms.map RawMapping.toJson = values ↔ ∀ items, .array items ∈ values → IsWhole items := by
  rw [mapM_eq_ok_iff] at h
  induction h with
  | nil => simp
  | cons hread _ ih =>
    obtain ⟨items, rfl, htells⟩ := RawMapping.ofJson_eq_ok_iff.mp hread
    rw [List.map_cons, List.cons.injEq, ih, RawMapping.toJson, Json.array.injEq,
      htells.elements_eq_iff]
    simp

end PositionMap

/-- Raw mappings are read from the arrays of their shape and from nothing else. What is written has
the width of the mapping and is read back, and what was read is written as an array that is read
alike, the same one just if nothing was lost on reading it. Lists of mappings are read and written
element by element. -/
theorem RawMapping.tuples_exact :
    (∀ v, (∃ m, ofJson v = .ok m) ↔ ∃ items, v = .array items ∧ IsTuple items) ∧
    (∀ m, (m.origin = none → m.name = none) →
      ofJson m.toJson = .ok m ∧ ∃ items, m.toJson = .array items ∧ items.length = m.width) ∧
    (∀ items m, ofJson (.array items) = .ok m →
      ∃ written, m.toJson = .array written ∧
        (written.length = 2 ∨ written.length = 4 ∨ written.length = 5) ∧
        ofJson (.array written) = .ok m ∧ (written = items ↔ IsWhole items)) ∧
    (∀ values, (∃ map, PositionMap.ofJson (.array values) = .ok map) ↔
      ∀ v ∈ values, ∃ items, v = .array items ∧ IsTuple items) ∧
    (∀ ms, PositionMap.toJson (.raw ms) = .array (ms.map toJson) ∧
      ((∀ m ∈ ms, m.origin = none → m.name = none) →
        PositionMap.ofJson (PositionMap.toJson (.raw ms)) = .ok (.raw ms))) ∧
    ∀ values map, PositionMap.ofJson (.array values) = .ok map →
      (∃ ms, map = .raw ms ∧ List.Forall₂ (fun v m => ofJson v = .ok m) values ms) ∧
      PositionMap.ofJson map.toJson = .ok map ∧
      (map.toJson = .array values ↔ ∀ items, .array items ∈ values → IsWhole items) := by
  refine ⟨fun v => exists_ofJson_iff, fun m hm => ⟨ofJson_toJson hm, _, rfl, m.length_elements⟩,
    ?_, fun values => PositionMap.exists_ofJson_array_iff, fun ms => ⟨rfl, fun h => ?_⟩, ?_⟩
  · intro items m h
    obtain ⟨_, hitems, htells⟩ := ofJson_eq_ok_iff.mp h
    obtain rfl := Json.array.inj hitems
    refine ⟨m.elements, rfl, ?_, ofJson_toJson htells.name_eq_none, htells.elements_eq_iff⟩
    rw [length_elements]
    exact m.width_cases
  · exact PositionMap.ofJson_array_eq_ok_iff.mpr ⟨ms, rfl, PositionMap.mapM_ofJson_map_toJson h⟩
  · intro values map h
    obtain ⟨ms, rfl, hread⟩ := PositionMap.ofJson_array_eq_ok_iff.mp h
    have hnames := PositionMap.name_eq_none_of_mapM hread
    refine ⟨⟨ms, rfl, mapM_eq_ok_iff.mp hread⟩, ?_, ?_⟩
    · exact PositionMap.ofJson_array_eq_ok_iff.mpr
        ⟨ms, rfl, PositionMap.mapM_ofJson_map_toJson hnames⟩
    · rw [PositionMap.toJson, Json.array.injEq]
      exact PositionMap.map_toJson_eq_iff hread

/-- A null and a name that is no text are lost, and the arrays that come of it are read alike. A
mapping with an origin and a name is read back from its five elements. -/
theorem RawMapping.tuples_exact_null :
    let values : List Json := [.array [.int 3, .int 0, .int 4, .null, .string "x"],
      .array [.int 3, .int 5, .int 4, .int 1, .int 7]]
    let named : RawMapping := ⟨⟨3, 9⟩, some ⟨5, 7⟩, some "props"⟩
    (∃ map, PositionMap.ofJson (.array values) = .ok map ∧ map.toJson ≠ .array values ∧
      PositionMap.ofJson map.toJson = .ok map ∧
      map.toJson = .array [.array [.int 3, .int 0], .array [.int 3, .int 5, .int 4, .int 1]]) ∧
    ofJson named.toJson = .ok named ∧ named.width = 5 := by
  intro values named
  have hread : PositionMap.ofJson (.array values) =
      .ok (.raw [⟨⟨3, 0⟩, none, none⟩, ⟨⟨3, 5⟩, some ⟨4, 1⟩, none⟩]) := rfl
  obtain ⟨-, hback, -, -, -, hlists⟩ := tuples_exact
  obtain ⟨-, hagain, hwhole⟩ := hlists _ _ hread
  refine ⟨⟨_, hread, fun heq => ?_, hagain, rfl⟩, (hback named (by simp [named])).1, rfl⟩
  have hnull := (hwhole.mp heq _ (List.mem_cons_self ..)).origin .null
  exact hnull (by simp) rfl

end Provenance
