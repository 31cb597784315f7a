import Mathlib.Data.String.Basic
import Mathlib.Tactic.Common
import Provenance.Config.Document
import Provenance.Json.Relaxed
import Provenance.Proofs.Results

/-!
# Paths of keys

A path of keys leads through the objects of a document. The objects that are met have one field for
each key, in key order, when the document was read from a text; of such documents, merging two is
told path by path: the upper one decides, unless the path stops in it at an object without the key.
-/

namespace Provenance

namespace Json

variable {key : String} {value v : Json} {fields : Fields}

/-! ### Fields in key order -/

namespace Fields

/-- Whether the keys are in order, each of them once. -/
def IsOrdered (fields : Fields) : Prop := fields.Pairwise fun f g => f.1 < g.1

lemma isOrdered_nil : IsOrdered [] := .nil

lemma isOrdered_cons {f : String × Json} {rest : Fields} :
    IsOrdered (f :: rest) ↔ (∀ g ∈ rest, f.1 < g.1) ∧ IsOrdered rest := List.pairwise_cons

lemma mem_insert {f : String × Json} (h : f ∈ insert key value fields) :
    f = (key, value) ∨ f ∈ fields := by
  induction fields with
  | nil => exact .inl (List.mem_singleton.1 h)
  | cons g rest ih =>
    unfold insert at h
    split_ifs at h <;> simp only [List.mem_cons] at h ⊢ <;> tauto

lemma IsOrdered.insert (ordered : IsOrdered fields) (key : String) (value : Json) :
    IsOrdered (insert key value fields) := by
  induction fields with
  | nil => exact List.pairwise_singleton _ _
  | cons f rest ih =>
    obtain ⟨least, ordered⟩ := isOrdered_cons.1 ordered
    unfold Fields.insert
    split_ifs with same before
    · subst same
      exact isOrdered_cons.2 ⟨least, ordered⟩
    · refine isOrdered_cons.2 ⟨?_, isOrdered_cons.2 ⟨least, ordered⟩⟩
      intro g hg
      rcases List.mem_cons.1 hg with rfl | hg
      · exact before
      · exact before.trans (least g hg)
    · refine isOrdered_cons.2 ⟨?_, ih ordered⟩
      intro g hg
      rcases mem_insert hg with rfl | hg
      · exact lt_of_le_of_ne (not_lt.1 before) (Ne.symm same)
      · exact least g hg

/-- Laying fields one by one into fields in order, as reading an object does. -/
lemma isOrdered_foldl_insert (written : List (String × Json)) (ordered : IsOrdered fields) :
    IsOrdered (written.foldl (fun fs f => Fields.insert f.1 f.2 fs) fields) ∧
      ∀ f ∈ written.foldl (fun fs f => Fields.insert f.1 f.2 fs) fields,
        f ∈ fields ∨ f ∈ written := by
  induction written generalizing fields with
  | nil => exact ⟨ordered, fun f hf => .inl hf⟩
  | cons g rest ih =>
    obtain ⟨hordered, hmem⟩ := ih (ordered.insert g.1 g.2)
    refine ⟨hordered, fun f hf => ?_⟩
    rcases hmem f hf with hf | hf
    · rcases mem_insert hf with rfl | hf
      · exact .inr List.mem_cons_self
      · exact .inl hf
    · exact .inr (List.mem_cons_of_mem _ hf)

lemma isOrdered_ofList (written : List (String × Json)) : IsOrdered (ofList written) :=
  (isOrdered_foldl_insert written isOrdered_nil).1

lemma mem_of_mem_ofList {written : List (String × Json)} {f : String × Json}
    (h : f ∈ ofList written) : f ∈ written :=
  ((isOrdered_foldl_insert written isOrdered_nil).2 f h).resolve_left List.not_mem_nil

lemma get?_eq_none_of_lt (h : ∀ f ∈ fields, key < f.1) : get? key fields = none := by
  induction fields with
  | nil => rfl
  | cons f rest ih =>
    rw [get?_cons, if_neg (h f List.mem_cons_self).ne]
    exact ih fun g hg => h g (List.mem_cons_of_mem _ hg)

end Fields

/-! ### Documents in key order -/

/-- A value in which every object that keys lead to has its fields in key order, one per key. -/
inductive IsKeyed : Json → Prop where
  | object {fields : Fields} (ordered : fields.IsOrdered) (values : ∀ f ∈ fields, IsKeyed f.2) :
      IsKeyed (.object fields)
  | other {v : Json} (noObject : v.fields? = none) : IsKeyed v

lemma IsKeyed.ordered (h : IsKeyed (.object fields)) : fields.IsOrdered := by
  cases h with
  | object ordered _ => exact ordered
  | other noObject => cases noObject

lemma IsKeyed.of_get? (h : IsKeyed (.object fields)) (hv : Fields.get? key fields = some v) :
    IsKeyed v := by
  cases h with
  | object _ values => exact values _ (Fields.mem_of_get? hv)
  | other noObject => cases noObject

end Json

namespace Relaxed

open Json (IsKeyed)

lemma fields?_numberOf {sign : Option NumberSign} {form : NumberForm} {v : Json}
    (h : numberOf sign form = .ok v) : v.fields? = none := by
  unfold numberOf at h
  split at h
  · split_ifs at h
    obtain ⟨n, -, rfl⟩ := exists_of_map_eq_ok h
    rfl
  · simp only [integerOf] at h
    split_ifs at h <;> · cases h; rfl
  · simp only [doubleOf] at h
    split_ifs at h
    cases h
    rfl
  all_goals
    split_ifs at h
    cases h
    rfl

mutual
/-- What is read from a text is in key order. -/
lemma isKeyed_toJson (r : Relaxed) {v : Json} (h : r.toJson = .ok v) : IsKeyed v := by
  match r with
  | .null | .bool b =>
    cases h
    exact .other rfl
  | .number sign form => exact .other (fields?_numberOf h)
  | .string pieces =>
    obtain ⟨cs, -, rfl⟩ := exists_of_map_eq_ok h
    exact .other rfl
  | .array items =>
    obtain ⟨vs, -, rfl⟩ := exists_of_map_eq_ok h
    exact .other rfl
  | .object fields =>
    obtain ⟨written, hw, rfl⟩ := exists_of_map_eq_ok h
    apply IsKeyed.object (Json.Fields.isOrdered_ofList written)
    intro f hf
    exact isKeyed_toJsonFields fields hw f (Json.Fields.mem_of_mem_ofList hf)

lemma isKeyed_toJsonFields (fields : List (List StringPiece × Relaxed))
    {written : List (String × Json)} (h : toJsonFields fields = .ok written) :
    ∀ f ∈ written, IsKeyed f.2 := by
  match fields with
  | [] =>
    cases h
    intro f hf
    cases hf
  | (key, r) :: rest =>
    obtain ⟨key, -, h⟩ := exists_of_bind_eq_ok h
    obtain ⟨v, hv, h⟩ := exists_of_bind_eq_ok h
    obtain ⟨written', hw, h⟩ := exists_of_bind_eq_ok h
    cases h
    intro f hf
    rcases List.mem_cons.1 hf with rfl | hf
    · exact isKeyed_toJson r hv
    · exact isKeyed_toJsonFields rest hw f hf
end

/-- The value of a text is in key order. -/
lemma isKeyed_parse {text : String} {v : Json} (h : parse text = .ok v) : IsKeyed v := by
  unfold parse at h
  split at h
  · cases h
  · exact isKeyed_toJson _ h

end Relaxed

/-! ### Walking along a path -/

namespace Json

variable {key : String} {keys : List String} {v : Json} {fields : Fields}

/-- What a path of keys meets. -/
inductive Reach where
  /-- A value, after the last key. -/
  | found (v : Json)
  /-- A value that is no object, before the last key. -/
  | blocked
  /-- An object without the key that comes next. -/
  | missing

/-- Walk along keys. -/
def reach : (keys : List String) → Json → Reach
  | [], v => .found v
  | key :: keys, .object fields =>
    match Fields.get? key fields with
    | some v => reach keys v
    | none => .missing
  | _ :: _, _ => .blocked

/-- The value that a path leads to. -/
def at? (keys : List String) (v : Json) : Option Json :=
  match reach keys v with
  | .found value => some value
  | _ => none

@[simp] lemma reach_nil (v : Json) : reach [] v = .found v := by
  cases v <;> rfl

lemma reach_cons_of_fields?_eq_none (h : v.fields? = none) (key : String) (keys : List String) :
    reach (key :: keys) v = .blocked := by
  cases v <;> first | rfl | cases h

lemma reach_cons_of_some (h : Fields.get? key fields = some v) :
    reach (key :: keys) (.object fields) = reach keys v := by
  simp [reach, h]

lemma reach_cons_of_none (h : Fields.get? key fields = none) :
    reach (key :: keys) (.object fields) = .missing := by
  simp [reach, h]

@[simp] lemma at?_nil (v : Json) : at? [] v = some v := by
  simp [at?]

lemma at?_cons_of_fields?_eq_none (h : v.fields? = none) (key : String) (keys : List String) :
    at? (key :: keys) v = none := by
  simp [at?, reach_cons_of_fields?_eq_none h]

/-- A path leads through the value at its first key. -/
lemma at?_cons (key : String) (keys : List String) (fields : Fields) :
    at? (key :: keys) (.object fields) = (Fields.get? key fields).bind (at? keys) := by
  cases h : Fields.get? key fields with
  | none => simp [at?, reach_cons_of_none h]
  | some v => simp [at?, reach_cons_of_some h]

end Json

/-! ### Merging, path by path -/

namespace Config

open Json (Reach reach at? IsKeyed Fields)

variable {base upper v : Json} {fields below : Fields}

@[simp] lemma merge_of_fields?_eq_none (base : Json) (h : v.fields? = none) : merge base v = v := by
  cases v <;> first | rfl | cases h

lemma merge_object_of_fields?_eq_none (fields : Fields) (h : base.fields? = none) :
    merge base (.object fields) = .object fields := by
  cases base <;> first | rfl | cases h

/-- An object laid over anything stays an object. -/
lemma exists_merge_object (base : Json) (fields : Fields) :
    ∃ merged, merge base (.object fields) = .object merged := by
  cases base with
  | object below => exact ⟨_, rfl⟩
  | _ => exact ⟨_, rfl⟩

/-- Laying fields over an object, key by key. -/
lemma get?_mergeFields (ordered : fields.IsOrdered) (below : Fields) (key : String) :
    Fields.get? key (mergeFields below fields) =
      match Fields.get? key fields with
      | some v => some (match Fields.get? key below with
        | some old => merge old v
        | none => v)
      | none => Fields.get? key below := by
  induction fields generalizing below with
  | nil => rfl
  | cons f rest ih =>
    obtain ⟨k, v⟩ := f
    obtain ⟨least, ordered⟩ := Fields.isOrdered_cons.1 ordered
    have hrest : Fields.get? k rest = none := Fields.get?_eq_none_of_lt least
    rw [mergeFields, ih ordered, Fields.get?_insert, Fields.get?_cons]
    by_cases same : key = k
    · subst same
      cases Fields.get? key below <;> simp [hrest]
    · simp [same]

/-- What merging two documents leaves at a path. The upper document decides, unless the path stops
in it at a missing key; where both have a value the two are merged. -/
lemma at?_merge (keyed : IsKeyed upper) (keys : List String) (base : Json) :
    at? keys (merge base upper) =
      match reach keys upper with
      | .found v => some (match at? keys base with
        | some old => merge old v
        | none => v)
      | .blocked => none
      | .missing => at? keys base := by
  induction keys generalizing base upper with
  | nil => simp
  | cons key keys ih =>
    cases hu : upper.fields? with
    | none =>
      rw [merge_of_fields?_eq_none base hu, Json.reach_cons_of_fields?_eq_none hu,
        Json.at?_cons_of_fields?_eq_none hu]
    | some fields =>
      obtain rfl : upper = .object fields := by
        cases upper <;> cases hu
        rfl
      cases hb : base.fields? with
      | none =>
        -- The lower document has no keys, so all of the upper one stays.
        rw [merge_object_of_fields?_eq_none fields hb, Json.at?_cons_of_fields?_eq_none hb, at?]
        cases reach (key :: keys) (.object fields) <;> rfl
      | some below =>
        obtain rfl : base = .object below := by
          cases base <;> cases hb
          rfl
        rw [merge, Json.at?_cons, Json.at?_cons, get?_mergeFields keyed.ordered]
        cases hv : Fields.get? key fields with
        | none => rw [Json.reach_cons_of_none hv]
        | some v =>
          rw [Json.reach_cons_of_some hv]
          cases hold : Fields.get? key below with
          | none =>
            simp only [Option.bind_some, Option.bind_none, at?]
            cases reach keys v <;> rfl
          | some old => exact ih (keyed.of_get? hv) old

/-- Where the reference to the base is dropped does not matter to the other keys. -/
lemma at?_withoutExtends {key : String} (h : key ≠ "extends") (keys : List String) (v : Json) :
    at? (key :: keys) (withoutExtends v) = at? (key :: keys) v := by
  cases v with
  | object fields => rw [withoutExtends, Json.at?_cons, Json.at?_cons, Fields.get?_erase, if_neg h]
  | _ => rfl

lemma get?_extends_withoutExtends (v : Json) : (withoutExtends v).get? "extends" = none := by
  cases v with
  | object fields => simp [withoutExtends, Json.get?]
  | _ => rfl

end Config

end Provenance
