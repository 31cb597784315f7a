import Mathlib.Tactic.Common
import Provenance.SyntaxTree

/-!
# Endpoints of located nodes

A node of a syntax tree is reached by a path that enters no location; its endpoints are the two
values in its location. Patching a tree changes them and nothing else: each is moved by
`patchPoint` alone, whatever the other one and the nodes around it do (`endpoint?_patch`).
-/

namespace Provenance.SyntaxTree

/-! ### Paths -/

/-- A step into a tree. -/
inductive Step where
  /-- To the value at a key of an object. -/
  | key (name : String)
  /-- To an item of an array. -/
  | item (number : Nat)
deriving DecidableEq

/-- Where a step leads. -/
def step? : Step → Json → Option Json
  | .key name, .object fields => Json.Fields.get? name fields
  | .item number, .array items => items[number]?
  | _, _ => none

/-- Where a path leads. -/
def follow? : (path : List Step) → Json → Option Json
  | [], v => some v
  | s :: path, v => (step? s v).bind (follow? path)

/-- The value of one side, `start` or `end`, of the location of the node that a path leads to. -/
def endpoint? (path : List Step) (side : String) (tree : Json) : Option Json :=
  ((follow? path tree).bind (Json.get? "loc")).bind (Json.get? side)

/-- The position of an endpoint, if it is well formed. -/
def position? (path : List Step) (side : String) (tree : Json) : Option Position :=
  (endpoint? path side tree).bind point?

variable {index : OriginIndex} {v tree : Json} {p o : Position} {path : List Step} {side : String}

/-! ### One point -/

lemma patchPoint_of_eq_none (h : (point? v).bind index.originOf? = none) :
    patchPoint index v = v := by
  unfold patchPoint
  rw [h]
  cases v <;> rfl

/-- A point that an index moves is an object. -/
lemma exists_patchPoint_eq (h : (point? v).bind index.originOf? = some o) :
    ∃ fields, v = .object fields ∧ patchPoint index v =
      .object (Json.Fields.insert "column" (.word o.column)
        (Json.Fields.insert "line" (.word o.line) fields)) := by
  obtain ⟨p, hp, -⟩ := Option.bind_eq_some_iff.mp h
  cases v with
  | object fields =>
    refine ⟨fields, rfl, ?_⟩
    unfold patchPoint
    rw [h]
  | _ => cases hp

lemma point?_patchPoint (h : (point? v).bind index.originOf? = some o) :
    point? (patchPoint index v) = some o := by
  obtain ⟨fields, -, heq⟩ := exists_patchPoint_eq h
  simp [heq, point?]

/-! ### All points of a tree -/

/-- Changing the values of fields changes what is found at a key, and where. -/
lemma get?_map_values (change : String → Json → Json) (key : String) (fields : Json.Fields) :
    Json.Fields.get? key (fields.map fun f => (f.1, change f.1 f.2)) =
      (Json.Fields.get? key fields).map (change key) := by
  induction fields with
  | nil => rfl
  | cons f rest ih =>
    obtain ⟨k, v⟩ := f
    rw [List.map_cons, Json.Fields.get?_cons, Json.Fields.get?_cons, ih]
    by_cases hk : key = k
    · subst hk
      simp
    · rw [if_neg hk, if_neg hk]

lemma patchFields_eq_map (fields : Json.Fields) :
    patchFields index fields = fields.map fun f =>
      (f.1, if f.1 = "loc" then patchLoc index f.2 else patch index f.2) := by
  induction fields with
  | nil => rfl
  | cons f rest ih => rw [patchFields, ih, List.map_cons]

lemma patchLoc_eq_map (fields : Json.Fields) :
    patchLoc index (.object fields) = .object (fields.map fun f =>
      (f.1, if f.1 = "start" ∨ f.1 = "end" then patchPoint index f.2 else f.2)) := by
  simp only [patchLoc, apply_ite (Prod.mk _)]

lemma patchItems_eq_map (items : List Json) : patchItems index items = items.map (patch index) := by
  induction items with
  | nil => rfl
  | cons v rest ih => rw [patchItems, ih, List.map_cons]

/-- Patching goes along with every step that does not enter a location. -/
lemma step?_patch {s : Step} (hs : s ≠ .key "loc") (v : Json) :
    step? s (patch index v) = (step? s v).map (patch index) := by
  cases s with
  | key name =>
    have hname : name ≠ "loc" := fun h => hs (congrArg _ h)
    cases v with
    | object fields =>
      simp only [patch, step?, patchFields_eq_map]
      rw [get?_map_values fun k u => if k = "loc" then patchLoc index u else patch index u]
      simp [hname]
    | _ => rfl
  | item n =>
    cases v with
    | array items => simp [patch, step?, patchItems_eq_map]
    | _ => rfl

lemma follow?_patch (hpath : .key "loc" ∉ path) (tree : Json) :
    follow? path (patch index tree) = (follow? path tree).map (patch index) := by
  induction path generalizing tree with
  | nil => rfl
  | cons s path ih =>
    rw [List.mem_cons, not_or] at hpath
    rw [follow?, follow?, step?_patch (Ne.symm hpath.1)]
    cases step? s tree with
    | none => rfl
    | some v => exact ih hpath.2 v

lemma get?_loc_patch (v : Json) :
    (patch index v).get? "loc" = (v.get? "loc").map (patchLoc index) := by
  cases v with
  | object fields =>
    simp only [patch, Json.get?, patchFields_eq_map]
    exact get?_map_values (fun k u => if k = "loc" then patchLoc index u else patch index u) _ _
  | _ => rfl

lemma get?_patchLoc (hside : side = "start" ∨ side = "end") (loc : Json) :
    (patchLoc index loc).get? side = (loc.get? side).map (patchPoint index) := by
  cases loc with
  | object fields =>
    rw [patchLoc_eq_map, Json.get?, get?_map_values fun k u =>
      if k = "start" ∨ k = "end" then patchPoint index u else u]
    simp [Json.get?, hside]
  | _ => rfl

/-- Patching a tree moves each endpoint on its own. -/
lemma endpoint?_patch (hpath : .key "loc" ∉ path) (hside : side = "start" ∨ side = "end")
    (tree : Json) : endpoint? path side (patch index tree) =
      (endpoint? path side tree).map (patchPoint index) := by
  unfold endpoint?
  rw [follow?_patch hpath]
  cases follow? path tree with
  | none => rfl
  | some v =>
    simp only [Option.map_some, Option.bind_some, get?_loc_patch]
    cases v.get? "loc" with
    | none => rfl
    | some loc => exact get?_patchLoc hside loc

lemma exists_endpoint?_eq (h : position? path side tree = some p) :
    ∃ v, endpoint? path side tree = some v ∧ point? v = some p := Option.bind_eq_some_iff.mp h

/-- An endpoint whose position is traced moves there. -/
lemma position?_patch (hpath : .key "loc" ∉ path) (hside : side = "start" ∨ side = "end")
    (h : position? path side tree = some p) (ho : index.originOf? p = some o) :
    position? path side (patch index tree) = some o := by
  obtain ⟨v, hv, hp⟩ := exists_endpoint?_eq h
  rw [position?, endpoint?_patch hpath hside, hv]
  exact point?_patchPoint (by rw [hp]; exact ho)

/-- An endpoint whose position is not traced stays as it is. -/
lemma endpoint?_patch_of_eq_none (hpath : .key "loc" ∉ path)
    (hside : side = "start" ∨ side = "end") (h : position? path side tree = some p)
    (ho : index.originOf? p = none) :
    endpoint? path side (patch index tree) = endpoint? path side tree := by
  obtain ⟨v, hv, hp⟩ := exists_endpoint?_eq h
  rw [endpoint?_patch hpath hside, hv, Option.map_some]
  exact congrArg some (patchPoint_of_eq_none (by rw [hp]; exact ho))

end Provenance.SyntaxTree
