import Provenance.Proofs.Modes

/-!
# Patched trees

A patched tree has the keys, lengths and scalars of the tree it was made from, everywhere but in the
lines and columns of endpoints. Each endpoint is told by itself alone: a point with an origin takes
the line and the column of the origin, and any other value stays (`IsPatched`). So the same nodes are
visited in the same order, and the same ones have a range.
-/

namespace Provenance

/-- The range with each of its two positions moved on its own: to its origin, if it has one. -/
def SourceRange.moved (index : OriginIndex) (r : SourceRange) : SourceRange :=
  ⟨(index.originOf? r.start).getD r.start, (index.originOf? r.stop).getD r.stop⟩

namespace SyntaxTree

variable {index : OriginIndex} {v w tree patched : Json} {path : List Step} {p : Position}

/-! ### Keys, lengths and scalars -/

/-- The values are objects with the same keys, arrays of one length, or equal. -/
def SameShape : Json → Json → Prop
  | .object xs, .object ys => ∀ key, Json.Fields.contains key xs = Json.Fields.contains key ys
  | .array xs, .array ys => xs.length = ys.length
  | v, w => v = w

lemma follow?_concat (path : List Step) (s : Step) (v : Json) :
    follow? (path ++ [s]) v = (follow? path v).bind (step? s) := by
  rw [follow?_append]
  congr 1
  funext w
  simp [follow?]

lemma isSome_eq_of_rel {α β : Type} {R : α → β → Prop} {x : Option α} {y : Option β}
    (h : Option.Rel R x y) : x.isSome = y.isSome := by
  cases h <;> rfl

/-- Trees that differ in coordinates have the same keys in the same places: a coordinate that is
changed was there before. -/
lemma DiffersInCoordinates.isSome_eq (h : DiffersInCoordinates tree patched) (path : List Step) :
    (follow? path tree).isSome = (follow? path patched).isSome := by
  by_cases hpath : IsCoordinate path
  · rcases h.coordinate path hpath with heq | ⟨m, n, hm, hn⟩
    · rw [heq]
    · rw [hm, hn]
      rfl
  · exact isSome_eq_of_rel (h.outside path hpath)

lemma DiffersInCoordinates.sameShape (h : DiffersInCoordinates tree patched)
    (hpath : ¬ IsCoordinate path) :
    Option.Rel SameShape (follow? path tree) (follow? path patched) := by
  have hrel := h.outside path hpath
  have hkeys : ∀ key, (follow? (path ++ [.key key]) tree).isSome =
      (follow? (path ++ [.key key]) patched).isSome := fun key => h.isSome_eq _
  simp only [follow?_concat] at hkeys
  generalize follow? path tree = found at hrel hkeys
  generalize follow? path patched = found' at hrel hkeys
  cases hrel with
  | none => exact .none
  | @some v w houtline =>
    apply Option.Rel.some
    -- two objects have the same keys, and all else is told by the outline
    cases v <;> cases w <;> first | exact houtline | exact hkeys

/-! ### Endpoints -/

/-- What becomes of an endpoint. If its line and its column are words and their position has an
origin, both become those of the origin; if not, it stays as it is. -/
structure Moves (index : OriginIndex) (v w : Json) : Prop where
  moved : ∀ line column origin, v.get? "line" = some (.word line) →
    v.get? "column" = some (.word column) → index.originOf? ⟨line, column⟩ = some origin →
      w.get? "line" = some (.word origin.line) ∧ w.get? "column" = some (.word origin.column)
  kept : (∀ line column, v.get? "line" = some (.word line) →
    v.get? "column" = some (.word column) → index.originOf? ⟨line, column⟩ = none) → w = v

/-- A point is an object whose line and column are words. -/
lemma point?_eq_some_iff : point? v = some p ↔
    v.get? "line" = some (.word p.line) ∧ v.get? "column" = some (.word p.column) := by
  cases v with
  | object fields =>
    simp only [point?, Json.get?, Option.bind_eq_bind, Option.bind_eq_some_iff]
    constructor
    · rintro ⟨l, hl, line, hline, c, hc, column, hcolumn, hp⟩
      obtain rfl := Option.some.inj hp
      rw [hl, hc, eq_word_of_word? hline, eq_word_of_word? hcolumn]
      exact ⟨rfl, rfl⟩
    · rintro ⟨hl, hc⟩
      exact ⟨_, hl, _, Json.word?_word _, _, hc, _, Json.word?_word _, rfl⟩
  | _ => simp [point?, Json.get?]

lemma moves_patchPoint (index : OriginIndex) (v : Json) : Moves index v (patchPoint index v) where
  moved line column origin hline hcolumn horigin := by
    have hp : point? v = some ⟨line, column⟩ := point?_eq_some_iff.mpr ⟨hline, hcolumn⟩
    apply point?_eq_some_iff.mp
    apply point?_patchPoint
    rw [hp]
    exact horigin
  kept hnone := by
    apply patchPoint_of_eq_none
    cases hp : point? v with
    | none => rfl
    | some p =>
      obtain ⟨hline, hcolumn⟩ := point?_eq_some_iff.mp hp
      exact hnone p.line p.column hline hcolumn

/-- What a tree has become when it was patched: the same values, apart from coordinates of
endpoints, and each endpoint moved by its own position. -/
structure IsPatched (index : OriginIndex) (tree patched : Json) : Prop where
  outside : ∀ path, ¬ IsCoordinate path →
    Option.Rel SameShape (follow? path tree) (follow? path patched)
  endpoints : ∀ path side, .key "loc" ∉ path → side = "start" ∨ side = "end" →
    Option.Rel (Moves index) (endpoint? path side tree) (endpoint? path side patched)

lemma isPatched_patch (index : OriginIndex) (tree : Json) :
    IsPatched index tree (patch index tree) where
  outside _ hpath := (differsInCoordinates_patch index tree).sameShape hpath
  endpoints path side hloc hside := by
    rw [endpoint?_patch hloc hside]
    cases endpoint? path side tree with
    | none => exact .none
    | some v => exact .some (moves_patchPoint index v)

/-! ### Nodes -/

lemma contains_patchFields (key : String) (fields : Json.Fields) :
    Json.Fields.contains key (patchFields index fields) = Json.Fields.contains key fields := by
  rw [patchFields_eq_map, Json.Fields.contains,
    get?_map_values fun k u => if k = "loc" then patchLoc index u else patch index u]
  exact Option.isSome_map

mutual
/-- The nodes of a patched tree are those of the tree, each of them patched. -/
lemma nodes_patch (index : OriginIndex) (v : Json) :
    nodes (patch index v) = (nodes v).map (patch index) := by
  match v with
  | .object fields =>
    rw [patch, nodes, nodes, contains_patchFields, nodesOfFields_patchFields]
    by_cases htype : Json.Fields.contains "type" fields
    · rw [if_pos htype, if_pos htype, List.map_cons, patch]
    · rw [if_neg htype, if_neg htype]
  | .array items =>
    rw [patch, nodes, nodes, nodesOfItems_patchItems]
  | .null | .bool _ | .int _ | .float _ | .string _ => rfl

lemma nodesOfFields_patchFields (index : OriginIndex) (fields : List (String × Json)) :
    nodesOfFields (patchFields index fields) = (nodesOfFields fields).map (patch index) := by
  match fields with
  | [] => rfl
  | (key, v) :: rest =>
    rw [patchFields, nodesOfFields, nodesOfFields, nodesOfFields_patchFields]
    by_cases hkey : key = "loc"
    · rw [if_pos hkey, if_pos hkey]
    · rw [if_neg hkey, if_neg hkey, if_neg hkey, nodes_patch, List.map_append]

lemma nodesOfItems_patchItems (index : OriginIndex) (items : List Json) :
    nodesOfItems (patchItems index items) = (nodesOfItems items).map (patch index) := by
  match items with
  | [] => rfl
  | v :: vs =>
    rw [patchItems, nodesOfItems, nodesOfItems, nodes_patch, nodesOfItems_patchItems,
      List.map_append]
end

lemma point?_patchPoint_eq (index : OriginIndex) (v : Json) :
    point? (patchPoint index v) = (point? v).map fun p => (index.originOf? p).getD p := by
  cases hp : point? v with
  | none =>
    rw [patchPoint_of_eq_none (by rw [hp]; rfl), hp]
    rfl
  | some p =>
    cases ho : index.originOf? p with
    | none =>
      rw [patchPoint_of_eq_none (by rw [hp]; exact ho), hp]
      simp [ho]
    | some o =>
      rw [point?_patchPoint (by rw [hp]; exact ho)]
      simp [ho]

/-- A patched node has a range if the node has one, with each end moved or kept. -/
lemma range?_patch_eq (index : OriginIndex) (node : Json) :
    range? (patch index node) = (range? node).map (SourceRange.moved index) := by
  simp only [range?, Option.bind_eq_bind, get?_loc_patch]
  cases node.get? "loc" with
  | none => rfl
  | some loc =>
    simp only [Option.map_some, Option.bind_some, get?_patchLoc (.inl rfl), get?_patchLoc (.inr rfl)]
    cases loc.get? "start" with
    | none => rfl
    | some v =>
      simp only [Option.map_some, Option.bind_some, point?_patchPoint_eq]
      cases point? v with
      | none => rfl
      | some start =>
        simp only [Option.map_some, Option.bind_some]
        cases loc.get? "end" with
        | none => rfl
        | some w =>
          simp only [Option.map_some, Option.bind_some, point?_patchPoint_eq]
          cases point? w with
          | none => rfl
          | some stop => rfl

/-- Patching moves each endpoint by its own position and changes nothing else. So the nodes visited
are the same, in the same order, and the same ones have a range, each end of it moved or kept. -/
theorem patch_moves_endpoints (index : OriginIndex) (tree : Json) :
    IsPatched index tree (patch index tree) ∧
      nodes (patch index tree) = (nodes tree).map (patch index) ∧
      (nodes (patch index tree)).map range? =
        (nodes tree).map fun node => (range? node).map (SourceRange.moved index) := by
  refine ⟨isPatched_patch index tree, nodes_patch index tree, ?_⟩
  rw [nodes_patch, List.map_map]
  exact List.map_congr_left fun node _ => range?_patch_eq index node

end SyntaxTree

end Provenance
