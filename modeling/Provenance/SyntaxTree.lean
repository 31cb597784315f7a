import Provenance.Json.Basic
import Provenance.Mapping.OriginIndex

/-!
# Located syntax trees

A syntax tree is whatever JSON a transformer reports. Its nodes are the objects with a `type`;
an object with a `loc` that holds the points `start` and `end` is located, wherever it stands.
`patch` moves the points of every located object through an index and leaves all else alone.
-/

namespace Provenance

/-- Where a node begins, and the place just past it. -/
structure SourceRange where
  start : Position
  stop : Position
deriving DecidableEq, Repr

namespace SyntaxTree

/-! ### Points and ranges -/

/-- The position that a value with a line and a column stands for. -/
def point? (v : Json) : Option Position :=
  match v with
  | .object fields => do
    let line ← (← Json.Fields.get? "line" fields).word?
    let column ← (← Json.Fields.get? "column" fields).word?
    return ⟨line, column⟩
  | _ => none

/-- The range of a node, when both its points are well formed. -/
def range? (node : Json) : Option SourceRange := do
  let loc ← node.get? "loc"
  let start ← point? (← loc.get? "start")
  let stop ← point? (← loc.get? "end")
  return ⟨start, stop⟩

/-- A line and a column as a point of a tree. -/
def pointOf (line column : Nat) : Json := .object [("column", .int column), ("line", .int line)]

/-- A pair of points as the location of a node. -/
def locOf (start stop : Json) : Json := .object [("end", stop), ("start", start)]

def rangeJson (r : SourceRange) : Json :=
  locOf (pointOf r.start.line.toNat r.start.column.toNat)
    (pointOf r.stop.line.toNat r.stop.column.toNat)

/-! ### Building nodes -/

/-- A node of the given type with no other fields. -/
def node (kind : String) : Json := .object [("type", .string kind)]

def kind? (node : Json) : Option String := (node.get? "type").bind Json.string?

/-- The node with a field set. What is no object stays as it is. -/
def setField (key : String) (value : Json) : Json → Json
  | .object fields => .object (Json.Fields.insert key value fields)
  | v => v

/-- The node with its location set. -/
def setLocation (loc : Json) (node : Json) : Json := setField "loc" loc node

/-- The node with a child added to the list at a key. What is no list there gives way to one. -/
def addChild (key : String) (child : Json) : Json → Json
  | .object fields =>
    let items := ((Json.Fields.get? key fields).bind Json.items?).getD []
    .object (Json.Fields.insert key (.array (items ++ [child])) fields)
  | v => v

/-! ### Visiting -/

mutual
/-- The nodes of a tree, parents first and fields in order; locations are not entered. -/
def nodes : Json → List Json
  | .object fields =>
    if Json.Fields.contains "type" fields then .object fields :: nodesOfFields fields
    else nodesOfFields fields
  | .array items => nodesOfItems items
  | _ => []

def nodesOfFields : List (String × Json) → List Json
  | [] => []
  | (key, value) :: rest =>
    if key = "loc" then nodesOfFields rest else nodes value ++ nodesOfFields rest

def nodesOfItems : List Json → List Json
  | [] => []
  | v :: vs => nodes v ++ nodesOfItems vs
end

/-! ### Patching -/

/-- A point moved to its origin; one that has none, or is malformed, stays. -/
def patchPoint (index : OriginIndex) (v : Json) : Json :=
  match v, (point? v).bind index.originOf? with
  | .object fields, some p =>
    .object (Json.Fields.insert "column" (.word p.column)
      (Json.Fields.insert "line" (.word p.line) fields))
  | v, _ => v

/-- A location with each of its two points moved on its own. -/
def patchLoc (index : OriginIndex) : Json → Json
  | .object fields =>
    .object (fields.map fun (key, value) =>
      if key = "start" ∨ key = "end" then (key, patchPoint index value) else (key, value))
  | v => v

mutual
/-- The tree with every location moved through an index. -/
def patch (index : OriginIndex) : Json → Json
  | .object fields => .object (patchFields index fields)
  | .array items => .array (patchItems index items)
  | v => v

def patchFields (index : OriginIndex) : List (String × Json) → List (String × Json)
  | [] => []
  | (key, value) :: rest =>
    (key, if key = "loc" then patchLoc index value else patch index value) ::
      patchFields index rest

def patchItems (index : OriginIndex) : List Json → List Json
  | [] => []
  | v :: vs => patch index v :: patchItems index vs
end

end SyntaxTree

end Provenance
