import Provenance.Json.Written
import Provenance.Mapping.DebugId

/-!
# The form of a map's document

A map is an object whose known fields may each stand once, be null, and otherwise must have their
type. A map may also be an index: a list of sections, each with an offset and a map of its own.
The records within a map, which are sections, offsets and scopes, may also be spelled as the array
of their fields; of their unknown fields nothing is read. Main definitions: `Part.keep` drops what
is not read, and `Field.isMap` says whether the rest has the form of a map.
-/

namespace Provenance.SourceMap

/-! ### What is read -/

/-- What stands at a place in the document of a map. -/
inductive Part where
  /-- A value that is read as a whole. -/
  | whole
  /-- A value that is passed over. -/
  | ignored
  | map
  | sections
  | sectionRecord
  | offset
  | scopesOfSources
  | scopesOfSource
  | scope
deriving DecidableEq, Repr

namespace Part

/-- The part at a field of an object. -/
def field (name : String) : Part → Part
  | .map =>
    if name = "sections" then .sections
    else if name = "x_facebook_sources" then .scopesOfSources
    else .whole
  | .sectionRecord =>
    if name = "offset" then .offset
    else if name = "url" then .whole
    else if name = "map" then .map
    else .ignored
  | .offset => if name = "line" ∨ name = "column" then .whole else .ignored
  | .scope => if name = "names" ∨ name = "mappings" then .whole else .ignored
  | _ => .whole

/-- The part at a place in an array. -/
def item (place : Nat) : Part → Part
  | .sections => .sectionRecord
  | .sectionRecord => if place = 0 then .offset else if place = 2 then .map else .whole
  | .scopesOfSources => .scopesOfSource
  | .scopesOfSource => .scope
  | _ => .whole

open Json (Written)

mutual
/-- The form of a part with null in place of all that is passed over. -/
def keep (part : Part) : Written → Written
  | .array items => if part = .ignored then .null else .array (keepItems part 0 items)
  | .object fields => if part = .ignored then .null else .object (keepFields part fields)
  | w => if part = .ignored then .null else w

def keepItems (part : Part) (place : Nat) : List Written → List Written
  | [] => []
  | w :: ws => keep (part.item place) w :: keepItems part (place + 1) ws

def keepFields (part : Part) :
    List (List Json.Quoted.Piece × Written) → List (List Json.Quoted.Piece × Written)
  | [] => []
  | (key, w) :: rest =>
    let among := match Written.text? key with
      | some name => part.field name
      | none => .whole
    (key, keep among w) :: keepFields part rest
end

end Part

/-! ### Types of fields -/

namespace Field

def nullOr (ok : Json → Bool) : Json → Bool
  | .null => true
  | v => ok v

def isString : Json → Bool
  | .string _ => true
  | _ => false

def isWord (v : Json) : Bool := v.word?.isSome

def listOf (ok : Json → Bool) : Json → Bool
  | .array items => items.all ok
  | _ => false

def isDebugId : Json → Bool
  | .string s => (DebugId.ofText? s).isSome
  | _ => false

/-- A record: an object that has each of the fields once, rightly typed, and perhaps others, or
the array of the fields. -/
def isRecord (known : List (String × (Json → Bool))) : Json → Bool
  | .object fields =>
    known.all fun (name, ok) =>
      match fields.filter (·.1 = name) with
      | [(_, v)] => ok v
      | _ => false
  | .array items => items.length = known.length && (known.zip items).all fun (field, v) => field.2 v
  | _ => false

/-- The scopes of a source: names, and where they begin. -/
def isScope : Json → Bool := isRecord [("names", listOf isString), ("mappings", isString)]

/-- The known fields with plain types. Besides them only `sections` is known. -/
def plain : List (String × (Json → Bool)) := [
  ("version", isWord),
  ("file", fun _ => true),
  ("sources", listOf (nullOr isString)),
  ("sourceRoot", isString),
  ("sourcesContent", listOf (nullOr isString)),
  ("names", listOf fun _ => true),
  ("rangeMappings", isString),
  ("mappings", isString),
  ("ignoreList", listOf isWord),
  ("x_facebook_offsets", listOf (nullOr isWord)),
  ("x_metro_module_paths", listOf isString),
  ("x_facebook_sources", listOf (nullOr (listOf isScope))),
  ("debug_id", isDebugId),
  ("debugId", isDebugId)]

/-- No known field occurs twice. -/
def once (fields : Json.Fields) : Bool :=
  ("sections" :: plain.map (·.1)).all fun name => (fields.filter (·.1 = name)).length ≤ 1

/-- Where a section begins. -/
def isOffset : Json → Bool := isRecord [("line", isWord), ("column", isWord)]

mutual
/-- Whether a value has the form of a map. -/
def isMap : Json → Bool
  | .object fields => once fields && areMapFields fields
  | _ => false

def areMapFields : List (String × Json) → Bool
  | [] => true
  | (name, value) :: rest =>
    (if name = "sections" then isSections value
      else match plain.lookup name with
        | some ok => nullOr ok value
        | none => true) && areMapFields rest

def isSections : Json → Bool
  | .null => true
  | .array items => areSections items
  | _ => false

def areSections : List Json → Bool
  | [] => true
  | s :: rest => isSection s && areSections rest

/-- A section: where it begins, perhaps an address, and perhaps a map. -/
def isSection : Json → Bool
  | .object fields =>
    (fields.filter (·.1 = "offset")).length = 1 && (fields.filter (·.1 = "url")).length ≤ 1 &&
      (fields.filter (·.1 = "map")).length ≤ 1 && areSectionFields fields
  | .array [offset, url, map] =>
    isOffset offset && nullOr isString url && (map = .null || isMap map)
  | _ => false

def areSectionFields : List (String × Json) → Bool
  | [] => true
  | (name, value) :: rest =>
    (if name = "offset" then isOffset value
      else if name = "url" then nullOr isString value
      else if name = "map" then value = .null || isMap value
      else true) && areSectionFields rest
end

end Field

end Provenance.SourceMap
