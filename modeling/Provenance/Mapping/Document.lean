import Provenance.Json.Printer
import Provenance.Json.Reader
import Provenance.Mapping.Document.Form
import Provenance.Mapping.Segments

/-!
# Structured maps as documents

A structured map is stored as a JSON object. A map that is an index of sections, or that carries
scopes, is recognised but not used; problems of the maps inside it are still reported first. Main
definitions: `toJson` and `text` write a map, `ofJson` and `ofText` read it.
-/

namespace Provenance.SourceMap

/-! ### Reading -/

def texts (v : Json) : List (Option String) := (v.items?.getD []).map Json.string?

/-- A name as documents give it: text as it is, a number by its own text, all else empty. -/
def nameText : Json → String
  | .string s => s
  | .int n => (Json.int n).text
  | .float x => (Json.float x).text
  | _ => ""

/-- A field that is there and not null. -/
def present? (name : String) (fields : Json.Fields) : Option Json :=
  match Json.Fields.get? name fields with
  | some .null => none
  | found => found

/-- Words in increasing order, each once. -/
def distinctSorted (ws : List UInt32) : List UInt32 :=
  ws.eraseDups.mergeSort (· ≤ ·)

/-- The map of rightly typed fields, its segments read. -/
def ofFields (fields : Json.Fields) : Except MapFormatError SourceMap := do
  let sources := ((present? "sources" fields).map texts).getD [] |>.map (·.getD "")
  let names := (((present? "names" fields).bind Json.items?).getD []).map nameText
  let text (name : String) := ((present? name fields).bind Json.string?).getD ""
  let segments ←
    Segments.read sources.length names.length (text "mappings") (text "rangeMappings")
  let debugId := (present? "debugId" fields).orElse fun _ => present? "debug_id" fields
  return {
    file := (present? "file" fields).map fun v => v.string?.getD "<invalid>"
    sourceRoot := (present? "sourceRoot" fields).bind Json.string?
    sources := sources
    contents := ((present? "sourcesContent" fields).map texts).getD []
    names := names
    segments := Segment.arrange segments
    ignored := distinctSorted
      ((((present? "ignoreList" fields).bind Json.items?).getD []).filterMap Json.word?)
    debugId := (debugId.bind Json.string?).bind DebugId.ofText? }

mutual
/-- The problems of a rightly typed map, those of its sections if it has any; what is no map has no
problems. -/
def checkMap : Json → Except MapFormatError Unit
  | .object fields =>
    match checkSectionsAmong fields with
    | some checked => checked
    | none => (ofFields fields).map fun _ => ()
  | _ => return

/-- The problems of the sections among the fields; none if there are no sections. -/
def checkSectionsAmong : List (String × Json) → Option (Except MapFormatError Unit)
  | [] => none
  | (name, .array items) :: rest =>
    if name = "sections" then some (checkSections items) else checkSectionsAmong rest
  | _ :: rest => checkSectionsAmong rest

def checkSections : List Json → Except MapFormatError Unit
  | [] => return
  | .object fields :: rest => do
    checkMapAmong fields
    checkSections rest
  | .array [_, _, map] :: rest => do
    checkMap map
    checkSections rest
  | _ :: rest => checkSections rest

/-- The problems of the map among the fields of a section. -/
def checkMapAmong : List (String × Json) → Except MapFormatError Unit
  | [] => return
  | (name, v) :: rest => if name = "map" then checkMap v else checkMapAmong rest
end

/-- Reads a map from its document, the fields of its objects as written. -/
def ofDocument (v : Json) : Except MapFormatError SourceMap :=
  match v with
  | .object fields =>
    if !Field.isMap v then .error .badJson
    else if (present? "sections" fields).isSome || (present? "x_facebook_sources" fields).isSome then
      match checkMap v with
      | .ok () => .error .incompatible
      | .error e => .error e
    else ofFields fields
  | _ => .error .badJson

/-- The characters that begin a header which keeps a document from being run as a program. -/
def isHeaderMark (c : Char) : Bool := c = ')' || c = ']' || c = '}' || c = '\x27'

/-- The text after a header: from the first line feed on. A carriage return in the header must
stand before a line feed. -/
def afterHeader : List Char → Except MapFormatError (List Char)
  | [] => .ok []
  | '\n' :: rest => .ok ('\n' :: rest)
  | '\r' :: c :: rest => if c = '\n' then .ok (c :: rest) else .error .noLineFeed
  | _ :: rest => afterHeader rest

/-- The text without its header, if it has one. -/
def withoutHeader : List Char → Except MapFormatError (List Char)
  | [] => .ok []
  | c :: rest => if isHeaderMark c then afterHeader rest else .ok (c :: rest)

/-- Reads a map from its text. -/
def ofText (text : String) : Except MapFormatError SourceMap := do
  let body ← withoutHeader text.toList
  match (Json.Written.ofText? (.ofList body)).bind fun w => (Part.map.keep w).toJson? with
  | some v => ofDocument v
  | none => throw .badJson

/-- Reads a map that is given as a value. A number among its names is named by its text, which is
read once more. -/
def ofJson (v : Json) : Except MapFormatError SourceMap := ofText v.text

/-! ### Writing -/

/-- The fields of a map in key order, absent ones left out. -/
def toFields (map : SourceMap) : Json.Fields :=
  let field (name : String) (value : Option Json) : Json.Fields :=
    match value with
    | some v => [(name, v)]
    | none => []
  let contents := map.sourceContents
  field "debugId" (map.debugId.map fun d => .string d.text) ++
  field "file" (map.file.map .string) ++
  field "ignoreList" (if map.ignored.isEmpty then none else some (.array (map.ignored.map .word))) ++
  [("mappings", .string (.ofList (Segments.write map.segments))),
    ("names", .array (map.names.map .string))] ++
  field "rangeMappings" ((Segments.writeRanges? map.segments).map fun cs => .string (.ofList cs)) ++
  field "sourceRoot" (map.sourceRoot.map .string) ++
  [("sources", .array (map.sources.map .string))] ++
  field "sourcesContent"
    (if contents.any Option.isSome then
      some (.array (contents.map fun c => .ofOption (c.map .string)))
    else none) ++
  [("version", .int 3)]

/-- The document of a map. -/
def toJson (map : SourceMap) : Json := .object map.toFields

/-- The text of a map. -/
def text (map : SourceMap) : String := map.toJson.text

end Provenance.SourceMap
