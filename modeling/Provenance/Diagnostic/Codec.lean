import Provenance.Diagnostic.Basic
import Provenance.Json.Decode

/-!
# Diagnostics as JSON

Encoding leaves out an empty list of explanations and writes a missing file or offset as null;
decoding takes either as absent.
-/

namespace Provenance

/-! ### Severity -/

namespace Severity

def toJson (s : Severity) : Json := .string s.name

/-- The severity of a name. -/
def decodeName (name : String) : Except DecodeError Severity :=
  match ofName? name with
  | some s => .ok s
  | none => .error (.unknownVariant name (all.map Severity.name))

/-- A severity is its name, or an object whose only key is the name, with null. -/
def ofJson : Json → Except DecodeError Severity
  | .string name => decodeName name
  | .object [(name, content)] => do
    let s ← decodeName name
    match content with
    | .null => return s
    | v => throw (.wrongType v "unit")
  | .object _ => throw .notOneKey
  | v => throw (.wrongType v "string or map")

end Severity

/-! ### Message chains -/

namespace MessageChain

mutual
def toJson : MessageChain → Json
  | ⟨text, []⟩ => .object [("text", .string text)]
  | ⟨text, m :: ms⟩ =>
    .object [("next", .array (toJsonAll (m :: ms))), ("text", .string text)]

def toJsonAll : List MessageChain → List Json
  | [] => []
  | m :: ms => toJson m :: toJsonAll ms
end

mutual
def ofJson : Json → Except DecodeError MessageChain
  | .object fields => do
    match ← ofFields fields with
    | (some text, next) => return ⟨text, next.getD []⟩
    | (none, _) => throw (.missingField "text")
  | .array [] => throw (.wrongLength 0 "struct MessageChain with 2 elements")
  | .array [text] => do
    let text ← Decode.string text
    return ⟨text, []⟩
  | .array [text, next] => do
    let text ← Decode.string text
    let next ← ofList next
    return ⟨text, next⟩
  | .array (text :: next :: v :: vs) => do
    let _ ← Decode.string text
    let _ ← ofList next
    throw (Decode.tooLong (text :: next :: v :: vs))
  | v => throw (.wrongType v "struct MessageChain")

/-- The text and the explanations among the fields, if there. -/
def ofFields : List (String × Json) →
    Except DecodeError (Option String × Option (List MessageChain))
  | [] => return (none, none)
  | (key, value) :: rest =>
    if key = "text" then do
      let text ← Decode.string value
      let (_, next) ← ofFields rest
      return (some text, next)
    else if key = "next" then do
      let next ← ofList value
      let (text, _) ← ofFields rest
      return (text, some next)
    else ofFields rest

def ofList : Json → Except DecodeError (List MessageChain)
  | .array items => ofItems items
  | v => throw (.wrongType v "a sequence")

def ofItems : List Json → Except DecodeError (List MessageChain)
  | [] => return []
  | v :: vs => do
    let m ← ofJson v
    let ms ← ofItems vs
    return m :: ms
end

end MessageChain

/-! ### Files -/

namespace SourceFile

def toJson (file : SourceFile) : Json :=
  .object [("name", .string file.path), ("text", .string file.text)]

def ofJson : Json → Except DecodeError SourceFile
  | .object fields => do
    Decode.inOrder
      [("name", Decode.check Decode.string), ("text", Decode.check Decode.string)] fields
    let name ← Decode.required "name" Decode.string fields
    let text ← Decode.required "text" Decode.string fields
    return ⟨name, text⟩
  | .array items =>
    match items with
    | name :: text :: extra => do
      let name ← Decode.string name
      let text ← Decode.string text
      if extra.isEmpty then return ⟨name, text⟩ else throw (Decode.tooLong items)
    | name :: [] => do
      let _ ← Decode.string name
      throw (.wrongLength 1 "struct DiagnosticFile with 2 elements")
    | [] => throw (.wrongLength 0 "struct DiagnosticFile with 2 elements")
  | v => throw (.wrongType v "struct DiagnosticFile")

end SourceFile

/-! ### Diagnostics -/

namespace Diagnostic

def toJson (d : Diagnostic) : Json :=
  .object [
    ("file", .ofOption (d.file.map SourceFile.toJson)),
    ("message", d.message.toJson),
    ("severity", d.severity.toJson),
    ("start", .ofOption (d.start.map .word))]

def ofJson : Json → Except DecodeError Diagnostic
  | .object fields => do
    Decode.inOrder [
      ("severity", Decode.check Severity.ofJson),
      ("message", Decode.check MessageChain.ofJson),
      ("file", Decode.check (Decode.nullable SourceFile.ofJson)),
      ("start", Decode.check (Decode.nullable Decode.word))] fields
    let severity ← Decode.required "severity" Severity.ofJson fields
    let message ← Decode.required "message" MessageChain.ofJson fields
    let file ← Decode.optional "file" SourceFile.ofJson fields
    let start ← Decode.optional "start" Decode.word fields
    return ⟨severity, message, file, start⟩
  | .array items =>
    match items with
    | [] => throw (.wrongLength 0 "struct CompilerDiagnostic with 4 elements")
    | severity :: rest => do
      let severity ← Severity.ofJson severity
      match rest with
      | [] => throw (.wrongLength 1 "struct CompilerDiagnostic with 4 elements")
      | message :: rest => do
        let message ← MessageChain.ofJson message
        let file ← Decode.nullable SourceFile.ofJson (rest.head?.getD .null)
        let start ← Decode.nullable Decode.word ((rest.drop 1).head?.getD .null)
        if rest.length ≤ 2 then return ⟨severity, message, file, start⟩
        else throw (Decode.tooLong items)
  | v => throw (.wrongType v "struct CompilerDiagnostic")

/-- A list of diagnostics. -/
def listOfJson (v : Json) : Except DecodeError (List Diagnostic) := Decode.list ofJson v

end Diagnostic

end Provenance
