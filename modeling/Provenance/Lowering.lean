import Provenance.Stage
import Provenance.SyntaxTree
import Provenance.Text.Lines

/-!
# Lowered code

Lowering makes a strict program of plain code: the prologue, then each line with a leading `const`
or `let` replaced by `var`. It reports a map with an entry for each word, named where a word is
what a declaration declares, and a tree with a statement for each line that begins one. A line that
begins with the word `with` has no place in a strict program.
-/

namespace Provenance

/-- The form in which lowering reports its map. -/
inductive MapForm where
  | raw
  | structured
deriving DecidableEq, Repr

namespace Lowering

/-- A word that strict programs do not allow. -/
inductive Rejection where
  | withStatement (fileName : String) (line column : Nat)
deriving DecidableEq, Repr

def Rejection.message : Rejection → String
  | .withStatement fileName line column =>
    fileName ++ ": 'with' is not allowed in strict mode " ++ s!"({line}:{column})"

/-! ### Lines -/

/-- A word of a line: where it stands, where it is written, and the name it declares. -/
structure Word where
  column : Nat
  written : Nat
  name : Option String
deriving DecidableEq, Repr

/-- A line after lowering. -/
structure Line where
  text : List Char
  words : List Word
  indent : Nat
  declares : Bool
deriving DecidableEq, Repr

def isNameChar (c : Char) : Bool := c.isAlphanum || c = '_' || c = '$'

/-- The name that begins a word, if it begins with one. -/
def leadingName? (word : List Char) : Option String :=
  match word.takeWhile isNameChar with
  | [] => none
  | cs => some (.ofList cs)

/-- The keyword of a declaration, if a word is one. -/
def keyword? (word : List Char) : Option (List Char) :=
  if ["const".toList, "let".toList, "var".toList].contains word then some word else none

/-- The words after the first, moved by the length that the keyword lost. Only the word right
after a keyword is named. -/
def laterWords (shift : Nat) (declares : Bool) : List (Nat × List Char) → List Word
  | [] => []
  | (column, word) :: rest =>
    ⟨column, column - shift, if declares then leadingName? word else none⟩ ::
      rest.map fun (column, _) => ⟨column, column - shift, none⟩

/-- One line lowered. -/
def lower (line : List Char) : Line :=
  match Text.words line with
  | [] => ⟨line, [], 0, false⟩
  | (column, first) :: rest =>
    match keyword? first with
    | some keyword =>
      let before := line.takeWhile isBlank
      ⟨before ++ "var".toList ++ line.drop (before.length + keyword.length),
        ⟨column, column, none⟩ :: laterWords (keyword.length - 3) true rest, column, true⟩
    | none => ⟨line, ⟨column, column, none⟩ :: laterWords 0 false rest, column, false⟩

/-- The first word of a line. -/
def firstWord? (line : List Char) : Option (List Char) := (Text.words line).head?.map (·.2)

/-! ### Code -/

/-- The line before all others. -/
def prologue : List Char := "\"use strict\";".toList

/-- The program of lowered lines. It ends with a line feed if its source does. -/
def program (source : List Char) (lowered : List Line) : List Char :=
  prologue ++ lowered.flatMap (fun l => '\n' :: l.text) ++
    (if source.getLast? = some '\n' then ['\n'] else [])

/-! ### Maps -/

/-- The words of lines with the numbers of their lines, from zero. -/
def numberedWords (lowered : List Line) : List (Nat × Word) :=
  lowered.zipIdx.flatMap fun (l, n) => l.words.map (n, ·)

/-- The mappings of a program. The prologue has no origin; each line stands one line lower. -/
def rawMap (lowered : List Line) : List RawMapping :=
  ⟨⟨1, 0⟩, none, none⟩ :: (numberedWords lowered).map fun (n, w) =>
    ⟨⟨.ofNat (n + 2), .ofNat w.written⟩, some ⟨.ofNat (n + 1), .ofNat w.column⟩, w.name⟩

/-- The structured map of a program. A file without words is no source of it. -/
def structuredMap (fileName : String) (lowered : List Line) : SourceMap :=
  let words := numberedWords lowered
  .ofSegments (if words.isEmpty then [] else [fileName]) []
    (⟨⟨0, 0⟩, none, none⟩ :: words.map fun (n, w) =>
      ⟨⟨.ofNat (n + 1), .ofNat w.written⟩, some ⟨.ofNat n, .ofNat w.column⟩, w.name⟩)

/-! ### The tree -/

/-- The kind of statement that a line begins. -/
def statementKind (line : List Char) : String :=
  match (firstWord? line).map String.ofList with
  | some "const" | some "let" | some "var" => "VariableDeclaration"
  | some "function" => "FunctionDeclaration"
  | some "return" => "ReturnStatement"
  | some "if" => "IfStatement"
  | _ => "ExpressionStatement"

/-- Whether a line begins a statement: it is not blank and does not begin with a closing brace. -/
def beginsStatement (line : List Char) : Bool :=
  match Text.trimStart line with
  | [] => false
  | c :: _ => c ≠ '\x7d'

/-- The node of a line that begins a statement, from its first word to its last. -/
def statement (n : Nat) (source : List Char) (l : Line) : Json :=
  let trimmed := Text.trimEnd source
  let loc := SyntaxTree.locOf (SyntaxTree.pointOf (n + 1) l.indent)
    (SyntaxTree.pointOf (n + 1) (Text.byteLength trimmed))
  let kind := if l.declares then [("kind", Json.string "var")] else []
  .object (kind ++ [("loc", loc), ("type", .string (statementKind trimmed))])

/-- The statements of source lines. -/
def statements (sourceLines : List (List Char)) : List Json :=
  (sourceLines.zipIdx.filter fun (line, _) => beginsStatement line).map fun (line, n) =>
    statement n line (lower line)

/-- The directive that the prologue stands for. -/
def directive : Json :=
  .object [("type", .string "Directive"), ("value", .string "use strict")]

/-- The tree of a program, located in its source. Without statements there is no body. -/
def tree (fileName : String) (source : String) : Json :=
  let file : SourceFile := ⟨fileName, source⟩
  let loc := SyntaxTree.rangeJson ⟨⟨1, 0⟩, file.position source.toList.length⟩
  let body := statements (Text.lines source.toList)
  .object ((if body.isEmpty then [] else [("body", .array body)]) ++
    [("directives", .array [directive]), ("loc", loc), ("type", .string "Program")])

/-! ### The transformer -/

/-- The first line that begins with the forbidden word. -/
def rejection? (fileName : String) (sourceLines : List (List Char)) : Option Rejection :=
  (sourceLines.zipIdx.find? fun (line, _) => firstWord? line = some "with".toList).map
    fun (line, n) => .withStatement fileName (n + 1) (lower line).indent

/-- Lowers a source. -/
def transform (form : MapForm) (fileName source : String) : Except Rejection TransformOutput :=
  let sourceLines := Text.lines source.toList
  match rejection? fileName sourceLines with
  | some r => .error r
  | none =>
    let lowered := sourceLines.map lower
    .ok {
      code := some (.ofList (program source.toList lowered))
      tree := some (tree fileName source)
      map := some (match form with
        | .raw => .raw (rawMap lowered)
        | .structured => .structured (structuredMap fileName lowered))
      metadata := [("strict", .bool true)] }

def formName : MapForm → String
  | .raw => "raw"
  | .structured => "structured"

/-- The second stage that lowers code. -/
def transformer (form : MapForm) : Transformer where
  transform request := (transform form request.fileName request.source).mapError Rejection.message
  fingerprint := some ("lowering-1-" ++ formName form)

/-- The second stage that lowers code, taking its arguments one by one. -/
def positional (form : MapForm) : PositionalTransformer where
  transform source fileName _ := (transform form fileName source).mapError Rejection.message

end Lowering

end Provenance
