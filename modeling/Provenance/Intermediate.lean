import Provenance.Erasure
import Provenance.Stage

/-!
# Intermediate code

Intermediate code is source with its types erased. The tokens that are kept are printed line by
line: one intermediate line for each source line that has any, indented as that line is, with one
space where a token was set off from what stood before it. The map has a segment for each printed
token. Brackets are checked on all tokens of the source, and the code is printed whatever is found.
-/

namespace Provenance

/-! ### Checking brackets -/

/-- A bracket that is wrong, missing or stray. -/
inductive BracketError where
  /-- Another closing bracket stands where `closer` belongs. -/
  | mismatch (closer : String) (offset : Nat)
  /-- A closing bracket that nothing opened. -/
  | stray (offset : Nat)
  /-- The text ends where `closer` belongs. -/
  | unclosed (closer : String)
deriving DecidableEq, Repr

namespace BracketError

def message : BracketError → String
  | .mismatch closer _ | .unclosed closer => "'" ++ closer ++ "' expected."
  | .stray _ => "Declaration or statement expected."

end BracketError

namespace Brackets

/-- The closing bracket of an opening one. -/
def closer? (text : String) : Option String :=
  if text = "(" then some ")"
  else if text = "[" then some "]"
  else if text = "\x7b" then some "\x7d"
  else none

def isCloser (text : String) : Bool := text = ")" || text = "]" || text = "\x7d"

/-- Checks tokens with the closing brackets that are still expected, the innermost first. A closing
bracket of the wrong kind takes the place of the expected one. At the end only the innermost
missing bracket is reported. -/
def check (expected : List String) : List Token → List BracketError
  | [] =>
    match expected with
    | [] => []
    | closer :: _ => [.unclosed closer]
  | t :: ts =>
    if t.kind ≠ .punctuation then check expected ts
    else match closer? t.text with
      | some closer => check (closer :: expected) ts
      | none =>
        if !isCloser t.text then check expected ts
        else match expected with
          | [] => .stray t.offset :: check [] ts
          | closer :: outer =>
            if closer = t.text then check outer ts
            else .mismatch closer t.offset :: check outer ts

end Brackets

/-- The bracket errors of tokens. -/
def bracketErrors (ts : List Token) : List BracketError := Brackets.check [] ts

/-! ### Printing -/

/-- A token with the byte column at which it is printed. -/
structure Printed where
  column : Nat
  token : Token
deriving DecidableEq, Repr

namespace Printed

/-- The space before a token, unless it leads its line. -/
def gap (leading : Bool) (t : Token) : List Char := if !leading && t.spaced then [' '] else []

/-- The tokens of a line, printed from a byte column on. -/
def lineFrom (column : Nat) (leading : Bool) : List Token → List Printed
  | [] => []
  | t :: ts =>
    let start := column + Text.byteLength (gap leading t)
    ⟨start, t⟩ :: lineFrom (start + Text.byteLength t.text.toList) false ts

/-- The text of the tokens of a line. -/
def lineChars (leading : Bool) : List Token → List Char
  | [] => []
  | t :: ts => gap leading t ++ t.text.toList ++ lineChars false ts

end Printed

namespace Intermediate

/-- The kept tokens, by source line. -/
def rows (kept : List Token) : List (List Token) := kept.splitBy fun a b => a.line == b.line

/-- The indentation of a source line: its leading spaces and tabs. -/
def indentOf (sourceLines : List (List Char)) (line : Nat) : List Char :=
  (sourceLines.getD line []).takeWhile fun c => c = ' ' || c = '\t'

/-- The indentation of a row: that of the source line on which its first token stands. -/
def rowIndent (sourceLines : List (List Char)) (row : List Token) : List Char :=
  match row with
  | [] => []
  | t :: _ => indentOf sourceLines t.line

/-- A row as a line of intermediate code, with its line feed. -/
def rowChars (sourceLines : List (List Char)) (row : List Token) : List Char :=
  rowIndent sourceLines row ++ Printed.lineChars true row ++ ['\n']

/-- The printed tokens of a row. -/
def rowPrinted (sourceLines : List (List Char)) (row : List Token) : List Printed :=
  Printed.lineFrom (Text.byteLength (rowIndent sourceLines row)) true row

/-- The intermediate code that keeps the given tokens of a source. -/
def print (source : List Char) (kept : List Token) : List Char :=
  (rows kept).flatMap (rowChars (Text.split '\n' source))

/-- The segment of a token printed on an intermediate line. -/
def segmentOf (line : Nat) (p : Printed) : NamedSegment where
  generated := ⟨.ofNat line, .ofNat p.column⟩
  origin := some ⟨.ofNat p.token.line, .ofNat p.token.column⟩
  name := none

/-- The segments of all printed tokens, in order. -/
def segments (source : List Char) (kept : List Token) : List NamedSegment :=
  let sourceLines := Text.split '\n' source
  (rows kept).zipIdx.flatMap fun (row, line) => (rowPrinted sourceLines row).map (segmentOf line)

/-! ### The compiler -/

/-- The number of characters that begin before a byte offset. -/
def charsBefore : List Char → (offset : Nat) → Nat
  | [], _ => 0
  | c :: cs, offset => if c.utf8Size ≤ offset then charsBefore cs (offset - c.utf8Size) + 1 else 0

/-- The offset of a bracket error in characters. -/
def bracketOffset (source : List Char) : BracketError → Nat
  | .mismatch _ offset | .stray offset => charsBefore source offset
  | .unclosed _ => source.length

/-- What is wrong with a source: lexical errors, then bracket errors. -/
def diagnostics (file : SourceFile) : List Diagnostic :=
  let source := file.text.toList
  let error (offset : Nat) (message : String) := Diagnostic.errorAt file (.ofNat offset) message
  (lexicalErrors source).map (fun e => error (charsBefore source e.offset) e.message) ++
  (bracketErrors (tokens source)).map fun e => error (bracketOffset source e) e.message

/-- The map of intermediate code to its source. The source is kept in it if the options ask. -/
def map (file : SourceFile) (options : Config.CompilerOptions) : SourceMap :=
  let source := file.text.toList
  .ofSegments [file.path] (if options.flag "inlineSources" then [some file.text] else [])
    (segments source (keptTokens (tokens source)))

/-- The intermediate code of a source. -/
def code (source : String) : String :=
  .ofList (print source.toList (keptTokens (tokens source.toList)))

/-- Compiles typed source by erasing its types. -/
def compile (file : SourceFile) (options : Config.CompilerOptions) : CompileOutput where
  code := code file.text
  mapText := (map file options).text
  diagnostics := diagnostics file

/-- The first stage that erases types. -/
def eraser : Compiler := ⟨compile⟩

end Intermediate

end Provenance
