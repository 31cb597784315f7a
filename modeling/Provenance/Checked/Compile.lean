import Provenance.Checked.Erasure
import Provenance.Checked.Tokens
import Provenance.Intermediate

/-!
# Compiling by offsets

A compiler that holds its source as bytes finds the indentation of a line by going back from a token
to where its line begins, and it counts the characters before an error by slicing the source at the
error's offset. `compile?` is that compiler, with every slice and every subtraction checked.
-/

namespace Provenance.Checked

open Text (byteLength)
open Intermediate (rows)

/-! ### Diagnostics -/

/-- The number of characters before a byte offset. -/
def charOffset? (text : List Char) (offset : Nat) : Option Nat :=
  (upTo? offset text).map List.length

/-- The offset of a bracket error in characters. -/
def bracketOffset? (text : List Char) : BracketError → Option Nat
  | .mismatch _ offset | .stray offset => charOffset? text offset
  | .unclosed _ => some text.length

/-- What is wrong with a source, given its tokens and its lexical errors. -/
def diagnostics? (file : SourceFile) (tokens : List Token) (errors : List LexicalError) :
    Option (List Diagnostic) := do
  let text := file.text.toList
  let error (offset : Nat) (message : String) := Diagnostic.errorAt file (.ofNat offset) message
  let lexical ← errors.mapM fun e => (charOffset? text e.offset).map (error · e.message)
  let brackets ← (bracketErrors tokens).mapM fun e =>
    (bracketOffset? text e).map (error · e.message)
  return lexical ++ brackets

/-! ### Printing -/

/-- The tokens that are kept. -/
def keptOf (ts : List Token) (keep : List Bool) : List Token :=
  ((ts.zip keep).filter (·.2)).map (·.1)

/-- The indentation of a row: the leading spaces and tabs of the line on which its first token
stands, counted in bytes. -/
def rowIndent? (text : List Char) : List Token → Option (List Char)
  | [] => some []
  | t :: _ => do
    let lineStart ← sub? t.offset t.column
    let rest ← from? lineStart text
    let indent := byteLength (rest.takeWhile fun c => c = ' ' || c = '\t')
    slice? lineStart (lineStart + indent) text

/-- A row of tokens with the indentation that it is printed with. -/
structure IndentedRow where
  indent : List Char
  row : List Token

namespace IndentedRow

def chars (r : IndentedRow) : List Char := r.indent ++ Printed.lineChars true r.row ++ ['\n']

def printed (r : IndentedRow) : List Printed := Printed.lineFrom (byteLength r.indent) true r.row

end IndentedRow

/-! ### The compiler -/

/-- Compiles typed source by erasing its types. -/
def compile? (file : SourceFile) (options : Config.CompilerOptions) : Option CompileOutput := do
  let text := file.text.toList
  let (tokens, errors) ← tokens? text
  let diagnostics ← diagnostics? file tokens errors
  let keep ← strip? tokens
  let rows ← (rows (keptOf tokens keep)).mapM fun row =>
    (rowIndent? text row).map (IndentedRow.mk · row)
  let contents := if options.flag "inlineSources" then [some file.text] else []
  let segments := rows.zipIdx.flatMap fun (r, line) => r.printed.map (Intermediate.segmentOf line)
  return {
    code := .ofList (rows.flatMap IndentedRow.chars)
    mapText := (SourceMap.ofSegments [file.path] contents segments).text
    diagnostics := diagnostics }

end Provenance.Checked
