import Provenance.Checked.Access
import Provenance.Lowering

/-!
# Lowering by offsets

Lowering that holds its lines as bytes cuts words out of them where blanks end, takes the keyword
of a declaration out by its offset and its length, moves the words after it by subtraction, and
looks up the line that it rejects by its number. The end of its tree is found by a search among the
offsets at which lines begin, and its line and column are counted from one in words. `transform?` is
that lowering, with every slice, every index, every subtraction and both of these sums checked.
-/

namespace Provenance.Checked

open Text (byteLength)
open Lowering (Line Rejection isNameChar keyword? firstWord?)

/-! ### Lines and columns -/

/-- The number of the line on which an offset stands: that of the line which begins there, or of the
one before the place where such a line would come. -/
def lineOf? (starts : Array Nat) (offset : Nat) : Option Nat :=
  let found := partitionPoint starts (· < offset)
  if starts[found]? = some offset then some found else sub? found 1

/-- Line and column of an offset, both counted from one; both sums must fit words. -/
def locate? (index : LineIndex) (offset : Nat) : Option (Nat × Nat) := do
  let offset := min offset index.length
  let line ← lineOf? index.starts offset
  let start ← index.starts[line]?
  return (← add? (word line) 1, ← add? (← sub? offset start) 1)

/-- An index that keeps its numbers in words. -/
def wordIndex (index : LineIndex) : LineIndex := ⟨index.starts.map word, word index.length⟩

/-! ### Words -/

/-- The words of a line from a byte offset on, when a word began at `start`, or none did. -/
def wordsFrom? (line : List Char) (start : Option Nat) (offset : Nat) :
    List Char → Option (List (Nat × List Char))
  | [] =>
    match start with
    | none => some []
    | some start => (from? start line).map fun w => [(word start, w)]
  | c :: cs =>
    if isBlank c then
      match start with
      | none => wordsFrom? line none (offset + c.utf8Size) cs
      | some start => do
        let w ← slice? start offset line
        return (word start, w) :: (← wordsFrom? line none (offset + c.utf8Size) cs)
    else wordsFrom? line (some (start.getD offset)) (offset + c.utf8Size) cs

/-- The words of a line with their byte columns. -/
def words? (line : List Char) : Option (List (Nat × List Char)) := wordsFrom? line none 0 line

/-- The name that begins a word, if it begins with one. -/
def leadingName? (w : List Char) : Option (Option String) :=
  let stop := byteLength (w.takeWhile isNameChar)
  if 0 < stop then (upTo? stop w).map (some ∘ .ofList) else some none

/-- A word after the first, moved by the length that the keyword lost. -/
def laterWord? (shift : Nat) (named : Bool) (w : Nat × List Char) : Option Lowering.Word := do
  let written ← sub? w.1 shift
  if named then return ⟨w.1, written, ← leadingName? w.2⟩ else return ⟨w.1, written, none⟩

/-- The words after the first. Only the word right after a keyword is named. -/
def laterWords? (shift : Nat) (declares : Bool) :
    List (Nat × List Char) → Option (List Lowering.Word)
  | [] => some []
  | w :: ws => do return (← laterWord? shift declares w) :: (← ws.mapM (laterWord? shift false))

/-! ### Lines -/

/-- One line lowered. -/
def lower? (line : List Char) : Option Line := do
  match ← words? line with
  | [] => return ⟨line, [], 0, false⟩
  | (column, first) :: rest =>
    match keyword? first with
    | some keyword =>
      let shift ← sub? (byteLength keyword) 3
      let before ← upTo? column line
      let after ← from? (column + byteLength keyword) line
      return ⟨before ++ "var".toList ++ after,
        ⟨column, column, none⟩ :: (← laterWords? shift true rest), column, true⟩
    | none => return ⟨line, ⟨column, column, none⟩ :: (← laterWords? 0 false rest), column, false⟩

/-! ### The transformer -/

/-- The statements of lines that were lowered. -/
def statements (sourceLines : List (List Char)) (lowered : List Line) : List Json :=
  ((sourceLines.zip lowered).zipIdx.filter fun ((line, _), _) => Lowering.beginsStatement line).map
    fun ((line, l), n) => Lowering.statement n line l

/-- The tree of a program, located in its source. -/
def tree? (source : List Char) (lowered : List Line) : Option Json := do
  let (line, column) ← locate? (wordIndex (.ofChars source)) (word source.length)
  let stop ← (sub? column 1).map (SyntaxTree.pointOf line)
  let body := statements (Text.lines source) lowered
  return .object ((if body.isEmpty then [] else [("body", .array body)]) ++
    [("directives", .array [Lowering.directive]),
      ("loc", SyntaxTree.locOf (SyntaxTree.pointOf 1 0) stop), ("type", .string "Program")])

/-- Lowers a source. -/
def transform? (form : MapForm) (fileName source : String) :
    Option (Except Rejection TransformOutput) := do
  let sourceLines := Text.lines source.toList
  let lowered ← sourceLines.mapM lower?
  match sourceLines.zipIdx.find? fun (line, _) => firstWord? line = some "with".toList with
  | some (_, n) =>
    let line ← lowered[n]?
    return .error (.withStatement fileName (n + 1) line.indent)
  | none =>
    let tree ← tree? source.toList lowered
    return .ok {
      code := some (.ofList (Lowering.program source.toList lowered))
      tree := some tree
      map := some (match form with
        | .raw => .raw (Lowering.rawMap lowered)
        | .structured => .structured (Lowering.structuredMap fileName lowered))
      metadata := [("strict", .bool true)] }

end Provenance.Checked
