import Provenance.PartitionPoint
import Provenance.Position

/-!
# Source files and their lines

A `LineIndex` holds the offset at which each line of a text begins, so that an offset becomes a
line and a column by binary search. Offsets and columns count characters, only a line feed
begins a line, and an offset past the end stands for the end. Lines and columns are words of 32
bits that count from one, so the one after the greatest word is zero.
-/

namespace Provenance

/-! ### The line index -/

/-- Where the lines of a text begin, and how long the text is, in characters. -/
structure LineIndex where
  starts : Array Nat
  length : Nat
deriving Repr

namespace LineIndex

/-- The offsets just past each line feed of a text that begins at the given offset. -/
def startsFrom (offset : Nat) : List Char → List Nat
  | [] => []
  | c :: cs =>
    if c = '\n' then (offset + 1) :: startsFrom (offset + 1) cs else startsFrom (offset + 1) cs

/-- The index of a text. The first line begins at zero. -/
def ofChars (cs : List Char) : LineIndex := ⟨(0 :: startsFrom 0 cs).toArray, cs.length⟩

/-- The number of lines. -/
def lineCount (index : LineIndex) : Nat := index.starts.size

/-- Line and column of an offset, both counted from one. The sums wrap around. -/
def locate (index : LineIndex) (offset : Nat) : UInt32 × UInt32 :=
  let offset := min offset index.length
  let line := partitionPoint index.starts (· ≤ offset) - 1
  (.ofNat line + 1, .ofNat (offset - index.starts.getD line 0) + 1)

end LineIndex

/-! ### Files -/

/-- A named text. -/
structure SourceFile where
  path : String
  text : String
deriving DecidableEq, Repr

/-- A place in a named file, with line and column counted from one, as shown to people. -/
structure Location where
  file : String
  line : Nat
  column : Nat
deriving DecidableEq, Repr

/-- A location written as the file with line and column in parentheses. -/
def Location.text (l : Location) : String := s!"{l.file} ({l.line},{l.column})"

namespace SourceFile

def lineIndex (file : SourceFile) : LineIndex := .ofChars file.text.toList

def lineCount (file : SourceFile) : Nat := file.lineIndex.lineCount

/-- Line and column of a character offset, both counted from one, as numbers. -/
def lineColumn (file : SourceFile) (offset : Nat) : Nat × Nat :=
  let (line, column) := file.lineIndex.locate offset
  (line.toNat, column.toNat)

/-- The position of a character offset. -/
def position (file : SourceFile) (offset : Nat) : Position :=
  let (line, column) := file.lineIndex.locate offset
  ⟨line, column - 1⟩

/-- The location of a character offset. -/
def location (file : SourceFile) (offset : Nat) : Location :=
  let (line, column) := file.lineColumn offset
  ⟨file.path, line, column⟩

end SourceFile

end Provenance
