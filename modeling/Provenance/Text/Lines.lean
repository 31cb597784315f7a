import Provenance.Text.Blank

/-!
# Pieces, lines and words of a text

`split` cuts a text at every separator and keeps empty pieces. `lines` cuts it into lines the way
text files have them: a line feed ends a line, a carriage return before it belongs to the end, and
nothing after the last line feed is no line. `words` are the stretches between blanks, each with
its byte column.
-/

namespace Provenance.Text

/-- The number of bytes that characters take in UTF-8. -/
def byteLength : List Char → Nat
  | [] => 0
  | c :: cs => c.utf8Size + byteLength cs

@[simp] theorem byteLength_nil : byteLength [] = 0 := rfl

@[simp] theorem byteLength_cons (c : Char) (cs : List Char) :
    byteLength (c :: cs) = c.utf8Size + byteLength cs := rfl

@[simp] theorem byteLength_append (cs ds : List Char) :
    byteLength (cs ++ ds) = byteLength cs + byteLength ds := by
  induction cs with
  | nil => simp
  | cons c cs ih => simp [ih, Nat.add_assoc]

/-- The pieces of a text between separators, at least one. -/
def split (separator : Char) : List Char → List (List Char)
  | [] => [[]]
  | c :: cs =>
    if c = separator then [] :: split separator cs
    else match split separator cs with
      | piece :: pieces => (c :: piece) :: pieces
      | [] => [[c]]

/-! ### Lines -/

/-- A line without the carriage return of its end. -/
def withoutReturn (line : List Char) : List Char :=
  if line.getLast? = some '\r' then line.dropLast else line

/-- The lines among the pieces between line feeds. The last piece has no line feed after it. -/
def linesOfPieces : List (List Char) → List (List Char)
  | [] => []
  | [last] => if last.isEmpty then [] else [last]
  | piece :: pieces => withoutReturn piece :: linesOfPieces pieces

def lines (cs : List Char) : List (List Char) := linesOfPieces (split '\n' cs)

/-! ### Words -/

/-- The words of a line whose first character stands at a byte column, with their columns. -/
def wordsFrom (column : Nat) (line : List Char) : List (Nat × List Char) :=
  match line with
  | [] => []
  | c :: rest =>
    if isBlank c then wordsFrom (column + c.utf8Size) rest
    else
      let word := c :: rest.takeWhile (!isBlank ·)
      (column, word) :: wordsFrom (column + byteLength word) (rest.dropWhile (!isBlank ·))
termination_by line.length
decreasing_by
  · simp
  · have := (List.dropWhile_suffix (l := rest) (!isBlank ·)).length_le
    simp only [List.length_cons]
    omega

/-- The words of a line with their byte columns. -/
def words (line : List Char) : List (Nat × List Char) := wordsFrom 0 line

/-- The line without blanks at its end. -/
def trimEnd (line : List Char) : List Char := (line.reverse.dropWhile isBlank).reverse

/-- The line without blanks at its start. -/
def trimStart (line : List Char) : List Char := line.dropWhile isBlank

end Provenance.Text
