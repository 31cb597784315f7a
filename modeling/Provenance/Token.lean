import Provenance.Text.Lines

/-!
# Tokens of typed source

A text falls into lexemes: line feeds, other blanks, comments, and tokens. Every character is in
exactly one lexeme, so `lexemes` is a partition of the text; tokens get their place by what stands
before them. Lexing never stops early: a string goes at most to the end of its line and a comment
at most to the end of the text, and one that is left open is reported.
-/

namespace Provenance

/-! ### Lexemes -/

inductive TokenKind where
  | name
  | number
  | string
  | punctuation
deriving DecidableEq, Repr

/-- What a stretch of text is. Strings and block comments may lack their end. -/
inductive LexemeKind where
  | lineFeed
  | blank
  | lineComment
  | blockComment (closed : Bool)
  | token (kind : TokenKind) (closed : Bool)
deriving DecidableEq, Repr

structure Lexeme where
  kind : LexemeKind
  chars : List Char
deriving DecidableEq, Repr

namespace Lexeme

def isNameStart (c : Char) : Bool := c.isAlpha || c = '_' || c = '$'

def isNamePart (c : Char) : Bool := c.isAlphanum || c = '_' || c = '$'

def isNumberPart (c : Char) : Bool := isNamePart c || c = '.'

def isQuote (c : Char) : Bool := c = '"' || c = '\x27' || c = '\x60'

/-- The length of the leading characters that pass a test. -/
def span (test : Char → Bool) (cs : List Char) : Nat := (cs.takeWhile test).length

/-- Whether a string ends on its line, and its length after the opening quote. A backslash keeps
the character after it from ending the string. -/
def stringSpan (quote : Char) (escaped : Bool) : List Char → Bool × Nat
  | [] => (false, 0)
  | c :: cs =>
    if c = '\n' then (false, 0)
    else if !escaped && c = quote then (true, 1)
    else
      let (closed, n) := stringSpan quote (!escaped && c = '\\') cs
      (closed, n + 1)

/-- Whether a block comment ends, and its length after the opening. -/
def blockSpan : List Char → Bool × Nat
  | [] => (false, 0)
  | '*' :: '/' :: _ => (true, 2)
  | _ :: cs =>
    let (closed, n) := blockSpan cs
    (closed, n + 1)

/-- The kind of the lexeme that begins with a character, and how many characters follow it. -/
def measure (c : Char) (cs : List Char) : LexemeKind × Nat :=
  if c = '\n' then (.lineFeed, 0)
  else if isBlank c then (.blank, 0)
  else if c = '/' ∧ cs.head? = some '/' then (.lineComment, span (· ≠ '\n') cs)
  else if c = '/' ∧ cs.head? = some '*' then
    let (closed, n) := blockSpan cs.tail
    (.blockComment closed, n + 1)
  else if isNameStart c then (.token .name true, span isNamePart cs)
  else if c.isDigit then (.token .number true, span isNumberPart cs)
  else if isQuote c then
    let (closed, n) := stringSpan c false cs
    (.token .string closed, n)
  else (.token .punctuation true, 0)

end Lexeme

/-- The lexemes of a text, in order. -/
def lexemes (text : List Char) : List Lexeme :=
  match text with
  | [] => []
  | c :: cs =>
    let (kind, n) := Lexeme.measure c cs
    ⟨kind, c :: cs.take n⟩ :: lexemes (cs.drop n)
termination_by text.length
decreasing_by
  simp only [List.length_drop, List.length_cons]
  omega

/-- The lexemes of a text, put together, are the text. -/
theorem flatMap_chars_lexemes (text : List Char) : (lexemes text).flatMap (·.chars) = text := by
  fun_induction lexemes text with
  | case1 => rfl
  | case2 c cs kind n _ ih => simp [ih]

/-! ### Tokens -/

/-- A token: its text, its byte offset, its line and byte column, both from zero, and whether a
blank or a comment stands directly before it. The three numbers have no bound here, where they
stand for words of 32 bits. On a text of less than 4 GiB each of them is its word; a longer one has
offsets that no word addresses, and what is said of its tokens is said of the numbers only. -/
structure Token where
  kind : TokenKind
  text : String
  offset : Nat
  line : Nat
  column : Nat
  spaced : Bool
deriving DecidableEq, Repr

/-- A string or a comment that was left open. -/
inductive LexicalError where
  /-- At the byte offset of the opening quote. -/
  | openString (offset : Nat)
  /-- At the byte offset of the end of the text. -/
  | openComment (offset : Nat)
deriving DecidableEq, Repr

def LexicalError.message : LexicalError → String
  | .openString _ => "Unterminated string literal."
  | .openComment _ => "'*/' expected."

def LexicalError.offset : LexicalError → Nat
  | .openString offset => offset
  | .openComment offset => offset

/-- A place in a text, in bytes, and whether a blank or a comment was the last thing before it. -/
structure TextPlace where
  offset : Nat
  line : Nat
  column : Nat
  spaced : Bool
deriving DecidableEq, Repr

namespace TextPlace

def start : TextPlace := ⟨0, 0, 0, false⟩

/-- The place after a character. -/
def step (p : TextPlace) (c : Char) : TextPlace :=
  if c = '\n' then { p with offset := p.offset + 1, line := p.line + 1, column := 0 }
  else { p with offset := p.offset + c.utf8Size, column := p.column + c.utf8Size }

/-- Whether a token after a lexeme of the kind is set off. -/
def setsOff : LexemeKind → Bool
  | .blank | .lineComment | .blockComment _ => true
  | .lineFeed | .token _ _ => false

/-- The place after a lexeme. -/
def after (p : TextPlace) (l : Lexeme) : TextPlace :=
  { l.chars.foldl step p with spaced := setsOff l.kind }

end TextPlace

/-- The tokens among lexemes that begin at a place. -/
def tokensFrom (p : TextPlace) : List Lexeme → List Token
  | [] => []
  | l :: ls =>
    match l.kind with
    | .token kind _ =>
      ⟨kind, .ofList l.chars, p.offset, p.line, p.column, p.spaced⟩ :: tokensFrom (p.after l) ls
    | _ => tokensFrom (p.after l) ls

/-- The errors among lexemes that begin at a place. -/
def lexicalErrorsFrom (p : TextPlace) : List Lexeme → List LexicalError
  | [] => []
  | l :: ls =>
    match l.kind with
    | .token .string false => .openString p.offset :: lexicalErrorsFrom (p.after l) ls
    | .blockComment false => .openComment (p.after l).offset :: lexicalErrorsFrom (p.after l) ls
    | _ => lexicalErrorsFrom (p.after l) ls

/-- The tokens of a text. -/
def tokens (text : List Char) : List Token := tokensFrom .start (lexemes text)

/-- The lexical errors of a text. -/
def lexicalErrors (text : List Char) : List LexicalError := lexicalErrorsFrom .start (lexemes text)

end Provenance
