import Provenance.Text.CharClass
import Provenance.Text.Hex

/-!
# Characters shown in messages

Messages show a piece of their input in quotes. Quotes, backslashes and the common controls have
short escapes; a character that would not be seen, or would join the one before it, is shown by
its code point in braces. Lines of a log show text as it is, but for the controls that change what
a terminal shows.
-/

namespace Provenance.Shown

/-- The code point in braces, in lower-case hexadecimal. -/
def codePoint (c : Char) : List Char :=
  '\\' :: 'u' :: '{' :: Nat.toDigits 16 c.toNat ++ ['}']

/-- One character inside the given kind of quote. -/
def escape (quote : Char) (c : Char) : List Char :=
  if c = '\x00' then ['\\', '0']
  else if c = '\t' then ['\\', 't']
  else if c = '\r' then ['\\', 'r']
  else if c = '\n' then ['\\', 'n']
  else if c = '\\' ∨ c = quote then ['\\', c]
  else if c = ' ' then [c]
  else if CharClass.graphemeExtend.contains c || CharClass.unprintable.contains c then codePoint c
  else [c]

/-- A string in double quotes. -/
def string (s : String) : String := .ofList ('"' :: s.toList.flatMap (escape '"') ++ ['"'])

/-- A character in single quotes. -/
def char (c : Char) : String := .ofList ('\x27' :: escape '\x27' c ++ ['\x27'])

/-- The controls of the basic set by which a terminal is told to move, sound or change. -/
def isTerminalControl (c : Char) : Bool :=
  c = '\x07' || c = '\x08' || c = '\x0c' || c = '\x1b' || c = '\x7f'

/-- One character on a line of a log. -/
def logged (c : Char) : List Char :=
  if isTerminalControl c then ['\\', 'x', Hex.lower (c.toNat / 16), Hex.lower c.toNat]
  else if 0x80 ≤ c.toNat && c.toNat < 0xA0 then codePoint c
  else [c]

/-- A text on lines of a log. -/
def log (s : String) : String := .ofList (s.toList.flatMap logged)

end Provenance.Shown
