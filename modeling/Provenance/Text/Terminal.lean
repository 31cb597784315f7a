/-!
# Text on a terminal

A terminal takes some characters as commands: single controls, and sequences that an escape opens.
`strip` leaves of a text what is shown where there is no terminal: the characters that are not part
of a sequence, and of the controls those that are blanks. A sequence need not come to its end; an
escape opens another one, and two of the controls cancel it.
-/

namespace Provenance.Terminal

/-- What a terminal is in the middle of. -/
inductive State where
  | text
  /-- After an escape. -/
  | escape
  /-- After an escape and characters that select among its commands. -/
  | selected
  /-- In a control sequence. -/
  | control
  /-- At the parameters of a device string, or after them. -/
  | device
  | deviceParameters
  | deviceSelected
  /-- In a string that only its own terminator ends. -/
  | string
  /-- In a string that a bell ends. -/
  | command
deriving DecidableEq, Repr

namespace State

/-- The state after a byte. Controls leave it as it is, but for the escape, the cancelling ones and
the bell. -/
def after (s : State) (byte : Nat) : State :=
  if byte = 0x18 ∨ byte = 0x1a then .text
  else if byte = 0x1b then .escape
  else match s with
    | .text => .text
    | .escape =>
      if byte < 0x20 then .escape
      else if byte < 0x30 then .selected
      else if byte = 0x50 then .device
      else if byte = 0x58 ∨ byte = 0x5e ∨ byte = 0x5f then .string
      else if byte = 0x5b then .control
      else if byte = 0x5d then .command
      else if byte < 0x7f then .text
      else .escape
    | .selected => if 0x30 ≤ byte ∧ byte < 0x7f then .text else .selected
    | .control => if 0x40 ≤ byte ∧ byte < 0x7f then .text else .control
    | .device =>
      if byte < 0x20 ∨ 0x7f ≤ byte then .device
      else if byte < 0x30 then .deviceSelected
      else if byte < 0x40 then .deviceParameters
      else .string
    | .deviceParameters =>
      if byte < 0x20 ∨ 0x7f ≤ byte ∨ (0x30 ≤ byte ∧ byte < 0x3c) then .deviceParameters
      else if byte < 0x30 then .deviceSelected
      else .string
    | .deviceSelected => if byte < 0x30 ∨ 0x7f ≤ byte then .deviceSelected else .string
    | .string => if byte = 0x9c then .text else .string
    | .command => if byte = 0x07 then .text else .command

/-- The state after a character, byte by byte. -/
def afterChar (s : State) (c : Char) : State :=
  (String.utf8EncodeChar c).foldl (fun s b => s.after b.toNat) s

end State

/-- The controls that are blanks. -/
def isBlankControl (c : Char) : Bool := c = '\t' || c = '\n' || c = '\x0c' || c = '\r'

/-- Whether a character is shown in a state. Blanks are, also within the shorter sequences. -/
def isShown (s : State) (c : Char) : Bool :=
  match s with
  | .text => isBlankControl c || (0x20 ≤ c.toNat && c.toNat ≠ 0x7f)
  | .escape | .selected | .control => isBlankControl c
  | _ => false

/-- What is shown from a state on. What follows a shown character is shown as text is, up to the
next control. -/
def shownFrom (s : State) (showing : Bool) : List Char → List Char
  | [] => []
  | c :: cs =>
    if isShown (if showing then .text else s) c then
      c :: shownFrom (if c.toNat < 0x80 then s else .text) true cs
    else shownFrom (s.afterChar c) false cs

/-- A text without what only a terminal understands. -/
def strip (s : String) : String := .ofList (shownFrom .text false s.toList)

/-- A text that a terminal sets off from what stands around it. -/
def marked (s : String) : String := "\x1b[33m" ++ s ++ "\x1b[0m"

end Provenance.Terminal
