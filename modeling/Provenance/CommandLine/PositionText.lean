import Provenance.Position
import Provenance.Text.Lines

/-!
# Positions as they are typed

A position is typed as its line and its column with a colon between them, in decimal. A plus sign
may stand before either number.
-/

namespace Provenance.CommandLine

/-- Why a text is no 32-bit word. -/
inductive WordError where
  | empty
  | invalidDigit
  | tooLarge
deriving DecidableEq, Repr

def WordError.message : WordError → String
  | .empty => "cannot parse integer from empty string"
  | .invalidDigit => "invalid digit found in string"
  | .tooLarge => "number too large to fit in target type"

/-- Why a text is no position. -/
inductive PositionError where
  | noColon (text : String)
  | line (text : String) (cause : WordError)
  | column (text : String) (cause : WordError)
  | lineZero
deriving DecidableEq, Repr

def PositionError.message : PositionError → String
  | .noColon text => "expected <line>:<column>, got `" ++ text ++ "`"
  | .line text cause => "invalid line `" ++ text ++ "`: " ++ cause.message
  | .column text cause => "invalid column `" ++ text ++ "`: " ++ cause.message
  | .lineZero => "lines are 1-based"

/-- The number that digits add to one read so far. The first fault from the left is the error. -/
def digitsFrom (n : Nat) : List Char → Except WordError Nat
  | [] => .ok n
  | c :: cs =>
    if !c.isDigit then .error .invalidDigit
    else
      let next := n * 10 + (c.toNat - '0'.toNat)
      if next < UInt32.size then digitsFrom next cs else .error .tooLarge

/-- The word that a text spells. -/
def wordOf (cs : List Char) : Except WordError UInt32 :=
  let digits := match cs with
    | '+' :: c :: rest => c :: rest
    | cs => cs
  if digits.isEmpty then .error .empty else (digitsFrom 0 digits).map .ofNat

/-- The position that a text spells. -/
def positionOf (text : String) : Except PositionError Position :=
  let cs := text.toList
  let line := cs.takeWhile (· ≠ ':')
  match cs.dropWhile (· ≠ ':') with
  | [] => .error (.noColon text)
  | _ :: column =>
    match wordOf line with
    | .error e => .error (.line (.ofList line) e)
    | .ok l =>
      match wordOf column with
      | .error e => .error (.column (.ofList column) e)
      | .ok c => if l = 0 then .error .lineZero else .ok ⟨l, c⟩

end Provenance.CommandLine
