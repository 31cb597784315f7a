import Provenance.Text.Hex

/-!
# Variable-length quantities in base 64

A signed number is written as its magnitude with the sign in the lowest bit, cut into groups of
five bits, the lowest group first; each group is one base-64 digit whose sixth bit says that more
follow. Reading works in 64-bit words, as the digits of a longer number have nowhere to go.
-/

namespace Provenance.Vlq

/-- Why the digits of a segment spell no numbers. -/
inductive Problem where
  /-- The segment ends inside a number. -/
  | unfinished
  /-- A number has more digits than a word has room for. -/
  | overflow
deriving DecidableEq, Repr

/-! ### Base-64 digits -/

def digitChar (n : Nat) : Char :=
  if n < 26 then .ofNat ('A'.toNat + n)
  else if n < 52 then .ofNat ('a'.toNat + (n - 26))
  else if n < 62 then .ofNat ('0'.toNat + (n - 52))
  else if n = 62 then '+' else '/'

def digit? (c : Char) : Option Nat :=
  if 'A' ≤ c ∧ c ≤ 'Z' then some (c.toNat - 'A'.toNat)
  else if 'a' ≤ c ∧ c ≤ 'z' then some (c.toNat - 'a'.toNat + 26)
  else if '0' ≤ c ∧ c ≤ '9' then some (c.toNat - '0'.toNat + 52)
  else if c = '+' then some 62
  else if c = '/' then some 63
  else none

/-! ### Writing -/

/-- The groups of a magnitude that carries its sign. -/
def groups (n : Nat) : List Char :=
  if n < 32 then [digitChar n] else digitChar (n % 32 + 32) :: groups (n / 32)
decreasing_by omega

/-- The magnitude with the sign in the lowest bit. -/
def zigzag (n : Int) : Nat := if n < 0 then 2 * n.natAbs + 1 else 2 * n.natAbs

def encode (n : Int) : List Char := groups (zigzag n)

/-! ### Reading -/

/-- What a character that is no digit reads as, for each byte of its encoding: all ones with more
to come, and the delete character one less. -/
def strayDigit (c : Char) : Nat := if c = '\x7f' then 62 else 63

/-- The digits of a segment. -/
def digits (segment : List Char) : List Nat :=
  segment.flatMap fun c =>
    match digit? c with
    | some n => [n]
    | none => List.replicate c.utf8Size (strayDigit c)

/-- The least 64-bit word that is negative when it is read with a sign. -/
def signBound : Nat := 0x8000000000000000

/-- The number that a 64-bit word with its sign in the lowest bit stands for. -/
def unzigzag (word : Nat) : Int :=
  let half := (if word < signBound then (word : Int) else (word : Int) - UInt64.size).fdiv 2
  if word % 2 = 0 then half else -half

/-- Reads numbers from digits; `word` holds the groups of the number begun, `shift` bits of it. -/
def numbers (word shift : Nat) : List Nat → Except Problem (List Int)
  | [] => if word ≠ 0 ∨ shift ≠ 0 then .error .unfinished else .ok []
  | d :: ds =>
    if 64 ≤ shift then .error .overflow
    else
      let word := (word + (d % 32) <<< shift) % UInt64.size
      if d < 32 then (numbers 0 0 ds).map (unzigzag word :: ·)
      else numbers word (shift + 5) ds

/-- The numbers of a segment. -/
def decode (segment : List Char) : Except Problem (List Int) := numbers 0 0 (digits segment)

end Provenance.Vlq
