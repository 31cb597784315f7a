/-!
# Hexadecimal digits

Both letter cases are read; `lower` writes lower case.
-/

namespace Provenance.Hex

/-- The value of a hexadecimal digit of either case. -/
def value? (c : Char) : Option Nat :=
  if '0' ≤ c ∧ c ≤ '9' then some (c.toNat - '0'.toNat)
  else if 'a' ≤ c ∧ c ≤ 'f' then some (c.toNat - 'a'.toNat + 10)
  else if 'A' ≤ c ∧ c ≤ 'F' then some (c.toNat - 'A'.toNat + 10)
  else none

def isDigit (c : Char) : Bool := (value? c).isSome

/-- The number that hexadecimal digits stand for; no digits stand for zero. -/
def ofDigits? (digits : List Char) : Option Nat :=
  digits.foldlM (fun n c => (value? c).map (16 * n + ·)) 0

/-- The lower-case digit of a value below sixteen. -/
def lower (n : Nat) : Char := Nat.digitChar (n % 16)

/-- The two lower-case digits of a byte. -/
def byte (b : UInt8) : List Char := [lower (b.toNat / 16), lower b.toNat]

/-- The four lower-case digits of a number below `16 ^ 4`. -/
def quad (n : Nat) : List Char := [lower (n / 4096), lower (n / 256), lower (n / 16), lower n]

end Provenance.Hex
