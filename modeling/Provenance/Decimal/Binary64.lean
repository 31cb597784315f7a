/-!
# Binary floating point

A `Binary64` is a double-precision number kept as its 64 bits. All arithmetic here is exact
arithmetic on naturals followed by one rounding, `nearest`, to the closest double with ties to
the even neighbour; so every operation is a total function that a proof can compute.
-/

namespace Provenance

/-- A double-precision number, by its bits: sign, eleven bits of exponent, 52 of fraction. -/
structure Binary64 where
  bits : UInt64
deriving DecidableEq, Repr, Inhabited

/-- A power of ten. -/
def powerOfTen (n : Nat) : Nat := Nat.pow 10 n

namespace Binary64

/-! ### Parts -/

/-- The weight of the sign among the bits. -/
def signWeight : Nat := 1 <<< 63

/-- The weight of the lowest bit of the exponent. -/
def exponentWeight : Nat := 1 <<< 52

/-- The exponent field of infinity and of what is no number. -/
def maxExponentField : Nat := 2047

def negative (x : Binary64) : Bool := signWeight ≤ x.bits.toNat

/-- The biased exponent. -/
def exponentField (x : Binary64) : Nat := x.bits.toNat / exponentWeight % (maxExponentField + 1)

def fractionField (x : Binary64) : Nat := x.bits.toNat % exponentWeight

def isFinite (x : Binary64) : Bool := x.exponentField < maxExponentField

def isZero (x : Binary64) : Bool := x.exponentField = 0 && x.fractionField = 0

/-- The integer `m` in the magnitude `m · 2 ^ e` of a finite number. -/
def significand (x : Binary64) : Nat :=
  if x.exponentField = 0 then x.fractionField else x.fractionField + exponentWeight

/-- The exponent `e` in the magnitude `m · 2 ^ e` of a finite number. -/
def exponent (x : Binary64) : Int := (max x.exponentField 1 : Nat) - 1075

/-- The magnitude of a finite number as a quotient of naturals. -/
def magnitude (x : Binary64) : Nat × Nat :=
  if 0 ≤ x.exponent then (x.significand <<< x.exponent.toNat, 1)
  else (x.significand, 1 <<< (-x.exponent).toNat)

/-! ### Rounding -/

/-- The number with the given sign and magnitude bits. -/
def ofParts (negative : Bool) (magnitude : Nat) : Binary64 :=
  ⟨.ofNat (if negative then magnitude + signWeight else magnitude)⟩

/-- The bits of infinity without its sign. -/
def infinityMagnitude : Nat := maxExponentField * exponentWeight

def infinity (negative : Bool) : Binary64 := ofParts negative infinityMagnitude

/-- A quotient rounded to the nearest natural, ties to the even one. -/
def divideToEven (num den : Nat) : Nat :=
  let q := num / den
  let r := num % den
  if 2 * r < den then q else if den < 2 * r then q + 1 else q + q % 2

/-- The exponent that gives a quotient 53 significant bits, or the least one there is. -/
def exponentOfQuotient (num den : Nat) : Int :=
  let e : Int := (num.log2 : Int) - den.log2 - 53
  let fits (e : Int) : Bool :=
    if 0 ≤ e then num < den <<< (e.toNat + 53) else num <<< (-e).toNat < den <<< 53
  max (if fits e then e else e + 1) (-1074)

/-- The double nearest to the quotient `num / den`, ties to even; too large is infinity. -/
def nearest (negative : Bool) (num den : Nat) : Binary64 :=
  if num = 0 then ofParts negative 0
  else
    let e := exponentOfQuotient num den
    let m := if 0 ≤ e then divideToEven num (den <<< e.toNat)
      else divideToEven (num <<< (-e).toNat) den
    -- a carry out of the fraction moves the exponent field up by itself
    ofParts negative (min ((e + 1074).toNat * exponentWeight + m) infinityMagnitude)

def ofNat (n : Nat) : Binary64 := nearest false n 1

def neg (x : Binary64) : Binary64 := ofParts (!x.negative) (x.bits.toNat % signWeight)

/-- The product of two finite numbers. -/
def mul (x y : Binary64) : Binary64 :=
  let (a, b) := x.magnitude
  let (c, d) := y.magnitude
  nearest (x.negative != y.negative) (a * c) (b * d)

/-- The quotient of two finite numbers, the second not zero. -/
def div (x y : Binary64) : Binary64 :=
  let (a, b) := x.magnitude
  let (c, d) := y.magnitude
  nearest (x.negative != y.negative) (a * d) (b * c)

/-! ### Decimals -/

/-- The double nearest to `digits · 10 ^ exponent`. Exponents far outside the range of doubles
are settled by the number of digits alone. -/
def ofDecimal (negative : Bool) (digits : Nat) (exponent : Int) : Binary64 :=
  let places : Int := (Nat.toDigits 10 digits).length + exponent
  if digits = 0 then ofParts negative 0
  else if 400 < places then infinity negative
  else if places < -400 then ofParts negative 0
  else if 0 ≤ exponent then nearest negative (digits * powerOfTen exponent.toNat) 1
  else nearest negative digits (powerOfTen (-exponent).toNat)

end Binary64

end Provenance
