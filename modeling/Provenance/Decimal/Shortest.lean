import Provenance.Decimal.Binary64

/-!
# Shortest decimals

The shortest decimal of a double is the one with the fewest significant digits among those that
read back as that double, and of these the nearest to it. For each number of digits only two
candidates matter, the neighbours of the double on that decimal grid.
-/

namespace Provenance

/-- A decimal magnitude `digits · 10 ^ exponent`. -/
structure Decimal where
  digits : Nat
  exponent : Int
deriving DecidableEq, Repr

namespace Binary64

/-- Four times the significand, and the two ends of the interval of magnitudes that round to it,
in units of a quarter of the last place. Below a power of two the spacing halves. -/
def quarters (x : Binary64) : Nat × Nat × Nat :=
  let m := x.significand
  let below := if x.fractionField = 0 && 1 < x.exponentField then 1 else 2
  (4 * m, 4 * m - below, 4 * m + 2)

/-- The decimal exponent of a positive quotient: the `p` with `10 ^ p ≤ num / den < 10 ^ (p + 1)`. -/
def decimalExponent (num den : Nat) : Int :=
  let reached (p : Int) : Bool :=
    if 0 ≤ p then den * powerOfTen p.toNat ≤ num else den ≤ num * powerOfTen (-p).toNat
  let guess := (((num.log2 : Int) - den.log2) * 30103).fdiv 100000 - 2
  let climb (p : Int) : Int := if reached (p + 1) then p + 1 else p
  climb (climb (climb (climb guess)))

/-- The nearer neighbour of `num / den` on the grid of multiples of `10 ^ k` that lies between
`low / den` and `high / den`, the ends included when `closed`. -/
def onGrid (num low high den : Nat) (closed : Bool) (k : Int) : Option Nat :=
  let scale (n : Nat) : Nat := if 0 ≤ k then n else n * powerOfTen (-k).toNat
  let unit := if 0 ≤ k then den * powerOfTen k.toNat else den
  let within (d : Nat) : Bool :=
    if closed then scale low ≤ d * unit && d * unit ≤ scale high
    else scale low < d * unit && d * unit < scale high
  let d := scale num / unit
  let r := scale num % unit
  match within d, within (d + 1) with
  | true, true => some (if 2 * r < unit || (2 * r = unit && d % 2 = 0) then d else d + 1)
  | true, false => some d
  | false, true => some (d + 1)
  | false, false => none

/-- The shortest decimal that reads back as a finite number's magnitude, without trailing zeros. -/
def shortest (x : Binary64) : Decimal :=
  if x.isZero then ⟨0, 0⟩
  else
    let (mid, low, high) := x.quarters
    let e := x.exponent - 2
    let (up, den) := if 0 ≤ e then (1 <<< e.toNat, 1) else (1, 1 <<< (-e).toNat)
    let p := decimalExponent (mid * up) den
    let found := (List.range 17).findSome? fun (n : Nat) =>
      let k := p - n
      (onGrid (mid * up) (low * up) (high * up) den (x.significand % 2 = 0) k).map (⟨·, k⟩)
    match found with
    | some d => strip 20 d
    | none => ⟨0, 0⟩
where
  /-- A carry to a power of ten leaves zeros at the end; they belong to the exponent. -/
  strip : Nat → Decimal → Decimal
    | 0, d => d
    | fuel + 1, d =>
      if d.digits % 10 = 0 ∧ d.digits ≠ 0 then strip fuel ⟨d.digits / 10, d.exponent + 1⟩ else d

end Binary64

end Provenance
