import Provenance.Decimal.Shortest

/-!
# Decimal notation

The shortest decimal of a double as text: positional within a window of magnitudes, with an
exponent outside of it. The text always shows a fraction or an exponent, so that it reads as no
integer.
-/

namespace Provenance

namespace Decimal

/-- The digits of a decimal, most significant first. -/
def digitChars (d : Decimal) : List Char := Nat.toDigits 10 d.digits

/-- Digits with a point, the point after the first `point` of them. -/
def positional (digits : List Char) (point : Int) : List Char :=
  let n := digits.length
  if (n : Int) ≤ point then digits ++ List.replicate (point - n).toNat '0' ++ ['.', '0']
  else if 0 < point then digits.take point.toNat ++ '.' :: digits.drop point.toNat
  else '0' :: '.' :: List.replicate (-point).toNat '0' ++ digits

/-- An exponent with its sign, which is written also before a positive one. -/
def exponentChars (e : Int) : List Char :=
  (if e < 0 then '-' else '+') :: Nat.toDigits 10 e.natAbs

/-- One digit, a point before any others, and the exponent. -/
def scientific (digits : List Char) (point : Int) : List Char :=
  let lead := match digits with
    | [] => []
    | [c] => [c]
    | c :: cs => c :: '.' :: cs
  lead ++ 'e' :: exponentChars (point - 1)

/-- A window of magnitudes: from `10 ^ lowest` up to `10 ^ highest`. -/
structure Window where
  lowest : Int
  highest : Int

/-- Documents write magnitudes from `10 ^ -5` up to `10 ^ 16` positionally. -/
def documentWindow : Window := ⟨-5, 16⟩

end Decimal

namespace Binary64

/-- A finite number as documents and messages write it. -/
def text (x : Binary64) : String :=
  let sign := if x.negative then ['-'] else []
  let d := x.shortest
  let point := d.digitChars.length + d.exponent
  let window := Decimal.documentWindow
  if x.isZero then .ofList (sign ++ ['0', '.', '0'])
  else if window.lowest < point ∧ point ≤ window.highest then
    .ofList (sign ++ Decimal.positional d.digitChars point)
  else .ofList (sign ++ Decimal.scientific d.digitChars point)

end Binary64

end Provenance
