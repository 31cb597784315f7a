import Provenance.Json.Basic

/-!
# Reading JSON numbers

The grammar of a number and the value it has. A number without fraction and exponent is an
integer when it fits 64 bits, signed or unsigned; any other is a double. The double is found the
quick way: the leading digits that fit an unsigned 64-bit word, scaled by a power of ten with one
rounding for the word, one for the power and one for each product or quotient.
-/

namespace Provenance.Json.Number

/-- A number as written: its sign, the digits before and after the point, the signed exponent. -/
structure Literal where
  negative : Bool
  whole : List Char
  fraction : Option (List Char)
  exponent : Option (Bool × List Char)
deriving DecidableEq, Repr

def isDigit (c : Char) : Bool := '0' ≤ c && c ≤ '9'

def digit (c : Char) : Nat := c.toNat - '0'.toNat

/-! ### Grammar -/

/-- The leading digits, at least one, and the rest. -/
def digits? (s : List Char) : Option (List Char × List Char) :=
  match s.takeWhile isDigit with
  | [] => none
  | ds => some (ds, s.dropWhile isDigit)

/-- The digits before the point: no zero before another digit. -/
def whole? (s : List Char) : Option (List Char × List Char) :=
  match digits? s with
  | some ('0' :: _ :: _, _) => none
  | found => found

/-- A point and its digits, if the text goes on with a point. -/
def fraction? (s : List Char) : Option (Option (List Char) × List Char) :=
  match s with
  | '.' :: s => (digits? s).map fun (ds, rest) => (some ds, rest)
  | _ => some (none, s)

/-- A sign that may be missing: whether it is a minus, and the rest. -/
def sign (s : List Char) : Bool × List Char :=
  match s with
  | '-' :: s => (true, s)
  | '+' :: s => (false, s)
  | _ => (false, s)

/-- An exponent, if the text goes on with its mark. -/
def exponent? (s : List Char) : Option (Option (Bool × List Char) × List Char) :=
  match s with
  | [] => some (none, s)
  | c :: r =>
    if c = 'e' ∨ c = 'E' then
      (digits? (sign r).2).map fun (ds, rest) => (some ((sign r).1, ds), rest)
    else some (none, s)

/-- A number without the sign before it, and the rest. -/
def magnitude? (negative : Bool) (s : List Char) : Option (Literal × List Char) :=
  match whole? s with
  | none => none
  | some (whole, r) =>
    match fraction? r with
    | none => none
    | some (fraction, t) =>
      match exponent? t with
      | none => none
      | some (exponent, rest) => some (⟨negative, whole, fraction, exponent⟩, rest)

/-- The number at the start of a text, and the rest. -/
def literal? (s : List Char) : Option (Literal × List Char) :=
  match s with
  | '-' :: r => magnitude? true r
  | _ => magnitude? false s

theorem length_lt_of_digits? {s ds rest : List Char} (h : digits? s = some (ds, rest)) :
    rest.length < s.length := by
  have hs := congrArg List.length (List.takeWhile_append_dropWhile (p := isDigit) (l := s))
  unfold digits? at h
  split at h
  · simp at h
  · next ne =>
    have := List.length_pos_iff.2 ne
    simp only [Option.some.injEq, Prod.mk.injEq] at h
    rw [List.length_append] at hs
    rw [← h.2]
    omega

theorem length_lt_of_whole? {s ds rest : List Char} (h : whole? s = some (ds, rest)) :
    rest.length < s.length := by
  unfold whole? at h
  split at h
  · simp at h
  · exact length_lt_of_digits? h

theorem length_le_of_fraction? {s rest : List Char} {ds : Option (List Char)}
    (h : fraction? s = some (ds, rest)) : rest.length ≤ s.length := by
  unfold fraction? at h
  split at h
  · obtain ⟨⟨ds', rest'⟩, hd, he⟩ := Option.map_eq_some_iff.1 h
    have := length_lt_of_digits? hd
    simp only [Prod.mk.injEq] at he
    rw [← he.2, List.length_cons]
    omega
  · simp only [Option.some.injEq, Prod.mk.injEq] at h
    exact Nat.le_of_eq (congrArg List.length h.2.symm)

theorem length_sign_le (s : List Char) : (sign s).2.length ≤ s.length := by
  unfold sign
  split <;> simp

theorem length_le_of_exponent? {s rest : List Char} {e : Option (Bool × List Char)}
    (h : exponent? s = some (e, rest)) : rest.length ≤ s.length := by
  unfold exponent? at h
  split at h
  · simp only [Option.some.injEq, Prod.mk.injEq] at h
    simp [← h.2]
  · next c r =>
    split at h
    · obtain ⟨⟨ds, rest'⟩, hd, he⟩ := Option.map_eq_some_iff.1 h
      have := length_lt_of_digits? hd
      have := length_sign_le r
      simp only [Prod.mk.injEq] at he
      rw [← he.2, List.length_cons]
      omega
    · simp only [Option.some.injEq, Prod.mk.injEq] at h
      exact Nat.le_of_eq (congrArg List.length h.2.symm)

theorem length_lt_of_magnitude? {negative : Bool} {s rest : List Char} {l : Literal}
    (h : magnitude? negative s = some (l, rest)) : rest.length < s.length := by
  unfold magnitude? at h
  split at h
  · simp at h
  next hw =>
    split at h
    · simp at h
    next hf =>
      split at h
      · simp at h
      next he =>
        have := length_lt_of_whole? hw
        have := length_le_of_fraction? hf
        have := length_le_of_exponent? he
        simp only [Option.some.injEq, Prod.mk.injEq] at h
        rw [← h.2]
        omega

/-- A number has at least one character. -/
theorem length_lt_of_literal? {s rest : List Char} {l : Literal}
    (h : literal? s = some (l, rest)) : rest.length < s.length := by
  unfold literal? at h
  split at h
  · have := length_lt_of_magnitude? h
    rw [List.length_cons]
    omega
  · exact length_lt_of_magnitude? h

/-! ### Value -/

/-- Digits taken into a 64-bit word until one does not fit: the word, how many were taken, and
how many were left. -/
def accumulate : (word : Nat) → (ds : List Char) → Nat × Nat × Nat
  | word, [] => (word, 0, 0)
  | word, c :: cs =>
    if word * 10 + digit c < UInt64.size then
      let (word, taken, left) := accumulate (word * 10 + digit c) cs
      (word, taken + 1, left)
    else (word, 0, cs.length + 1)

/-- A double scaled by a power of ten, `none` when it grows out of range. A power beyond the
range of doubles is applied in steps of `10 ^ -308`; three steps bring any word to zero. -/
def scale (x : Binary64) (exponent : Int) : (steps : Nat) → Option Binary64
  | 0 => some x
  | steps + 1 =>
    let power (e : Nat) := Binary64.ofDecimal false 1 e
    if exponent.natAbs ≤ 308 then
      if 0 ≤ exponent then
        let y := x.mul (power exponent.natAbs)
        if y.isFinite then some y else none
      else some (x.div (power exponent.natAbs))
    else if x.isZero then some x
    else if 0 ≤ exponent then none
    else scale (x.div (power 308)) (exponent + 308) steps

/-- The double that a word and a power of ten give, with its sign. -/
def double? (negative : Bool) (word : Nat) (exponent : Int) : Option Json :=
  (scale (.ofNat word) exponent 4).map fun x => .float (if negative then x.neg else x)

/-- The greatest exponent that is read as a number. -/
def maxExponent : Nat := 0x7fffffff

/-- The greatest magnitude of a negative integer. -/
def maxNegative : Nat := 0x8000000000000000

/-- The value of a number; `none` when its magnitude is out of range. -/
def Literal.value? (l : Literal) : Option Json :=
  let (word, _, left) := accumulate 0 l.whole
  if l.fraction.isNone && l.exponent.isNone && left = 0 then
    if !l.negative then some (.int word)
    else if word = 0 || maxNegative < word then double? true word 0
    else some (.int (-word))
  else
    let (word, taken, _) := accumulate word (l.fraction.getD [])
    let shift : Int := (left : Int) - taken
    match l.exponent with
    | none => double? l.negative word shift
    | some (negative, ds) =>
      let e := ds.foldl (fun n c => n * 10 + digit c) 0
      if maxExponent < e then
        if word ≠ 0 ∧ !negative then none else double? l.negative 0 0
      else double? l.negative word (if negative then shift - e else shift + e)

end Provenance.Json.Number
