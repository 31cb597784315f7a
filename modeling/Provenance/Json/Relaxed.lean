import Provenance.Json.Relaxed.Syntax

/-!
# Reading relaxed JSON

`Relaxed.parse` gives the JSON value of a JSON5 text. A text without the form of a document is a
syntax error; otherwise the first string or number without a value, in the order of the text, is
the error. Infinities and not-a-number become null.
-/

namespace Provenance

/-- Why a relaxed text has no value. -/
inductive RelaxedError where
  | syntaxError
  /-- A hexadecimal number that does not fit a word, or a surrogate's partner that is no number. -/
  | hex
  /-- An integer outside the signed 64-bit range, or a sign where none may stand. -/
  | integer
  /-- A signed hexadecimal number whose digits look like an exponent. -/
  | number
  | tooLarge
  | strayTrail
  | missingTrail
  | notTrail
deriving DecidableEq, Repr

def RelaxedError.message : RelaxedError → String
  | .syntaxError => "syntax error"
  | .hex => "error parsing hex"
  | .integer => "error parsing integer"
  | .number => "error parsing number"
  | .tooLarge => "error parsing number: too large"
  | .strayTrail => "unexpected unicode trail surrogate"
  | .missingTrail => "missing unicode trail surrogate"
  | .notTrail => "expecting unicode trail surrogate"

namespace Relaxed

/-! ### Strings -/

/-- The characters that a piece shows, without the marks of its escape. -/
def shownChars : StringPiece → List Char
  | .literal c => [c]
  | .escape c => [c]
  | .nul => ['0']
  | .byte digits => digits
  | .unit digits => digits

/-- The number that hexadecimal digits stand for, if they fit a word. -/
def hexWord (digits : List Char) : Except RelaxedError Nat :=
  match Hex.ofDigits? digits with
  | some n => if n < UInt32.size then .ok n else .error .hex
  | none => .error .hex

/-- The character of an escape of one letter. -/
def escaped (c : Char) : Char :=
  if c = 'b' then '\x08'
  else if c = 'f' then '\x0c'
  else if c = 'n' then '\n'
  else if c = 'r' then '\r'
  else if c = 't' then '\t'
  else if c = 'v' then '\x0b'
  else c

/-- The character of two surrogates. The offset of the supplementary planes is joined to the upper
bits bit by bit, not added. -/
def surrogatePair (lead trail : Nat) : Char :=
  .ofNat (((lead - 0xD800) <<< 10) ||| (trail - 0xDC00 + 0x10000))

/-- The text of a string. A leading surrogate takes the next piece as its partner. -/
def stringOf : List StringPiece → Except RelaxedError (List Char)
  | [] => .ok []
  | .literal c :: rest => (stringOf rest).map (c :: ·)
  | .escape c :: rest => (stringOf rest).map (escaped c :: ·)
  | .nul :: rest => (stringOf rest).map ('\x00' :: ·)
  | .byte digits :: rest => do
    let n ← hexWord digits
    (stringOf rest).map (.ofNat n :: ·)
  | .unit digits :: rest => do
    let n ← hexWord digits
    if 0xDC00 ≤ n ∧ n < 0xE000 then throw .strayTrail
    else if 0xD800 ≤ n ∧ n < 0xDC00 then
      match rest with
      | [] => throw .missingTrail
      | partner :: rest => do
        let m ← hexWord (shownChars partner)
        if 0xDC00 ≤ m ∧ m < 0xE000 then (stringOf rest).map (surrogatePair n m :: ·)
        else throw .notTrail
    else (stringOf rest).map (.ofNat n :: ·)

/-! ### Numbers -/

/-- The number that decimal digits stand for. -/
def decimalOf (digits : List Char) : Nat :=
  digits.foldl (fun n c => n * 10 + Json.Number.digit c) 0

/-- A signed 64-bit integer. -/
def integerOf (negative : Bool) (digits : List Char) : Except RelaxedError Json :=
  let n : Int := if negative then -decimalOf digits else decimalOf digits
  if Int64.minValue.toInt ≤ n ∧ n ≤ Int64.maxValue.toInt then .ok (.int n) else .error .integer

/-- The double nearest to a decimal; it must be finite. -/
def doubleOf (negative : Bool) (whole fraction : List Char) (exponent : Option (Bool × List Char)) :
    Except RelaxedError Json :=
  let e : Int := match exponent with
    | none => 0
    | some (true, ds) => -decimalOf ds
    | some (false, ds) => decimalOf ds
  let x := Binary64.ofDecimal negative (decimalOf (whole ++ fraction)) (e - fraction.length)
  if x.isFinite then .ok (.float x) else .error .tooLarge

/-- The value of a number. A plus sign is allowed before decimal digits only. -/
def numberOf (sign : Option NumberSign) : NumberForm → Except RelaxedError Json
  | .hex digits =>
    if sign.isNone then (hexWord digits).map fun n => .int n
    else if digits.any fun c => c = 'e' || c = 'E' then .error .number
    else .error .integer
  | .decimal whole none none => integerOf (sign = some .minus) whole
  | .decimal whole fraction exponent =>
    doubleOf (sign = some .minus) whole (fraction.getD []) exponent
  | .infinity | .nan => if sign = some .plus then .error .integer else .ok .null

/-! ### Documents -/

mutual
/-- The value of a document, the fields of its objects in key order. -/
def toJson : Relaxed → Except RelaxedError Json
  | .null => .ok .null
  | .bool b => .ok (.bool b)
  | .number sign form => numberOf sign form
  | .string pieces => (stringOf pieces).map fun cs => .string (.ofList cs)
  | .array items => (toJsonItems items).map .array
  | .object fields => (toJsonFields fields).map .ofFields

def toJsonItems : List Relaxed → Except RelaxedError (List Json)
  | [] => .ok []
  | v :: vs => do
    let j ← toJson v
    let js ← toJsonItems vs
    return j :: js

def toJsonFields : List (List StringPiece × Relaxed) → Except RelaxedError (List (String × Json))
  | [] => .ok []
  | (key, v) :: rest => do
    let key ← stringOf key
    let j ← toJson v
    let fields ← toJsonFields rest
    return (.ofList key, j) :: fields
end

/-- The value of a relaxed text. -/
def parse (text : String) : Except RelaxedError Json :=
  match ofText? text with
  | none => .error .syntaxError
  | some document => document.toJson

end Relaxed

end Provenance
