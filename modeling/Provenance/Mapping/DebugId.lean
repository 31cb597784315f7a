import Provenance.Text.Hex

/-!
# Debug identifiers

A debug identifier names the build that a map belongs to: a 128-bit identifier with an age, or,
in an older form, a timestamp with an age. An age of zero is not written.
-/

namespace Provenance

/-- What identifies a build, and how many times it was made again. -/
inductive DebugId where
  | uuid (digits : List Char) (age : UInt32)
  | timestamp (time age : UInt32)
deriving DecidableEq, Repr

namespace DebugId

/-- A word in hexadecimal digits, at least one, with an optional plus sign. -/
def hexWord? (cs : List Char) : Option UInt32 :=
  let ds := match cs with
    | '+' :: ds => ds
    | ds => ds
  if ds.isEmpty then none
  else (Hex.ofDigits? ds).bind fun n => if n < UInt32.size then some (.ofNat n) else none

/-- Where the hyphens of a hyphenated identifier stand. -/
def hyphens : List Nat := [8, 13, 18, 23]

/-- The 32 digits of an identifier in its plain or its hyphenated form, in lower case. -/
def uuidDigits? (hyphenated : Bool) (cs : List Char) : Option (List Char) :=
  let placed := hyphens.all fun i => cs[i]? = some '-'
  let digits := if hyphenated then cs.filter (· ≠ '-') else cs
  if (!hyphenated || placed) && digits.length = 32 && digits.all Hex.isDigit then
    some (digits.map Char.toLower)
  else none

/-- The age after an identifier. No more than a word has digits is read; the rest says nothing. -/
def age? (cs : List Char) : Option UInt32 := hexWord? (cs.take 8)

/-- Reads an identifier, which is in ASCII. The age is set off by a hyphen just when the identifier
has hyphens. -/
def ofText? (text : String) : Option DebugId :=
  let cs := text.toList
  let n := cs.length
  let hyphenated := cs[8]? = some '-'
  let mark := if hyphenated then 1 else 0
  if !cs.all (·.toNat < 128) then none
  else if 9 + mark ≤ n ∧ n ≤ 16 + mark then do
    let time ← hexWord? (cs.take 8)
    let age ← hexWord? (cs.drop (8 + mark))
    return .timestamp time age
  else do
    let size := if hyphenated then 36 else 32
    let digits ← uuidDigits? hyphenated (cs.take size)
    match cs.drop size with
    | [] => return .uuid digits 0
    | '-' :: age => if hyphenated then return .uuid digits (← age? age) else none
    | age => if hyphenated then none else return .uuid digits (← age? age)

/-- The age after a hyphen, unless it is zero. -/
def ageChars (age : UInt32) : List Char :=
  if age = 0 then [] else '-' :: Nat.toDigits 16 age.toNat

/-- Hyphens put between the groups of an identifier's digits. -/
def hyphenate (ds : List Char) : List Char :=
  ds.take 8 ++ '-' :: (ds.drop 8).take 4 ++ '-' :: (ds.drop 12).take 4 ++
    '-' :: (ds.drop 16).take 4 ++ '-' :: ds.drop 20

def text : DebugId → String
  | .uuid digits age => .ofList (hyphenate digits ++ ageChars age)
  | .timestamp time age =>
    let digits := (Nat.toDigits 16 time.toNat).map Char.toUpper
    .ofList (List.replicate (8 - digits.length) '0' ++ digits ++ ageChars age)

end DebugId

end Provenance
