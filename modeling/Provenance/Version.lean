import Provenance.Json.Number
import Provenance.Text.Shown

/-!
# Versions

A version is three numbers, then perhaps pre-release identifiers after a hyphen and build metadata
after a plus sign, both in segments parted by dots. Numbers have no leading zero and fit 64 bits.
`parse` stops at the first fault from the left and names the part in which it lies.
-/

namespace Provenance

structure Version where
  major : Nat
  minor : Nat
  patch : Nat
  preRelease : List Char
  build : List Char
deriving DecidableEq, Repr

/-- A part of a version. -/
inductive VersionPart where
  | major
  | minor
  | patch
  | preRelease
  | build
deriving DecidableEq, Repr

/-- Why a text is no version. -/
inductive VersionError where
  | empty
  | unexpectedEnd (part : VersionPart)
  | unexpectedChar (part : VersionPart) (c : Char)
  | unexpectedCharAfter (part : VersionPart) (c : Char)
  | leadingZero (part : VersionPart)
  | overflow (part : VersionPart)
  | emptySegment (part : VersionPart)
deriving DecidableEq, Repr

def VersionPart.name : VersionPart → String
  | .major => "major version number"
  | .minor => "minor version number"
  | .patch => "patch version number"
  | .preRelease => "pre-release identifier"
  | .build => "build metadata"

def VersionError.message : VersionError → String
  | .empty => "empty string, expected a semver version"
  | .unexpectedEnd part => "unexpected end of input while parsing " ++ part.name
  | .unexpectedChar part c =>
    "unexpected character " ++ Shown.char c ++ " while parsing " ++ part.name
  | .unexpectedCharAfter part c => "unexpected character " ++ Shown.char c ++ " after " ++ part.name
  | .leadingZero part => "invalid leading zero in " ++ part.name
  | .overflow part => "value of " ++ part.name ++ " exceeds u64::MAX"
  | .emptySegment part => "empty identifier segment in " ++ part.name

namespace Version

/-! ### Reading -/

/-- The digits of a number, taken onto a value; `count` digits are taken already. -/
def digitsFrom (part : VersionPart) (value count : Nat) :
    List Char → Except VersionError (Nat × List Char)
  | [] => if count = 0 then .error (.unexpectedEnd part) else .ok (value, [])
  | c :: cs =>
    if Json.Number.isDigit c then
      let next := value * 10 + Json.Number.digit c
      if value = 0 ∧ 0 < count then .error (.leadingZero part)
      else if UInt64.size ≤ next then .error (.overflow part)
      else digitsFrom part next (count + 1) cs
    else if count = 0 then .error (.unexpectedChar part c)
    else .ok (value, c :: cs)

def number (part : VersionPart) (s : List Char) : Except VersionError (Nat × List Char) :=
  digitsFrom part 0 0 s

/-- The text after the dot that follows a part. -/
def afterDot (part : VersionPart) : List Char → Except VersionError (List Char)
  | '.' :: rest => .ok rest
  | c :: _ => .error (.unexpectedCharAfter part c)
  | [] => .error (.unexpectedEnd part)

def isIdentifierChar (c : Char) : Bool := c.isAlphanum || c = '-'

/-- A segment is no number with a leading zero. Build metadata may be anything. -/
def checkSegment (part : VersionPart) (segment : List Char) : Except VersionError Unit :=
  if part = .preRelease && segment.all Json.Number.isDigit && 1 < segment.length &&
      segment.head? = some '0' then
    .error (.leadingZero part)
  else .ok ()

/-- The segments of identifiers, none of them empty, and the text after them. -/
def identifiers (part : VersionPart) (s : List Char) :
    Except VersionError (List Char × List Char) :=
  match s.takeWhile isIdentifierChar with
  | [] => .error (.emptySegment part)
  | c :: cs =>
    match checkSegment part (c :: cs) with
    | .error e => .error e
    | .ok () =>
      match _h : s.dropWhile isIdentifierChar with
      | '.' :: rest =>
        match identifiers part rest with
        | .error e => .error e
        | .ok (more, rest) => .ok (c :: cs ++ '.' :: more, rest)
      | rest => .ok (c :: cs, rest)
termination_by s.length
decreasing_by
  have := (List.dropWhile_suffix (l := s) isIdentifierChar).length_le
  simp only [_h, List.length_cons] at this
  omega

/-- The part after a mark, if the text goes on with the mark. -/
def marked (mark : Char) (part : VersionPart) (s : List Char) :
    Except VersionError (Option VersionPart × List Char × List Char) :=
  match s with
  | c :: rest =>
    if c = mark then (identifiers part rest).map fun (ids, rest) => (some part, ids, rest)
    else .ok (none, [], s)
  | [] => .ok (none, [], [])

/-- Reads a version. -/
def parse (text : String) : Except VersionError Version := do
  let s := text.toList
  if s.isEmpty then throw .empty
  let (major, s) ← number .major s
  let s ← afterDot .major s
  let (minor, s) ← number .minor s
  let s ← afterDot .minor s
  let (patch, s) ← number .patch s
  let (pre, preRelease, s) ← marked '-' .preRelease s
  let (meta?, build, s) ← marked '+' .build s
  match s with
  | [] => return ⟨major, minor, patch, preRelease, build⟩
  | c :: _ => throw (.unexpectedCharAfter ((meta?.orElse fun _ => pre).getD .patch) c)

/-! ### Writing -/

def text (v : Version) : String :=
  let tail (mark : Char) (ids : List Char) : List Char := if ids.isEmpty then [] else mark :: ids
  s!"{v.major}.{v.minor}.{v.patch}" ++ .ofList (tail '-' v.preRelease ++ tail '+' v.build)

end Version

end Provenance
