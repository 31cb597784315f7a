import Provenance.Mapping.SourceMap
import Provenance.Mapping.Vlq
import Provenance.Text.Lines

/-!
# The text of segments

The segments of a structured map are written line by line, lines ended by semicolons and segments
parted by commas. A segment is one, four or five numbers, each the difference from the last number
of its kind: the generated column within the line, the others through the whole map. Range flags
are written apart, one bit for each segment of a line, six to a base-64 digit.
-/

namespace Provenance

/-- Why a map could not be read. -/
inductive MapFormatError where
  /-- The text is no JSON, or a field has the wrong type. -/
  | badJson
  /-- The map is an index of sections or carries scopes. -/
  | incompatible
  | noLineFeed
  | vlq (problem : Vlq.Problem)
  | segmentLength (count : Nat)
  | noSource (number : UInt32)
  | noName (number : UInt32)
  | rangeDigit (c : Char)
deriving DecidableEq, Repr

def MapFormatError.message : MapFormatError → String
  | .badJson => "bad json"
  | .incompatible => "encountered incompatible sourcemap format"
  | .noLineFeed => "expected newline"
  | .vlq .unfinished => "leftover cur/shift in vlq decode"
  | .vlq .overflow => "vlq decode caused an overflow"
  | .segmentLength count => s!"got {count} segments, expected 4 or 5"
  | .noSource number => s!"bad reference to source #{number}"
  | .noName number => s!"bad reference to name #{number}"
  | .rangeDigit c => "invalid base64 character: " ++ c.toString

namespace Segments

/-! ### Running values -/

/-- The last number of each kind: what the next one is a difference from. -/
structure Running where
  column : UInt32
  source : UInt32
  line : UInt32
  sourceColumn : UInt32
  name : UInt32
deriving DecidableEq, Repr

def Running.zero : Running := ⟨0, 0, 0, 0, 0⟩

/-- A word moved by a signed difference, modulo the size of words. -/
def advance (w : UInt32) (difference : Int) : UInt32 := .ofInt (w.toNat + difference)

/-- The difference that leads from one word to another. -/
def difference (last next : UInt32) : Int := (next.toNat : Int) - last.toNat

/-! ### Reading -/

/-- The generated column of a segment, then its origin. The source must be one of the map's. -/
def takeOrigin (sources : Nat) (r : Running) (column source line sourceColumn : Int) :
    Except MapFormatError Running :=
  let number := advance r.source source
  if number.toNat < sources then
    .ok { r with
      column := advance r.column column
      source := number
      line := advance r.line line
      sourceColumn := advance r.sourceColumn sourceColumn }
  else .error (.noSource number)

/-- One segment from its numbers. -/
def ofNumbers (line : UInt32) (sources names : Nat) (isRange : Bool) (r : Running) :
    List Int → Except MapFormatError (Segment × Running)
  | [column] =>
    let r := { r with column := advance r.column column }
    .ok (⟨⟨line, r.column⟩, none, isRange⟩, r)
  | [column, source, sourceLine, sourceColumn] => do
    let r ← takeOrigin sources r column source sourceLine sourceColumn
    return (⟨⟨line, r.column⟩, some ⟨r.source, ⟨r.line, r.sourceColumn⟩, none⟩, isRange⟩, r)
  | [column, source, sourceLine, sourceColumn, name] => do
    let r ← takeOrigin sources r column source sourceLine sourceColumn
    let number := advance r.name name
    if number.toNat < names then
      return (⟨⟨line, r.column⟩, some ⟨r.source, ⟨r.line, r.sourceColumn⟩, some number⟩, isRange⟩,
        { r with name := number })
    else throw (.noName number)
  | numbers => .error (.segmentLength numbers.length)

/-- The segments of one line. Empty pieces are passed over, but count as places for flags. -/
def readLine (line : UInt32) (sources names : Nat) (r : Running) :
    List (List Char) → List Bool → Except MapFormatError (List Segment × Running)
  | [], _ => .ok ([], r)
  | [] :: pieces, flags => readLine line sources names r pieces flags.tail
  | piece :: pieces, flags => do
    let numbers ← (Vlq.decode piece).mapError MapFormatError.vlq
    let (segment, r) ← ofNumbers line sources names (flags.headD false) r numbers
    let (segments, r) ← readLine line sources names r pieces flags.tail
    return (segment :: segments, r)

/-- The range flags of a line, six to a digit, the lowest bit first. -/
def readFlags (text : List Char) : Except MapFormatError (List Bool) := do
  let bits ← text.mapM fun c =>
    match Vlq.digit? c with
    | some n => .ok ((List.range 6).map fun i => n.testBit i)
    | none => .error (.rangeDigit (.ofNat (c.toString.toUTF8.toList.headD 0).toNat))
  return bits.flatten

/-- The segments of lines from a number on, with the flags of each. -/
def readLines (sources names : Nat) (r : Running) :
    UInt32 → List (List Char) → List (List Char) → Except MapFormatError (List Segment)
  | _, [], _ => .ok []
  | line, [] :: lines, flags => readLines sources names r (line + 1) lines flags.tail
  | line, text :: lines, flags => do
    let bits ← readFlags (flags.headD [])
    let (segments, r) ←
      readLine line sources names { r with column := 0 } (Text.split ',' text) bits
    let rest ← readLines sources names r (line + 1) lines flags.tail
    return segments ++ rest

/-- The segments of a map with the given numbers of sources and names, as they stand. -/
def read (sources names : Nat) (mappings ranges : String) : Except MapFormatError (List Segment) :=
  readLines sources names .zero 0 (Text.split ';' mappings.toList) (Text.split ';' ranges.toList)

/-! ### Writing -/

/-- One segment as differences from the running values. -/
def writeSegment (r : Running) (s : Segment) : List Char × Running :=
  let column := Vlq.encode (difference r.column s.generated.column)
  let r := { r with column := s.generated.column }
  match s.origin with
  | none => (column, r)
  | some ⟨source, point, name⟩ =>
    let origin := Vlq.encode (difference r.source source) ++
      Vlq.encode (difference r.line point.line) ++
      Vlq.encode (difference r.sourceColumn point.column)
    let r := { r with source := source, line := point.line, sourceColumn := point.column }
    match name with
    | none => (column ++ origin, r)
    | some name =>
      (column ++ origin ++ Vlq.encode (difference r.name name), { r with name := name })

/-- Segments after one that is already written, on the line of that one. A segment equal to the
one before it is passed over. -/
def writeAfter (r : Running) (last : Segment) : List Segment → List Char
  | [] => []
  | s :: rest =>
    if s.generated.line ≠ last.generated.line then
      let (text, r) := writeSegment { r with column := 0 } s
      List.replicate (s.generated.line.toNat - last.generated.line.toNat) ';' ++ text ++
        writeAfter r s rest
    else if s = last then writeAfter r s rest
    else
      let (text, r) := writeSegment r s
      ',' :: text ++ writeAfter r s rest

/-- Arranged segments as text. -/
def write : List Segment → List Char
  | [] => []
  | s :: rest =>
    let (text, r) := writeSegment .zero s
    List.replicate s.generated.line.toNat ';' ++ text ++ writeAfter r s rest

/-- Flags in base 64, six to a digit, up to the last one that is set. -/
def writeFlags (flags : List Nat) : List Char :=
  match flags.max? with
  | none => []
  | some last =>
    (List.range (last / 6 + 1)).map fun i =>
      Vlq.digitChar ((List.range 6).foldl
        (fun n b => if flags.contains (6 * i + b) then n + 1 <<< b else n) 0)

/-- The flags of segments from a place on. `line` is being written, its first segment is number
`first`, and `flags` are set on it. A segment's flag is set before the line moves on to that of
the segment. -/
def writeRangesFrom (line : UInt32) (first index : Nat) (flags : List Nat) :
    List Segment → List Char
  | [] => writeFlags flags
  | s :: rest =>
    let flags := if s.isRange then flags ++ [index - first] else flags
    if s.generated.line = line then writeRangesFrom line first (index + 1) flags rest
    else
      writeFlags flags ++ List.replicate (s.generated.line.toNat - line.toNat) ';' ++
        writeRangesFrom s.generated.line index (index + 1) [] rest

/-- The range flags of arranged segments, if any is set. -/
def writeRanges? (segments : List Segment) : Option (List Char) :=
  if segments.any (·.isRange) then some (writeRangesFrom 0 0 0 [] segments) else none

end Segments

end Provenance
