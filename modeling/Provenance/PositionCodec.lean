import Provenance.Json.Decode
import Provenance.Position

/-!
# Positions as JSON

A position is written as an object of its line and column, and read from that or from the pair.
-/

namespace Provenance.Position

def toJson (p : Position) : Json := .object [("column", .word p.column), ("line", .word p.line)]

def ofJson : Json → Except DecodeError Position
  | .object fields => do
    Decode.inOrder [("line", Decode.check Decode.word), ("column", Decode.check Decode.word)] fields
    let line ← Decode.required "line" Decode.word fields
    let column ← Decode.required "column" Decode.word fields
    return ⟨line, column⟩
  | .array items =>
    match items with
    | line :: column :: extra => do
      let line ← Decode.word line
      let column ← Decode.word column
      if extra.isEmpty then return ⟨line, column⟩ else throw (Decode.tooLong items)
    | line :: [] => do
      let _ ← Decode.word line
      throw (.wrongLength 1 "struct Position with 2 elements")
    | [] => throw (.wrongLength 0 "struct Position with 2 elements")
  | v => throw (.wrongType v "struct Position")

end Provenance.Position
