import Provenance.Json.Number
import Provenance.Json.Quoted

/-!
# JSON as written

A `Written` is the form of a JSON text, its numbers and strings as they were written. A number may
be too large to have a value, and half of a surrogate pair is no text; `toJson?` gives the value of
a form all of whose parts have one. A reader that is after a few fields of an object passes over
the others, whatever they hold: `keeping` takes them out before any value is looked for.
-/

namespace Provenance.Json

/-- The form of a JSON text. -/
inductive Written where
  | null
  | bool (b : Bool)
  | number (literal : Number.Literal)
  | string (pieces : List Quoted.Piece)
  | array (items : List Written)
  | object (fields : List (List Quoted.Piece × Written))
deriving Inhabited

namespace Written

/-! ### Values -/

/-- The text that the pieces of a string make up. -/
def text? (pieces : List Quoted.Piece) : Option String := (Quoted.join? pieces).map .ofList

mutual
/-- The value of a form, the fields of its objects as written. -/
def value? : Written → Option Json
  | .null => some .null
  | .bool b => some (.bool b)
  | .number literal => literal.value?
  | .string pieces => (text? pieces).map .string
  | .array items => (itemValues? items).map .array
  | .object fields => (fieldValues? fields).map .object

def itemValues? : List Written → Option (List Json)
  | [] => some []
  | w :: ws => do
    let v ← value? w
    let vs ← itemValues? ws
    return v :: vs

def fieldValues? : List (List Quoted.Piece × Written) → Option (List (String × Json))
  | [] => some []
  | (key, w) :: rest => do
    let key ← text? key
    let v ← value? w
    let fields ← fieldValues? rest
    return (key, v) :: fields
end

/-! ### Nesting -/

mutual
/-- How many containers enclose the innermost part of a form, the form itself included. -/
def nesting : Written → Nat
  | .array items => itemsNesting items + 1
  | .object fields => fieldsNesting fields + 1
  | _ => 0

def itemsNesting : List Written → Nat
  | [] => 0
  | w :: ws => max (nesting w) (itemsNesting ws)

def fieldsNesting : List (List Quoted.Piece × Written) → Nat
  | [] => 0
  | (_, w) :: rest => max (nesting w) (fieldsNesting rest)
end

/-- The deepest nesting that is read. -/
def maxNesting : Nat := 127

/-- The value of a form that is not nested too deeply, the fields of its objects as written. -/
def toJson? (w : Written) : Option Json := if w.nesting ≤ maxNesting then w.value? else none

/-! ### Fields passed over -/

/-- Whether a key is the given name. -/
def isKey (name : String) (key : List Quoted.Piece) : Bool := text? key = some name

/-- The form with nothing left of an object's fields but those of the given names. -/
def keeping (names : List String) : Written → Written
  | .object fields =>
    .object (fields.map fun (key, w) => (key, if names.any (isKey · key) then w else .null))
  | w => w

end Written

end Provenance.Json
