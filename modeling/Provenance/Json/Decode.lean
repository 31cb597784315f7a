import Provenance.Decimal.Notation
import Provenance.Json.Basic
import Provenance.Text.Shown

/-!
# Typed decoding

Decoders turn JSON values into domain types. A `DecodeError` is the first thing that kept a value
from being read; `message` gives its wording. A record is read from an object, its fields in any
order and unknown ones ignored, or from the array of its fields.
-/

namespace Provenance

/-- Why a value could not be decoded. -/
inductive DecodeError where
  | wrongType (found : Json) (expected : String)
  | outOfRange (found : Int) (expected : String)
  | wrongLength (length : Nat) (expected : String)
  | notOneKey
  | missingField (name : String)
  | unknownVariant (name : String) (known : List String)
deriving DecidableEq

/-- A value as messages name it: scalars with their content, containers by kind. -/
def Json.shown : Json → String
  | .null => "null"
  | .bool b => "boolean `" ++ (if b then "true" else "false") ++ "`"
  | .int n => "integer `" ++ toString n ++ "`"
  | .float x => "floating point `" ++ x.text ++ "`"
  | .string s => "string " ++ Shown.string s
  | .array _ => "sequence"
  | .object _ => "map"

def DecodeError.message : DecodeError → String
  | .wrongType found expected => "invalid type: " ++ found.shown ++ ", expected " ++ expected
  | .outOfRange found expected =>
    "invalid value: integer `" ++ toString found ++ "`, expected " ++ expected
  | .wrongLength length expected =>
    "invalid length " ++ toString length ++ ", expected " ++ expected
  | .notOneKey => "invalid value: map, expected map with a single key"
  | .missingField name => "missing field `" ++ name ++ "`"
  | .unknownVariant name known =>
    "unknown variant `" ++ name ++ "`, expected one of " ++
      ", ".intercalate (known.map fun k => "`" ++ k ++ "`")

namespace Decode

/-! ### Scalars and containers -/

def string : Json → Except DecodeError String
  | .string s => .ok s
  | v => .error (.wrongType v "a string")

/-- An integer in the range of 32-bit words. -/
def word : Json → Except DecodeError UInt32
  | .int n => if 0 ≤ n ∧ n.toNat < UInt32.size then .ok (.ofNat n.toNat) else .error (.outOfRange n "u32")
  | v => .error (.wrongType v "u32")

/-- Null stands for no value. -/
def nullable {α : Type} (decode : Json → Except DecodeError α) :
    Json → Except DecodeError (Option α)
  | .null => .ok none
  | v => (decode v).map some

def list {α : Type} (decode : Json → Except DecodeError α) :
    Json → Except DecodeError (List α)
  | .array items => items.mapM decode
  | v => .error (.wrongType v "a sequence")

/-! ### Records -/

/-- Decodes the known fields in the order in which they stand, for the first problem among them. -/
def inOrder (known : List (String × (Json → Except DecodeError Unit))) :
    Json.Fields → Except DecodeError Unit
  | [] => .ok ()
  | (key, value) :: rest =>
    match known.lookup key with
    | some decode => do decode value; inOrder known rest
    | none => inOrder known rest

/-- Decodes for problems only. -/
def check {α : Type} (decode : Json → Except DecodeError α) (v : Json) : Except DecodeError Unit :=
  (decode v).map fun _ => ()

/-- A field that must be there. -/
def required {α : Type} (name : String) (decode : Json → Except DecodeError α)
    (fields : Json.Fields) : Except DecodeError α :=
  match Json.Fields.get? name fields with
  | some v => decode v
  | none => .error (.missingField name)

/-- A field that may be absent or null. -/
def optional {α : Type} (name : String) (decode : Json → Except DecodeError α)
    (fields : Json.Fields) : Except DecodeError (Option α) :=
  match Json.Fields.get? name fields with
  | some v => nullable decode v
  | none => .ok none

/-- More elements than a record has fields. -/
def tooLong (items : List Json) : DecodeError :=
  .wrongLength items.length "fewer elements in array"

end Decode

end Provenance
