import Provenance.Mapping.Document
import Provenance.Mapping.OriginIndex

/-!
# Maps of either form

A transformer may report its map as a list of raw mappings or as a structured map. The JSON form
tells them apart: an array is a list, an object is structured.
-/

namespace Provenance

/-- A map from generated positions to their origins. -/
inductive PositionMap where
  | raw (mappings : List RawMapping)
  | structured (map : SourceMap)
deriving DecidableEq, Repr

/-- Why a value is not a map. -/
inductive MapError where
  | format (cause : MapFormatError)
  | entry (cause : DecodeError)
  | shape (found : String)
deriving DecidableEq

def MapError.message : MapError → String
  | .format cause => "source map error: " ++ cause.message
  | .entry cause => "invalid source map JSON: " ++ cause.message
  | .shape found => "expected a mapping list or a source map object, found " ++ found

/-- The kind of a JSON value. -/
def Json.kindName : Json → String
  | .null => "null"
  | .bool _ => "boolean"
  | .int _ | .float _ => "number"
  | .string _ => "string"
  | .array _ => "array"
  | .object _ => "object"

namespace PositionMap

def ofJson (v : Json) : Except MapError PositionMap :=
  match v with
  | .array items => ((items.mapM RawMapping.ofJson).map .raw).mapError .entry
  | .object _ => ((SourceMap.ofJson v).map .structured).mapError .format
  | v => .error (.shape v.kindName)

def toJson : PositionMap → Json
  | .raw mappings => .array (mappings.map RawMapping.toJson)
  | .structured map => map.toJson

def originIndex : PositionMap → OriginIndex
  | .raw mappings => .ofRaw mappings
  | .structured map => .ofSourceMap map

end PositionMap

end Provenance
