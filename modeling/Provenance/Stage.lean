import Provenance.Config.Document
import Provenance.Diagnostic.Basic
import Provenance.Mapping.PositionMap

/-!
# The two stages

Code is compiled twice: a compiler turns typed source into intermediate code, and a transformer
turns that into the final code. Both are given from outside; here is what they take and what they
give back.
-/

namespace Provenance

/-! ### The first stage -/

/-- What a compiler gives back: the intermediate code, the text of its map and what it found. -/
structure CompileOutput where
  code : String
  mapText : String
  diagnostics : List Diagnostic

/-- The first stage. -/
structure Compiler where
  compile : SourceFile → Config.CompilerOptions → CompileOutput

/-! ### The second stage -/

/-- What a transformer is asked to transform. -/
structure TransformRequest where
  source : String
  fileName : String
  options : Json
deriving DecidableEq

/-- What a transformer gives back; each part may be missing. -/
structure TransformOutput where
  code : Option String
  tree : Option Json
  map : Option PositionMap
  metadata : Json.Fields
deriving DecidableEq

/-- The second stage. It fails with a message, and may name the version of its own behaviour. -/
structure Transformer where
  transform : TransformRequest → Except String TransformOutput
  fingerprint : Option String

/-- A second stage that takes the parts of a request one by one. -/
structure PositionalTransformer where
  transform : (source fileName : String) → (options : Json) → Except String TransformOutput

namespace PositionalTransformer

/-- A positional transformer behind the common interface. It has no fingerprint. -/
def toTransformer (t : PositionalTransformer) : Transformer where
  transform request := t.transform request.source request.fileName request.options
  fingerprint := none

end PositionalTransformer

end Provenance
