import Provenance.Digest.Xxh3
import Provenance.Json.Printer
import Provenance.Text.Utf8

/-!
# Fingerprints

A fingerprint is the hash of a sequence of parts. Each part is framed by its length, so that the
stream which is hashed tells where one part ends and the next begins.
-/

namespace Provenance

namespace Fingerprint

/-- A part with its length, eight bytes, in front. -/
def frame (part : Bytes) : Bytes := littleEndian 8 part.length ++ part

/-- The stream that a sequence of parts is hashed as. -/
def stream (parts : List Bytes) : Bytes := parts.flatMap frame

/-- The hash of a sequence of parts. -/
def ofParts (parts : List Bytes) : Digest := .ofBytes (stream parts)

/-- A document as a part: its compact text. -/
def documentPart (document : Json) : Bytes := utf8 document.text

/-- The version of the transformation. -/
def version : String := "0.1.0"

/-- The texts by which the logic of the transformation is told apart from that of another one. -/
def logic : List String := [version]

/-- The parts on which transformed output depends: the transformer's own fingerprint, empty when
it has none, the texts of the logic that shapes the output, and the resolved configuration. -/
def outputParts (logic : List String) (transformer : Option String) (config : Json) : List Bytes :=
  utf8 (transformer.getD "") :: (logic.map utf8 ++ [documentPart config])

/-- The fingerprint under which transformed output may be kept. -/
def ofOutput (transformer : Option String) (config : Json) : String :=
  (ofParts (outputParts logic transformer config)).text

end Fingerprint

end Provenance
