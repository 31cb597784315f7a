/-!
# Text as bytes

The bytes of a text in UTF-8, and the text that bytes spell if they are well formed.
-/

namespace Provenance

/-- A sequence of bytes. -/
abbrev Bytes := List UInt8

/-- The bytes of a text. -/
def utf8 (s : String) : Bytes := s.toUTF8.toList

/-- The text that bytes spell. Bytes that are not well formed spell none. -/
def ofUtf8? (bytes : Bytes) : Option String := String.fromUTF8? ⟨bytes.toArray⟩

end Provenance
