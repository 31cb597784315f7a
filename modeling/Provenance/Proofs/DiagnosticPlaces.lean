import Provenance.Proofs.CheckedCompile
import Provenance.Proofs.LineColumns
import Provenance.Proofs.Nesting
import Provenance.Proofs.Partition

/-!
# Where diagnostics point

An error of the lexer or of the brackets has an offset in bytes. The diagnostic has it in
characters, and its location is found by the line index of the file. It points where the lexer
stood: at the token that is wrong, on the line that the lexer counted and at the column that it
counted, in characters, or just past the end of the text.
-/

namespace Provenance

open Text (byteLength lastPiece)

/-! ### Where errors arise -/

/-- A string that is left open is an error at its token; a comment, one at the end of the text. -/
inductive LexicalError.Arises (text : List Char) : LexicalError → Option Token → Prop where
  | openString {t : Token} {before rest : List Char} (mem : t ∈ tokens text)
      (cut : text = before ++ (t.chars ++ rest)) (stands : t.StandsAfter before)
      (isOpen : Lexeme.IsToken .string false t.chars rest) :
      Arises text (.openString t.offset) (some t)
  | openComment {before body : List Char} (cut : text = before ++ '/' :: '*' :: body)
      (isOpen : ¬ ['*', '/'] <:+: body) : Arises text (.openComment (byteLength text)) none

namespace Brackets

/-- The closing brackets that are expected behind a token, the innermost first. -/
def expectNext (expected : List String) (t : Token) : List String :=
  match t.opens?, t.closes? with
  | some closer, _ => closer :: expected
  | none, some _ => expected.tail
  | none, none => expected

/-- The closing brackets that are expected behind tokens, the innermost first. -/
def expectAfter (expected : List String) (ts : List Token) : List String :=
  ts.foldl expectNext expected

/-- A closing bracket is wrong if another one is expected, and stray if none is; at the end the
innermost bracket that is expected is missing. -/
inductive Arises (expected : List String) (ts : List Token) :
    BracketError → Option Token → Prop where
  | mismatch {before after : List Token} {t : Token} {closer found : String} {outer : List String}
      (cut : ts = before ++ t :: after) (expects : expectAfter expected before = closer :: outer)
      (closes : t.closes? = some found) (ne : closer ≠ found) :
      Arises expected ts (.mismatch closer t.offset) (some t)
  | stray {before after : List Token} {t : Token} {found : String}
      (cut : ts = before ++ t :: after) (expects : expectAfter expected before = [])
      (closes : t.closes? = some found) : Arises expected ts (.stray t.offset) (some t)
  | unclosed {closer : String} {outer : List String}
      (expects : expectAfter expected ts = closer :: outer) :
      Arises expected ts (.unclosed closer) none

variable {expected : List String} {t : Token} {ts : List Token} {e : BracketError}
  {place : Option Token}

/-- An error among tokens is one among them behind another token. -/
lemma Arises.cons (h : Arises (expectNext expected t) ts e place) :
    Arises expected (t :: ts) e place := by
  cases h with
  | @mismatch before after u _ _ _ cut expects closes ne =>
    have hcut : t :: ts = (t :: before) ++ u :: after := congrArg (t :: ·) cut
    exact .mismatch hcut expects closes ne
  | @stray before after u _ cut expects closes =>
    have hcut : t :: ts = (t :: before) ++ u :: after := congrArg (t :: ·) cut
    exact .stray hcut expects closes
  | unclosed expects => exact .unclosed expects

end Brackets

/-! ### Locations -/

variable {file : SourceFile} {before rest : List Char}

end Provenance
