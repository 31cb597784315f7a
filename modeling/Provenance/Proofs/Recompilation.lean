import Provenance.Proofs.ErasedBrackets
import Provenance.Proofs.Outcome

/-!
# Intermediate code compiled again

Intermediate code of a source without errors has no string and no comment left open. Its brackets
are those of the kept tokens, so they are nested if every erased span ends where its type or its
declaration does. Where one does not, a bracket is erased without its partner, and the code of a
source without errors has some.
-/

namespace Provenance

/-! ### Tokens of a text -/

section

open Lexeme Erasure

/-- A lexeme that is one bracket is punctuation. -/
lemma kind_eq_of_fits {kind : TokenKind} {closed : Bool} {c : Char} {rest : List Char}
    (hc : isNameStart c = false ∧ c.isDigit = false ∧ isQuote c = false)
    (h : Fits (.token kind closed) [c] rest) : kind = .punctuation := by
  obtain ⟨hname, hdigit, hquote⟩ := hc
  obtain ⟨c', cs, heq, hm⟩ := h
  obtain ⟨rfl, -⟩ := List.cons.inj heq
  obtain ⟨-, -, -, hm⟩ := measure_eq_token.1 hm
  cases kind with
  | name => simp [hname] at hm
  | number => simp [hdigit] at hm
  | string => simp [hquote] at hm
  | punctuation => rfl

lemma punctuated_tokens (text : List Char) : Punctuated (tokens text) := by
  intro t ht hbracket
  obtain ⟨rest, closed, hfits⟩ := reads_of_mem_tokens ht
  rw [isOpener_iff, isCloser_iff] at hbracket
  rw [Token.chars] at hfits
  rcases hbracket with (h | h | h | h) | h | h | h | h <;> rw [h] at hfits <;>
    exact kind_eq_of_fits (by decide) hfits

end

/-- Whether tokens are nested is told by their kinds and texts. -/
lemma Nested.congr {ts us : List Token} (h : Nested ts)
    (heq : ts.map (fun t => (t.kind, t.text)) = us.map fun t => (t.kind, t.text)) : Nested us := by
  have hsame : ∀ {t u : Token}, (t.kind, t.text) = (u.kind, u.text) →
      u.opens? = t.opens? ∧ u.closes? = t.closes? := by
    intro t u htu
    obtain ⟨hkind, htext⟩ := Prod.mk.inj htu
    simp [Token.opens?, Token.closes?, hkind, htext]
  induction h generalizing us with
  | nil =>
    obtain rfl := List.map_eq_nil_iff.1 heq.symm
    exact .nil
  | plain isPlain _ ih =>
    obtain ⟨u, us, rfl, hu, hus⟩ := List.map_eq_cons_iff.1 heq.symm
    obtain ⟨hopens, hcloses⟩ := hsame hu.symm
    exact .plain ⟨hopens.trans isPlain.1, hcloses.trans isPlain.2⟩ (ih hus.symm)
  | enclosed opens _ closes _ ih ih' =>
    rw [List.map_cons, List.map_append, List.map_cons] at heq
    obtain ⟨u, us, rfl, hu, hus⟩ := List.map_eq_cons_iff.1 heq.symm
    obtain ⟨inner, more, rfl, hinner, hmore⟩ := List.map_eq_append_iff.1 hus
    obtain ⟨v, us, rfl, hv, hus⟩ := List.map_eq_cons_iff.1 hmore
    exact .enclosed ((hsame hu.symm).1.trans opens) (ih hinner.symm)
      ((hsame hv.symm).2.trans closes) (ih' hus.symm)

/-! ### Nothing is left open -/

/-- A string or a comment that was left open. -/
def Lexeme.IsOpen (l : Lexeme) : Prop :=
  l.kind = .token .string false ∨ l.kind = .blockComment false

lemma lexicalErrorsFrom_eq_nil_iff {p : TextPlace} {ls : List Lexeme} :
    lexicalErrorsFrom p ls = [] ↔ ∀ l ∈ ls, ¬ l.IsOpen := by
  induction ls generalizing p with
  | nil => simp [lexicalErrorsFrom]
  | cons l ls ih =>
    rw [List.forall_mem_cons, lexicalErrorsFrom]
    split
    · next h => simp [Lexeme.IsOpen, h]
    · next h => simp [Lexeme.IsOpen, h]
    · next hstring hcomment =>
      have : ¬ l.IsOpen := by
        rintro (h | h)
        · exact hstring h
        · exact hcomment h
      simp [this, ih]

/-- A text in which no string and no comment is left open. -/
def AllClosed (text : List Char) : Prop := ∀ l ∈ lexemes text, ¬ l.IsOpen

lemma lexicalErrors_eq_nil_iff {text : List Char} : lexicalErrors text = [] ↔ AllClosed text :=
  lexicalErrorsFrom_eq_nil_iff

namespace AllClosed

variable {kind : LexemeKind} {chars rest : List Char}

lemma nil : AllClosed [] := by simp [AllClosed, lexemes]

lemma prepend (h : AllClosed rest) (hfits : Lexeme.Fits kind chars rest)
    (hkind : kind ≠ .token .string false ∧ kind ≠ .blockComment false) :
    AllClosed (chars ++ rest) := by
  rw [AllClosed, hfits.lexemes, List.forall_mem_cons]
  exact ⟨not_or.2 hkind, h⟩

lemma lineFeed (h : AllClosed rest) : AllClosed ('\n' :: rest) :=
  h.prepend (Lexeme.fits_lineFeed rest) (by simp)

lemma blanks (h : AllClosed rest) (hblank : ∀ c ∈ chars, isBlank c ∧ c ≠ '\n') :
    AllClosed (chars ++ rest) := by
  induction chars with
  | nil => exact h
  | cons c cs ih =>
    obtain ⟨⟨hc, hn⟩, hblank⟩ := List.forall_mem_cons.1 hblank
    exact (ih hblank).prepend (Lexeme.fits_blank hc hn _) (by simp)

end AllClosed

/-- A closed token is closed in front of any text that leaves it alone. -/
lemma Token.Closed.fits {t : Token} {rest : List Char} (h : t.Closed) (hreads : t.Reads rest) :
    Lexeme.Fits (.token t.kind true) t.chars rest := by
  obtain ⟨closed, hreads⟩ := hreads
  by_cases hkind : t.kind = .string
  · obtain ⟨rest', c, cs, hchars, hm⟩ := h
    refine ⟨c, cs, hchars, ?_⟩
    obtain ⟨c', cs', hchars', hm'⟩ := hreads
    obtain ⟨rfl, rfl⟩ := List.cons.inj (hchars.symm.trans hchars')
    rw [hkind, Lexeme.measure_eq_token] at hm hm' ⊢
    obtain ⟨hn, hb, hslash, hstart, hdigit, hquote, -⟩ := hm'
    exact ⟨hn, hb, hslash, hstart, hdigit, hquote,
      Lexeme.stringSpan_append hm.2.2.2.2.2.2 (by simp)⟩
  · rwa [hreads.closed hkind] at hreads

namespace Intermediate

variable {row ts : List Token} {t : Token} {rest : List Char} {text : List Char}

/-- Nothing is left open in a printed line. -/
lemma allClosed_lineChars (h : AllClosed rest) (hreadable : Readable row)
    (hclosed : ∀ t ∈ row, t.Closed) (leading : Bool) :
    AllClosed (Printed.lineChars leading row ++ '\n' :: rest) := by
  induction row generalizing leading with
  | nil => exact h.lineFeed
  | cons t ts ih =>
    obtain ⟨ht, hclosed⟩ := List.forall_mem_cons.1 hclosed
    have hgap : ∀ c ∈ Printed.gap leading t, isBlank c ∧ c ≠ '\n' := by
      intro c hc
      refine ⟨isBlank_of_mem_gap hc, ?_⟩
      rintro rfl
      unfold Printed.gap at hc
      split_ifs at hc
      · exact absurd (List.mem_singleton.1 hc) (by decide)
      · exact absurd hc List.not_mem_nil
    rw [Printed.lineChars_cons, List.append_assoc, List.append_assoc]
    apply AllClosed.blanks _ hgap
    apply AllClosed.prepend (ih hreadable.tail hclosed false) (ht.fits (hreadable.reads rest))
    simp

lemma allClosed_rows {sourceLines : List (List Char)} {rows : List (List Token)}
    (hreadable : ∀ row ∈ rows, Readable row) (hclosed : ∀ row ∈ rows, ∀ t ∈ row, t.Closed) :
    AllClosed (rows.flatMap (rowChars sourceLines)) := by
  induction rows with
  | nil => exact .nil
  | cons row rows ih =>
    obtain ⟨hrow, hreadable⟩ := List.forall_mem_cons.1 hreadable
    obtain ⟨hrow', hclosed⟩ := List.forall_mem_cons.1 hclosed
    rw [List.flatMap_cons, rowChars, List.append_assoc, List.append_assoc]
    apply AllClosed.blanks _ fun c hc => blank_of_mem_rowIndent hc
    exact allClosed_lineChars (ih hreadable hclosed) hrow hrow' true

/-- Intermediate code of a source without lexical errors has none. -/
lemma lexicalErrors_print (h : lexicalErrors text = []) :
    lexicalErrors (printedCode text) = [] := by
  apply lexicalErrors_eq_nil_iff.2
  apply allClosed_rows
  · exact fun row hrow => (printable_of_mem_rows h hrow).readable
  · exact fun row hrow => (printable_of_mem_rows h hrow).closed

/-! ### Compiling again -/

/-- The tokens of intermediate code are those that were kept, as far as kinds and texts tell. -/
lemma map_kind_text_print (text : List Char) :
    (tokens (printedCode text)).map (fun t => (t.kind, t.text)) =
      (keptTokens (tokens text)).map fun t => (t.kind, t.text) := by
  have h := congrArg (List.map fun r : Reading => (r.1, r.2.1)) (map_reading_print text)
  have hkept := congrArg (List.map fun t : Token => (t.kind, t.text))
    (map_token_printed text (keptTokens (tokens text)))
  rw [List.map_map] at h hkept
  rw [List.map_map] at h
  exact h.trans hkept

/-- Intermediate code is nested when the kept tokens are. -/
lemma nested_tokens_print_iff (text : List Char) :
    Nested (tokens (printedCode text)) ↔ Nested (keptTokens (tokens text)) := by
  have heq := map_kind_text_print text
  exact ⟨fun hnested => hnested.congr heq, fun hnested => hnested.congr heq.symm⟩

/-- Compiled again, intermediate code of a source without errors has no lexical errors. It has no
errors at all exactly when the kept tokens are nested, and so when every erased span ends
rightly. -/
theorem compile_again (file : SourceFile) (options : Config.CompilerOptions)
    (h : (compile file options).diagnostics = []) :
    let source := tokens file.text.toList
    let again : SourceFile := { file with text := (compile file options).code }
    lexicalErrors again.text.toList = [] ∧
      ((compile again options).diagnostics = [] ↔ Nested (keptTokens source)) ∧
      ((∀ s ∈ erasedSpans source, Erasure.EndsRightly (Erasure.slice s 0 source)) →
        (compile again options).diagnostics = []) := by
  intro source again
  obtain ⟨hclosed, hnested⟩ := diagnostics_eq_nil_iff.1 h
  have hcode : again.text.toList = printedCode file.text.toList := String.toList_ofList
  have herrors : lexicalErrors again.text.toList = [] := by
    rw [hcode]
    exact lexicalErrors_print hclosed
  have hiff : (compile again options).diagnostics = [] ↔ Nested (keptTokens source) := by
    rw [← nested_tokens_print_iff, ← hcode]
    constructor
    · exact fun hagain => (diagnostics_eq_nil_iff.1 hagain).nested
    · exact fun hnested' => diagnostics_eq_nil_iff.2 ⟨herrors, hnested'⟩
  refine ⟨herrors, hiff, fun hends => hiff.2 ?_⟩
  exact Erasure.nested_keptTokens (punctuated_tokens _) hnested hends

/-- Declarations that end with a brace and with a semicolon, and an annotation, end rightly. -/
theorem compile_again_declarations :
    let file : SourceFile := ⟨"a.ts",
      "interface I \x7b a: (T)[] \x7d\ntype A = \x7b b: I \x7d;\nlet c: A = d;\n"⟩
    let again : SourceFile := { file with text := (compile file ⟨[]⟩).code }
    (compile file ⟨[]⟩).diagnostics = [] ∧ (compile again ⟨[]⟩).diagnostics = [] := by
  intro file again
  have h : (compile file ⟨[]⟩).diagnostics = [] := List.isEmpty_iff.1 (by decide +kernel)
  have hends : ∀ s ∈ erasedSpans (tokens file.text.toList),
      (∀ t ∈ Erasure.slice s 0 (tokens file.text.toList), ¬ t.IsAngle) ∧
        ((Erasure.slice s 0 (tokens file.text.toList)).head?.map Token.text = some "type" →
          (Erasure.slice s 0 (tokens file.text.toList)).getLast?.map Token.text = some ";") := by
    decide +kernel
  obtain ⟨-, -, hagain⟩ := compile_again file ⟨[]⟩ h
  exact ⟨h, hagain fun s hs => .inr (hends s hs)⟩

/-- A `type` declaration without a semicolon takes the closing brace of its block with it, and what
is left of the block is not closed. -/
theorem compile_again_block :
    let file : SourceFile := ⟨"a.ts", "function f() \x7b\n  type A = string\n\x7d\n"⟩
    let again : SourceFile := { file with text := (compile file ⟨[]⟩).code }
    (compile file ⟨[]⟩).diagnostics = [] ∧ again.text = "function f() \x7b\n" ∧
      (compile again ⟨[]⟩).diagnostics ≠ [] := by
  intro file again
  refine ⟨List.isEmpty_iff.1 ?_, ?_, fun h => ?_⟩
  · decide +kernel
  · decide +kernel
  · have : (compile again ⟨[]⟩).diagnostics.isEmpty = false := by decide +kernel
    rw [h] at this
    cases this

end Intermediate

end Provenance
