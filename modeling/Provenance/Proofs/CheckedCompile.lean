import Provenance.Checked.Compile
import Provenance.Proofs.CheckedErasure
import Provenance.Proofs.CheckedTokens
import Provenance.Proofs.IntermediateMap

/-!
# Compiling by offsets never faults

Tokens and errors stand where characters begin. So the checked compiler never faults, and it
compiles as `compile` does.
-/

namespace Provenance.Checked

open Text (byteLength byteLength_append lastPiece)
open Intermediate (rows)

/-! ### Offsets of errors -/

/-- A byte offset at which a character begins, or at which the text ends. -/
def IsBoundary (text : List Char) (offset : Nat) : Prop :=
  ∃ before rest, text = before ++ rest ∧ offset = byteLength before

lemma charsBefore_append (before rest : List Char) :
    Intermediate.charsBefore (before ++ rest) (byteLength before) = before.length := by
  induction before with
  | nil =>
    cases rest with
    | nil => rfl
    | cons c cs => exact if_neg (Nat.not_le.mpr c.utf8Size_pos)
  | cons c cs ih =>
    rw [List.cons_append, Intermediate.charsBefore, Text.byteLength_cons,
      if_pos (Nat.le_add_right _ _), Nat.add_sub_cancel_left, ih, List.length_cons]

lemma charOffset?_of_boundary {text : List Char} {offset : Nat} (h : IsBoundary text offset) :
    charOffset? text offset = some (Intermediate.charsBefore text offset) := by
  obtain ⟨before, rest, rfl, rfl⟩ := h
  rw [charOffset?, upTo?_append, charsBefore_append]
  rfl

lemma isBoundary_of_mem_tokens {text : List Char} {t : Token} (h : t ∈ tokens text) :
    IsBoundary text t.offset := by
  rw [← map_token_sites] at h
  obtain ⟨s, hs, rfl⟩ := List.mem_map.mp h
  exact ⟨s.before, _, (append_of_mem_sites hs).symm, (sound_of_mem_sites hs).offset⟩

/-- An error among lexemes stands at a boundary. -/
lemma isBoundary_of_mem_lexicalErrorsFrom {before : List Char} {spaced : Bool} {ls : List Lexeme}
    {e : LexicalError} (h : e ∈ lexicalErrorsFrom (.ofBefore before spaced) ls) :
    IsBoundary (before ++ ls.flatMap (·.chars)) e.offset := by
  induction ls generalizing before spaced with
  | nil => cases h
  | cons l ls ih =>
    have hafter : ∀ spaced, e ∈ lexicalErrorsFrom (.ofBefore (before ++ l.chars) spaced) ls →
        IsBoundary (before ++ (l :: ls).flatMap (·.chars)) e.offset := fun spaced h => by
      rw [List.flatMap_cons, ← List.append_assoc]
      exact ih h
    rw [lexicalErrorsFrom, TextPlace.after_ofBefore] at h
    split at h
    · rcases List.mem_cons.mp h with rfl | h
      · exact ⟨before, _, rfl, rfl⟩
      · exact hafter _ h
    · rcases List.mem_cons.mp h with rfl | h
      · exact ⟨before ++ l.chars, ls.flatMap (·.chars), by simp, rfl⟩
      · exact hafter _ h
    · exact hafter _ h

lemma isBoundary_of_mem_lexicalErrors {text : List Char} {e : LexicalError}
    (h : e ∈ lexicalErrors text) : IsBoundary text e.offset := by
  have hboundary : IsBoundary ([] ++ (lexemes text).flatMap (·.chars)) e.offset :=
    isBoundary_of_mem_lexicalErrorsFrom h
  rwa [List.nil_append, flatMap_chars_lexemes] at hboundary

/-- A bracket error that has an offset has that of a token. -/
lemma bracketOffset?_eq {text : List Char} {expected : List String} {ts : List Token}
    (hts : ∀ t ∈ ts, IsBoundary text t.offset) {e : BracketError}
    (h : e ∈ Brackets.check expected ts) :
    bracketOffset? text e = some (Intermediate.bracketOffset text e) := by
  induction ts generalizing expected with
  | nil =>
    cases expected with
    | nil => cases h
    | cons closer outer =>
      obtain rfl := List.mem_singleton.mp h
      rfl
  | cons t ts ih =>
    obtain ⟨ht, hts⟩ := List.forall_mem_cons.mp hts
    have hoffset := charOffset?_of_boundary ht
    unfold Brackets.check at h
    split at h
    · exact ih hts h
    split at h
    · exact ih hts h
    split at h
    · exact ih hts h
    split at h
    · rcases List.mem_cons.mp h with rfl | h
      · exact hoffset
      · exact ih hts h
    split at h
    · exact ih hts h
    · rcases List.mem_cons.mp h with rfl | h
      · exact hoffset
      · exact ih hts h

lemma diagnostics?_eq (file : SourceFile) :
    diagnostics? file (tokens file.text.toList) (lexicalErrors file.text.toList) =
      some (Intermediate.diagnostics file) := by
  have hlexical : ∀ e ∈ lexicalErrors file.text.toList,
      (charOffset? file.text.toList e.offset).map
          (fun n => Diagnostic.errorAt file (.ofNat n) e.message) =
        some (.errorAt file (.ofNat (Intermediate.charsBefore file.text.toList e.offset))
          e.message) := fun e he => by
    rw [charOffset?_of_boundary (isBoundary_of_mem_lexicalErrors he), Option.map_some]
  have hbrackets : ∀ e ∈ bracketErrors (tokens file.text.toList),
      (bracketOffset? file.text.toList e).map
          (fun n => Diagnostic.errorAt file (.ofNat n) e.message) =
        some (.errorAt file (.ofNat (Intermediate.bracketOffset file.text.toList e)) e.message) :=
    fun e he => by
      rw [bracketOffset?_eq (fun t ht => isBoundary_of_mem_tokens ht) he, Option.map_some]
  rw [diagnostics?, mapM_eq_some hlexical, mapM_eq_some hbrackets]
  rfl

/-! ### Rows -/

lemma keptOf_kept (ts : List Token) :
    keptOf ts (kept ts.length (erasedSpans ts)) = keptTokens ts := by
  have hzip : ts.zip (kept ts.length (erasedSpans ts)) =
      ts.zipIdx.map fun a => (a.1, isKept (erasedSpans ts) a.2) := by
    rw [kept, List.zip_map_right, List.zipIdx_eq_zip_range', ← List.range_eq_range']
    rfl
  rw [keptOf, hzip, List.filter_map, List.map_map]
  rfl

lemma exists_append_lastPiece (separator : Char) (cs : List Char) :
    ∃ head, cs = head ++ lastPiece separator cs := by
  induction cs using List.reverseRecOn with
  | nil => exact ⟨[], rfl⟩
  | append_singleton cs c ih =>
    by_cases hc : c = separator
    · subst hc
      exact ⟨cs ++ [c], by rw [Text.lastPiece_concat, List.append_nil]⟩
    · obtain ⟨head, hcs⟩ := ih
      have hmem : separator ∉ [c] := by simpa using Ne.symm hc
      refine ⟨head, ?_⟩
      rw [Text.lastPiece_append_of_notMem hmem, ← List.append_assoc, ← hcs]

/-- What begins a line, up to a character that fails a test as line feeds do, begins the text from
that line on. -/
lemma takeWhile_head_split {separator : Char} {test : Char → Bool} (htest : test separator = false)
    (cs ds : List Char) :
    (cs ++ (Text.split separator ds).head (Text.split_ne_nil separator ds)).takeWhile test =
      (cs ++ ds).takeWhile test := by
  induction cs with
  | cons c cs ih => by_cases hc : test c <;> simp [hc, ih]
  | nil =>
    induction ds with
    | nil => rfl
    | cons d ds ih =>
      by_cases hd : d = separator
      · subst hd
        simp [Text.split, htest]
      · simp only [List.nil_append, Text.split_cons_of_ne hd, List.head_cons] at ih ⊢
        by_cases hpass : test d <;> simp [hpass, ih]

/-- Where its line begins, the indentation of a row is found. -/
lemma rowIndent?_eq {text : List Char} {row : List Token} (h : ∀ t ∈ row, t ∈ tokens text) :
    rowIndent? text row = some (Intermediate.rowIndent (Text.split '\n' text) row) := by
  cases row with
  | nil => rfl
  | cons t ts =>
    have ht := h t List.mem_cons_self
    rw [← map_token_sites] at ht
    obtain ⟨s, hs, rfl⟩ := List.mem_map.mp ht
    have hsound := sound_of_mem_sites hs
    obtain ⟨head, hbefore⟩ := exists_append_lastPiece '\n' s.before
    have hline := Text.getElem?_split_append '\n' s.before (s.token.chars ++ s.rest)
    rw [append_of_mem_sites hs, ← hsound.line] at hline
    have hrow : Intermediate.rowIndent (Text.split '\n' text) (s.token :: ts) =
        (lastPiece '\n' s.before ++ (s.token.chars ++ s.rest)).takeWhile
          fun c => c = ' ' || c = '\t' := by
      rw [Intermediate.rowIndent, Intermediate.indentOf, List.getD_eq_getElem?_getD, hline,
        Option.getD_some, takeWhile_head_split rfl]
    have htext : text = head ++ (lastPiece '\n' s.before ++ (s.token.chars ++ s.rest)) := by
      rw [← append_of_mem_sites hs, ← List.append_assoc head, ← hbefore]
    have hstart : sub? s.token.offset s.token.column = some (byteLength head) := by
      have hlength := congrArg byteLength hbefore
      rw [byteLength_append] at hlength
      rw [hsound.offset, hsound.column, sub?_of_le (by omega)]
      congr 1
      omega
    rw [hrow, rowIndent?, hstart]
    generalize lastPiece '\n' s.before ++ (s.token.chars ++ s.rest) = line at htext ⊢
    rw [htext]
    simp only [bind, Option.bind, from?_append]
    have hslice := slice?_append head (line.takeWhile fun c => c = ' ' || c = '\t')
      (line.dropWhile fun c => c = ' ' || c = '\t')
    rwa [List.takeWhile_append_dropWhile] at hslice

/-- A compiler that goes by offsets never faults, and compiles as it should. -/
theorem compile?_eq {file : SourceFile} (options : Config.CompilerOptions)
    (hsize : byteLength file.text.toList < UInt32.size) :
    compile? file options = some (Intermediate.compile file options) := by
  have hrows : ∀ row ∈ rows (keptTokens (tokens file.text.toList)),
      (rowIndent? file.text.toList row).map (IndentedRow.mk · row) =
        some ⟨Intermediate.rowIndent (Text.split '\n' file.text.toList) row, row⟩ := by
    intro row hrow
    rw [rowIndent?_eq, Option.map_some]
    intro t ht
    apply (keptTokens_sublist _).subset
    rw [← Intermediate.flatten_rows (keptTokens (tokens file.text.toList))]
    exact List.mem_flatten_of_mem hrow ht
  rw [compile?, tokens?_eq hsize]
  simp only [bind, Option.bind, diagnostics?_eq, strip?_eq, keptOf_kept]
  rw [mapM_eq_some hrows]
  simp only [List.flatMap_map, List.zipIdx_map]
  rfl

end Provenance.Checked
