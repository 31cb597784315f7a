import Provenance.Proofs.EndToEnd
import Provenance.Proofs.Nesting
import Provenance.Proofs.RepeatedSegments

/-!
# How a file fares in the pipeline

A typed file is turned down by the first stage exactly when a string or a comment is left open or
its brackets are not nested, and by the second exactly when a line of intermediate code begins with
the word `with`. Otherwise it goes through: the map of intermediate code can always be read.
-/

namespace Provenance

/-- A source in which every string and comment is closed and the brackets are nested. -/
structure IsClean (source : List Char) : Prop where
  closed : lexicalErrors source = []
  nested : Nested (tokens source)

namespace Intermediate

variable {file : SourceFile}

/-- Nothing is wrong with clean sources, and with no others. -/
lemma diagnostics_eq_nil_iff : diagnostics file = [] ↔ IsClean file.text.toList := by
  rw [diagnostics, List.append_eq_nil_iff, List.map_eq_nil_iff, List.map_eq_nil_iff,
    bracketErrors_eq_nil_iff]
  constructor
  · rintro ⟨closed, nested⟩
    exact ⟨closed, nested⟩
  · rintro ⟨closed, nested⟩
    exact ⟨closed, nested⟩

lemma isError_of_mem_diagnostics {d : Diagnostic} (h : d ∈ diagnostics file) :
    d.severity.isError := by
  rcases List.mem_append.1 h with h | h
  · obtain ⟨e, -, rfl⟩ := List.mem_map.1 h
    rfl
  · obtain ⟨e, -, rfl⟩ := List.mem_map.1 h
    rfl

/-- Whatever is wrong with a source stops its compilation. -/
lemma firstError?_diagnostics_eq_none_iff :
    Diagnostic.firstError? (diagnostics file) = none ↔ IsClean file.text.toList := by
  rw [← diagnostics_eq_nil_iff, Diagnostic.firstError?, List.find?_eq_none]
  constructor
  · intro h
    apply List.eq_nil_iff_forall_not_mem.2
    intro d hd
    exact h d hd (isError_of_mem_diagnostics hd)
  · intro h d hd
    rw [h] at hd
    cases hd

/-- The map of intermediate code can be read. Nothing is assumed of the length of the source, as its
offsets, lines and columns are numbers without a bound. They stand for words of 32 bits: those of a
source of 4 GiB or more have none, may coincide when the map is written in words, and then a segment
that is repeated is read once. -/
lemma exists_ofText_told (file : SourceFile) (options : Config.CompilerOptions) :
    ∃ first, SourceMap.ofText (map file options).text = .ok first ∧
      first.segments.map Segments.unflagged =
        ((map file options).segments.destutter (· ≠ ·)).map Segments.unflagged := by
  have hmem : ∀ s ∈ (map file options).segments, ∃ q : Nat × Printed, placed q = s := by
    intro s hs
    rw [segments_map_eq_arrange] at hs
    obtain ⟨q, -, hq⟩ := List.mem_map.1 ((Segment.arrange_perm _).mem_iff.1 hs)
    exact ⟨q, hq⟩
  apply SourceMap.exists_ofText_told
  · exact Segment.pairwise_arrange _
  · intro s hs o ho
    obtain ⟨q, rfl⟩ := hmem s hs
    obtain rfl := Option.some.inj ho
    constructor
    · simp [map, SourceMap.ofSegments]
    · intro n hn
      cases hn
  · intro s hs
    obtain ⟨q, rfl⟩ := hmem s hs
    rfl
  · intro d hd
    cases hd

lemma exists_ofText (file : SourceFile) (options : Config.CompilerOptions) :
    ∃ first, SourceMap.ofText (map file options).text = .ok first := by
  obtain ⟨first, hread, -⟩ := exists_ofText_told file options
  exact ⟨first, hread⟩

end Intermediate

namespace Lowering

/-- Whether code has a line that begins with the word `with`. -/
def HasWithLine (code : List Char) : Prop :=
  ∃ line ∈ Text.lines code, firstWord? line = some "with".toList

lemma rejection?_eq_none_iff {fileName : String} {code : List Char} :
    rejection? fileName (Text.lines code) = none ↔ ¬ HasWithLine code := by
  constructor
  · rintro h ⟨line, hline, hfirst⟩
    rw [rejection?, Option.map_eq_none_iff, List.find?_eq_none] at h
    obtain ⟨n, hn⟩ := List.getElem?_of_mem hline
    exact h (line, n) (List.mk_mem_zipIdx_iff_getElem?.2 hn) (decide_eq_true hfirst)
  · intro h
    apply rejection?_eq_none
    intro line hline hfirst
    exact h ⟨line, hline, hfirst⟩

end Lowering

namespace Pipeline

open Lowering (HasWithLine)

variable {request : TransformRequest}

section

variable (form : MapForm) (options : Config.CompilerOptions) (mode : IntegrationMode)

lemma compileStage_of_isClean (h : IsClean request.source.toList) :
    ∃ index, (erasing form options mode).compileStage request =
      .ok (index, { request with source := Intermediate.code request.source }) := by
  obtain ⟨first, hfirst⟩ := Intermediate.exists_ofText (fileOf request) options
  refine ⟨.ofSourceMap first, ?_⟩
  have hnone : Diagnostic.firstError? (Intermediate.diagnostics (fileOf request)) = none :=
    Intermediate.firstError?_diagnostics_eq_none_iff.2 h
  simp only [compileStage, erasing, Intermediate.eraser, Intermediate.compile, hnone, hfirst]
  rfl

lemma compileStage_of_not_isClean (h : ¬ IsClean request.source.toList) :
    ∃ d, (erasing form options mode).compileStage request = .error (.compile d) := by
  cases hfirst : Diagnostic.firstError? (Intermediate.diagnostics (fileOf request)) with
  | none => exact absurd (Intermediate.firstError?_diagnostics_eq_none_iff.1 hfirst) h
  | some d =>
    refine ⟨d, ?_⟩
    simp only [compileStage, erasing, Intermediate.eraser, Intermediate.compile, hfirst]

/-- The second stage turns down code with a line that begins with `with`, and no other. -/
lemma transformStage_cases (request : TransformRequest) :
    HasWithLine request.source.toList ∧ (∃ message,
        (erasing form options mode).transformStage request = .error (.transform message)) ∨
      ¬ HasWithLine request.source.toList ∧ ∃ out,
        (erasing form options mode).transformStage request = .ok out := by
  simp only [transformStage, erasing, Lowering.transformer, Lowering.transform]
  cases h : Lowering.rejection? request.fileName (Text.lines request.source.toList) with
  | none => exact .inr ⟨Lowering.rejection?_eq_none_iff.1 h, _, rfl⟩
  | some r =>
    refine .inl ⟨?_, _, rfl⟩
    by_contra hnone
    rw [Lowering.rejection?_eq_none_iff.2 hnone] at h
    cases h

/-- The three ways in which a typed file can fare. -/
lemma transform_cases (htyped : isTyped request.fileName) :
    let result := (erasing form options mode).transform request
    let forbidden := HasWithLine (Intermediate.code request.source).toList
    ¬ IsClean request.source.toList ∧ (∃ d, result = .error (.compile d)) ∨
      IsClean request.source.toList ∧ forbidden ∧
          (∃ message, result = .error (.transform message)) ∨
        IsClean request.source.toList ∧ ¬ forbidden ∧ ∃ out, result = .ok out := by
  intro result forbidden
  by_cases hclean : IsClean request.source.toList
  · obtain ⟨index, hcompile⟩ := compileStage_of_isClean form options mode hclean
    have hresult : result = ((erasing form options mode).transformStage
        { request with source := Intermediate.code request.source }).map
          ((erasing form options mode).relocate index (fileOf request)) := by
      change transform _ _ = _
      rw [transform, if_pos htyped, hcompile]
    rcases transformStage_cases form options mode
      { request with source := Intermediate.code request.source } with
      ⟨hwith, message, hstage⟩ | ⟨hwith, out, hstage⟩
    · rw [hstage] at hresult
      exact .inr (.inl ⟨hclean, hwith, message, hresult⟩)
    · rw [hstage] at hresult
      exact .inr (.inr ⟨hclean, hwith, _, hresult⟩)
  · obtain ⟨d, hcompile⟩ := compileStage_of_not_isClean form options mode hclean
    refine .inl ⟨hclean, d, ?_⟩
    change transform _ _ = _
    rw [transform, if_pos htyped, hcompile]

end

/-- How a typed file fares, told by its source and by its intermediate code. Offsets, lines and
columns are numbers without a bound here. On a source of less than 4 GiB they are the words that
stand for them; a source of 4 GiB or more has offsets that no word addresses, and is outside of what
this says of the program that counts in words. -/
theorem transform_outcome (form : MapForm) (options : Config.CompilerOptions)
    (mode : IntegrationMode) (htyped : isTyped request.fileName) :
    let result := (erasing form options mode).transform request
    let forbidden := HasWithLine (Intermediate.code request.source).toList
    ((∃ d, result = .error (.compile d)) ↔ ¬ IsClean request.source.toList) ∧
      ((∃ message, result = .error (.transform message)) ↔
        IsClean request.source.toList ∧ forbidden) ∧
      ((∃ out, result = .ok out) ↔ IsClean request.source.toList ∧ ¬ forbidden) ∧
      ∀ cause, result ≠ .error (.map cause) := by
  intro result forbidden
  have hcases := transform_cases form options mode htyped
  change _ ∧ (∃ d, result = _) ∨ _ ∧ forbidden ∧ (∃ message, result = _) ∨
    _ ∧ ¬ forbidden ∧ ∃ out, result = _ at hcases
  rcases hcases with ⟨hclean, d, h⟩ | ⟨hclean, hwith, message, h⟩ | ⟨hclean, hwith, out, h⟩
  · simp [h, hclean]
  · simp [h, hclean, hwith]
  · simp [h, hclean, hwith]

/-- A statement that begins with the word `with` is nested well, and is turned down. -/
theorem transform_outcome_with :
    let request : TransformRequest := ⟨"with (a) b();\n", "a.ts", .null⟩
    isTyped request.fileName ∧ ∃ message,
      (erasing .raw ⟨[]⟩ .treeLocations).transform request = .error (.transform message) := by
  intro request
  have htyped : isTyped request.fileName := by decide +kernel
  have hclean : IsClean request.source.toList :=
    ⟨by decide +kernel, bracketErrors_eq_nil_iff.1 (by decide +kernel)⟩
  have hwith : HasWithLine (Intermediate.code request.source).toList := by
    refine ⟨"with (a) b();".toList, ?_, ?_⟩ <;> decide +kernel
  obtain ⟨-, hforbidden, -⟩ := transform_outcome .raw ⟨[]⟩ .treeLocations htyped
  exact ⟨htyped, hforbidden.2 ⟨hclean, hwith⟩⟩

end Pipeline

end Provenance
