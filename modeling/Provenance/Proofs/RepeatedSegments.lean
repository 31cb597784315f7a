import Mathlib.Data.List.Destutter
import Provenance.Proofs.MapText

/-!
# Repeated segments

Writing a map passes over a segment that equals the one before it. So a map is written as one in
which every segment is told apart from the one before, and it can be read whatever segments it was
made of, as long as they fit its sources and names and carry no flags.
-/

namespace Provenance

/-- What is repeated in a list is still there once. -/
lemma mem_destutter_ne {α : Type} [DecidableEq α] {a : α} {as : List α} :
    a ∈ as.destutter (· ≠ ·) ↔ a ∈ as := by
  constructor
  · intro h
    exact (List.destutter_sublist _ as).subset h
  · intro h
    cases as with
    | nil => cases h
    | cons b bs =>
      rw [List.destutter_cons']
      induction bs generalizing b with
      | nil => simpa using h
      | cons c bs ih =>
        by_cases hsame : b = c
        · subst hsame
          rw [List.destutter'_cons_neg _ (not_not.2 rfl)]
          apply ih
          simpa using h
        · rw [List.destutter'_cons_pos _ hsame, List.mem_cons]
          rcases List.mem_cons.1 h with rfl | h
          · exact .inl rfl
          · exact .inr (ih c h)

namespace Segments

/-- Written after a segment, the rest of a line reads as if no segment were repeated. -/
lemma exists_writeAfter_eq (last : Segment) (rest : List Segment) :
    ∃ rest', rest.destutter' (· ≠ ·) last = last :: rest' ∧
      ∀ r, writeAfter r last rest' = writeAfter r last rest := by
  induction rest generalizing last with
  | nil => exact ⟨[], rfl, fun r => rfl⟩
  | cons s rest ih =>
    by_cases hsame : last = s
    · subst hsame
      obtain ⟨rest', hrest, hwrite⟩ := ih last
      refine ⟨rest', ?_, fun r => ?_⟩
      · rw [List.destutter'_cons_neg _ (not_not.2 rfl), hrest]
      · rw [hwrite, writeAfter, if_neg (not_not.2 rfl), if_pos rfl]
    · obtain ⟨rest', hrest, hwrite⟩ := ih s
      refine ⟨s :: rest', ?_, fun r => ?_⟩
      · rw [List.destutter'_cons_pos _ hsame, hrest]
      · simp only [writeAfter, if_neg (Ne.symm hsame), hwrite]

/-- Repeated segments are not written. -/
lemma write_destutter (segments : List Segment) :
    write (segments.destutter (· ≠ ·)) = write segments := by
  cases segments with
  | nil => rfl
  | cons s rest =>
    obtain ⟨rest', hrest, hwrite⟩ := exists_writeAfter_eq s rest
    rw [List.destutter_cons', hrest, write, write]
    simp only [hwrite]

/-- Segments in the order of the generated code are in order and told apart once none of them is
repeated. -/
lemma isChain_ordered_destutter {segments : List Segment}
    (h : segments.Pairwise fun a b => a.precedes b) :
    (segments.destutter (· ≠ ·)).IsChain Ordered := by
  have hprecedes := (h.sublist (List.destutter_sublist (· ≠ ·) segments)).isChain
  have hne := List.isChain_destutter (· ≠ ·) segments
  generalize segments.destutter (· ≠ ·) = told at hprecedes hne
  induction told with
  | nil => exact .nil
  | cons s told ih =>
    obtain ⟨hfirst, hprecedes⟩ := List.isChain_cons.1 hprecedes
    obtain ⟨hfirst', hne⟩ := List.isChain_cons.1 hne
    refine List.isChain_cons.2 ⟨fun u hu => ⟨?_, hfirst' u hu⟩, ih hprecedes hne⟩
    exact of_decide_eq_true (hfirst u hu)

lemma writeRanges?_eq_none {segments : List Segment} (h : ∀ s ∈ segments, s.isRange = false) :
    writeRanges? segments = none := by
  rw [writeRanges?, if_neg]
  simpa using h

end Segments

namespace SourceMap

variable {map : SourceMap}

/-- A map without flags can be read if its segments are arranged and fit, and what is read has each
segment once where it was repeated. -/
theorem exists_ofText_told (harranged : map.segments.Pairwise fun a b => a.precedes b)
    (hfits : ∀ s ∈ map.segments, Segments.Fits map.sources.length map.names.length s)
    (hunflagged : ∀ s ∈ map.segments, s.isRange = false)
    (hdebug : ∀ d, map.debugId = some d → DebugId.ofText? d.text = some d) :
    ∃ read, ofText map.text = .ok read ∧ read.segments.map Segments.unflagged =
      (map.segments.destutter (· ≠ ·)).map Segments.unflagged := by
  -- the map in which no segment is repeated has the same text, and it is read back
  let told := map.segments.destutter (· ≠ ·)
  have hsublist : told.Sublist map.segments := List.destutter_sublist _ _
  have hranges : Segments.writeRanges? map.segments = none :=
    Segments.writeRanges?_eq_none hunflagged
  have hranges' : Segments.writeRanges? told = none :=
    Segments.writeRanges?_eq_none fun s hs => hunflagged s (hsublist.subset hs)
  have htext : text { map with segments := told } = text map := by
    simp only [text, toJson, toFields_eq, hranges, hranges']
    rw [show Segments.write told = Segments.write map.segments from
      Segments.write_destutter map.segments]
    rfl
  have hlegible : Legible { map with segments := told } := by
    constructor
    · exact Segments.isChain_ordered_destutter harranged
    · exact fun s hs => hfits s (hsublist.subset hs)
    · rw [hranges']
      intro flags hflags
      obtain rfl := List.mem_singleton.1 hflags
      exact ⟨[], rfl⟩
    · exact hdebug
  obtain ⟨segments, heq, hread⟩ := ofText_text hlegible
  rw [htext] at hread
  exact ⟨_, hread, heq⟩

end SourceMap

end Provenance
