import Provenance.Proofs.Nearest

/-!
# Lookups as scans

The plainest way to look up a position is to go through the whole list: of the entries on the line
of the query, at or before its column, take the first one of greatest column. `scan?` says so, and
lookups in an index agree with it, whatever the order of the entries and however many stand at one
place (`originOf?_eq_scan?`).
-/

namespace Provenance

universe u

variable {α : Type u} {place : α → Position} {query : Position} {entries : List α} {a : α}

namespace Position

lemma covers_iff {p query : Position} :
    p.Covers query ↔ p.line = query.line ∧ p.column ≤ query.column := by
  rw [Covers, le_iff_toNat, ← UInt32.toNat_inj, UInt32.le_iff_toNat_le]
  omega

/-- On one line places are ordered by their columns. -/
lemma le_iff_of_line_eq {p p' : Position} (h : p.line = p'.line) :
    p ≤ p' ↔ p.column ≤ p'.column := by
  rw [le_iff_toNat, h, UInt32.le_iff_toNat_le]
  omega

end Position

/-- The entries of a list that stand on the line of a query, at or before its column. -/
def covering (place : α → Position) (query : Position) (entries : List α) : List α :=
  entries.filter fun a => (place a).line = query.line ∧ (place a).column ≤ query.column

/-- The first entry of a list among those of greatest column on the line of a query, at or before
its column. -/
def scan? (place : α → Position) (query : Position) (entries : List α) : Option α :=
  (covering place query entries).find? fun a =>
    (covering place query entries).all fun b => (place b).column ≤ (place a).column

lemma mem_covering : a ∈ covering place query entries ↔
    a ∈ entries ∧ (place a).Covers query := by
  rw [covering, List.mem_filter, decide_eq_true_eq, Position.covers_iff]

/-- A scan finds the nearest entry. -/
lemma scan?_of_isNearest (h : IsNearest place query entries a) :
    scan? place query entries = some a := by
  have hle := fun b => h.le (b := b)
  obtain ⟨before, after, rfl, hcov, hbefore, -⟩ := h
  have hcolumn : ∀ {b c : α}, (place b).Covers query → (place c).Covers query →
      (place b ≤ place c ↔ (place b).column ≤ (place c).column) := fun hb hc =>
    Position.le_iff_of_line_eq (hb.1.trans hc.1.symm)
  rw [scan?, List.find?_eq_some_iff_append]
  refine ⟨?_, covering place query before, covering place query after, ?_, ?_⟩
  · rw [List.all_eq_true]
    intro b hb
    obtain ⟨hb, hbcov⟩ := mem_covering.mp hb
    rw [decide_eq_true_eq, ← hcolumn hbcov hcov]
    exact hle b hb hbcov
  · rw [covering, List.filter_append, List.filter_cons_of_pos]
    · rfl
    · exact decide_eq_true (Position.covers_iff.mp hcov)
  · -- the entries before it do not reach its column
    intro b hb
    obtain ⟨hb, hbcov⟩ := mem_covering.mp hb
    rw [Bool.not_eq_true', List.all_eq_false]
    refine ⟨a, mem_covering.mpr ⟨by simp, hcov⟩, ?_⟩
    rw [decide_eq_true_eq, ← hcolumn hcov hbcov]
    exact not_le_of_gt (hbefore b hb hbcov)

/-- A scan finds nothing only where there is nothing on the line, at or before the column. -/
lemma scan?_eq_none_iff : scan? place query entries = none ↔
    ∀ a ∈ entries, (place a).line = query.line → ¬ (place a).column ≤ query.column := by
  constructor
  · intro hnone a ha hline hcolumn
    obtain ⟨b, hb⟩ := exists_isNearest ⟨a, ha, Position.covers_iff.mpr ⟨hline, hcolumn⟩⟩
    rw [scan?_of_isNearest hb] at hnone
    cases hnone
  · intro h
    have hempty : covering place query entries = [] := by
      apply List.eq_nil_iff_forall_not_mem.mpr
      intro a ha
      obtain ⟨ha, hcov⟩ := mem_covering.mp ha
      obtain ⟨hline, hcolumn⟩ := Position.covers_iff.mp hcov
      exact h a ha hline hcolumn
    rw [scan?, hempty, List.find?_nil]

/-- Lookups among entries that were made of any list find what a scan of the list finds. -/
lemma originOf?_ofEntries (place : α → Position) (origin : α → Option Position)
    (query : Position) (l : List α) :
    (OriginIndex.ofEntries (l.map fun a => ⟨place a, origin a⟩)).originOf? query =
      (scan? place query l).bind origin := by
  by_cases hcov : ∃ a ∈ l, (place a).Covers query
  · obtain ⟨a, ha⟩ := exists_isNearest hcov
    have hentry : IsNearest OriginEntry.generated query
        (l.map fun a => ⟨place a, origin a⟩) ⟨place a, origin a⟩ := ha.map fun _ _ => rfl
    rw [OriginIndex.originOf?_of_isNearest hentry, scan?_of_isNearest ha, Option.bind_some]
  · have hnone : scan? place query l = none := by
      rw [scan?_eq_none_iff]
      intro a ha hline hcolumn
      exact hcov ⟨a, ha, Position.covers_iff.mpr ⟨hline, hcolumn⟩⟩
    rw [hnone, Option.bind_none]
    apply OriginIndex.originOf?_eq_none
    intro e he hcov'
    obtain ⟨a, ha, rfl⟩ := List.mem_map.mp he
    exact hcov ⟨a, ha, hcov'⟩

/-- Lookups in both forms of maps are scans: no answer if nothing stands on the line of the query at
or before its column, and otherwise the origin, if there is one, of the first entry of greatest
column. -/
theorem originOf?_eq_scan? :
    (∀ (mappings : List RawMapping) (query : Position),
      (OriginIndex.ofRaw mappings).originOf? query =
        (scan? (·.generated) query mappings).bind (·.origin) ∧
      (scan? (·.generated) query mappings = none ↔ ∀ m ∈ mappings,
        m.generated.line = query.line → ¬ m.generated.column ≤ query.column)) ∧
    ∀ (map : SourceMap) (query : Position),
      (OriginIndex.ofSourceMap map).originOf? query =
        (scan? (fun s => .ofPoint s.generated) query map.segments).bind (·.position?) ∧
      (scan? (fun s => .ofPoint s.generated) query map.segments = none ↔ ∀ s ∈ map.segments,
        (Position.ofPoint s.generated).line = query.line →
          ¬ (Position.ofPoint s.generated).column ≤ query.column) :=
  ⟨fun mappings query => ⟨originOf?_ofEntries _ _ query mappings, scan?_eq_none_iff⟩,
    fun map query => ⟨originOf?_ofEntries _ _ query map.segments, scan?_eq_none_iff⟩⟩

/-- Of entries at one place the first one counts, also when a later one has an origin. -/
example : scan? (·.generated) ⟨1, 7⟩
    [⟨⟨1, 9⟩, none, none⟩, ⟨⟨1, 5⟩, none, none⟩, ⟨⟨1, 0⟩, some ⟨3, 0⟩, none⟩,
      ⟨⟨1, 5⟩, some ⟨4, 0⟩, none⟩] = some (⟨⟨1, 5⟩, none, none⟩ : RawMapping) := by
  decide

end Provenance
