import Mathlib.Data.List.Pairwise
import Mathlib.Order.Defs.LinearOrder
import Mathlib.Tactic.Common
import Provenance.Mapping.OriginIndex

/-!
# Lookups as nearest entries

A lookup in an origin index sorts, searches by halves and walks back over entries of one place.
What it finds needs none of that: among the entries on the line of the query that stand at or
before it, it is the first one of greatest column. `IsNearest` says so of a list in any order, and
`originOf?_of_isNearest` with `originOf?_eq_none` say that lookups answer by it.
-/

namespace Provenance

universe u v

variable {α : Type u} {β : Type v}

/-! ### The order of positions -/

namespace Position

lemma le_iff_toNat (p q : Position) :
    p ≤ q ↔ p.line.toNat < q.line.toNat ∨
      (p.line.toNat = q.line.toNat ∧ p.column.toNat ≤ q.column.toNat) := by
  rw [le_def, UInt32.lt_iff_toNat_lt, UInt32.le_iff_toNat_le, UInt32.toNat_inj]

lemma lt_iff_toNat (p q : Position) :
    p < q ↔ p.line.toNat < q.line.toNat ∨
      (p.line.toNat = q.line.toNat ∧ p.column.toNat < q.column.toNat) := by
  rw [lt_def, UInt32.lt_iff_toNat_lt, UInt32.lt_iff_toNat_lt, UInt32.toNat_inj]

lemma ext_toNat {p q : Position} (hl : p.line.toNat = q.line.toNat)
    (hc : p.column.toNat = q.column.toNat) : p = q := by
  cases p
  cases q
  simp_all [UInt32.toNat_inj]

instance : LinearOrder Position where
  le_refl p := by
    rw [le_iff_toNat]
    omega
  le_trans p q r := by
    simp only [le_iff_toNat]
    omega
  lt_iff_le_not_ge p q := by
    simp only [le_iff_toNat, lt_iff_toNat]
    omega
  le_antisymm p q := by
    simp only [le_iff_toNat]
    intro hpq hqp
    exact ext_toNat (by omega) (by omega)
  le_total p q := by
    simp only [le_iff_toNat]
    omega
  toDecidableLE := inferInstance
  toDecidableLT := inferInstance
  toDecidableEq := inferInstance

@[simp] lemma ofPoint_inj {p q : Point} : ofPoint p = ofPoint q ↔ p = q := by
  cases p
  cases q
  simp [ofPoint]

/-- The place stands on the line of the query, at or before it. -/
def Covers (place query : Position) : Prop := place.line = query.line ∧ place ≤ query

instance (place query : Position) : Decidable (place.Covers query) :=
  inferInstanceAs (Decidable (_ ∧ _))

lemma Covers.le_of_le {a b query : Position} (ha : a.Covers query) (hab : a ≤ b)
    (hb : b ≤ query) : b.Covers query := by
  obtain ⟨hline, hle⟩ := ha
  refine ⟨UInt32.toNat_inj.mp ?_, hb⟩
  rw [← UInt32.toNat_inj] at hline
  rw [le_iff_toNat] at hab hb
  omega

end Position

/-! ### The order of points -/

namespace Point

lemma le_iff_toNat (p q : Point) :
    p ≤ q ↔ p.line.toNat < q.line.toNat ∨
      (p.line.toNat = q.line.toNat ∧ p.column.toNat ≤ q.column.toNat) := by
  rw [le_def, UInt32.lt_iff_toNat_lt, UInt32.le_iff_toNat_le, UInt32.toNat_inj]

lemma ext_toNat {p q : Point} (hl : p.line.toNat = q.line.toNat)
    (hc : p.column.toNat = q.column.toNat) : p = q := by
  cases p
  cases q
  simp_all [UInt32.toNat_inj]

end Point

namespace Segment

lemma precedes_trans (a b c : Segment) : a.precedes b → b.precedes c → a.precedes c := by
  simp only [precedes, decide_eq_true_eq, Point.le_iff_toNat]
  omega

lemma precedes_total (a b : Segment) : a.precedes b || b.precedes a := by
  simp only [precedes, Bool.or_eq_true, decide_eq_true_eq, Point.le_iff_toNat]
  omega

lemma generated_eq_of_precedes {a b : Segment} (hab : a.precedes b) (hba : b.precedes a) :
    a.generated = b.generated := by
  simp only [precedes, decide_eq_true_eq, Point.le_iff_toNat] at hab hba
  exact Point.ext_toNat (by omega) (by omega)

lemma arrange_perm (l : List Segment) : (arrange l).Perm l := List.mergeSort_perm l precedes

lemma pairwise_arrange (l : List Segment) : (arrange l).Pairwise fun a b => a.precedes b :=
  List.pairwise_mergeSort precedes_trans precedes_total l

lemma arrange_of_pairwise {l : List Segment} (h : l.Pairwise fun a b => a.precedes b) :
    arrange l = l := List.mergeSort_of_pairwise h

end Segment

/-! ### Lists of different entries -/

/-- Of two different members of a list one stands before the other. -/
lemma eq_or_of_pairwise {R : α → α → Prop} {l : List α} (h : l.Pairwise R) {a b : α} (ha : a ∈ l)
    (hb : b ∈ l) : a = b ∨ R a b ∨ R b a := by
  have : Std.Symm fun a b => R a b ∨ R b a := ⟨fun _ _ h => h.symm⟩
  have heither : l.Pairwise fun a b => R a b ∨ R b a := h.imp fun h => .inl h
  by_cases hab : a = b
  · exact .inl hab
  · exact .inr (heither.forall ha hb hab)

/-! ### The nearest entry -/

/-- The first entry of a list, in the order of the list, among those of greatest place on the line
of a query and not after it. -/
def IsNearest (place : α → Position) (query : Position) (entries : List α) (a : α) : Prop :=
  ∃ before after, entries = before ++ a :: after ∧ (place a).Covers query ∧
    (∀ b ∈ before, (place b).Covers query → place b < place a) ∧
    ∀ b ∈ after, (place b).Covers query → place b ≤ place a

/-- A list has a nearest entry as soon as one of its entries covers the query. -/
lemma exists_isNearest {place : α → Position} {query : Position} {entries : List α}
    (h : ∃ a ∈ entries, (place a).Covers query) : ∃ a, IsNearest place query entries a := by
  induction entries with
  | nil => simp at h
  | cons c rest ih =>
    by_cases hrest : ∃ a ∈ rest, (place a).Covers query
    · obtain ⟨a, before, after, rfl, ha, hbefore, hafter⟩ := ih hrest
      by_cases hc : (place c).Covers query ∧ place a ≤ place c
      · refine ⟨c, [], before ++ a :: after, rfl, hc.1, by simp, ?_⟩
        intro b hb hcov
        rcases List.mem_append.mp hb with hb | hb
        · exact le_trans (le_of_lt (hbefore b hb hcov)) hc.2
        · rcases List.mem_cons.mp hb with rfl | hb
          · exact hc.2
          · exact le_trans (hafter b hb hcov) hc.2
      · refine ⟨a, c :: before, after, rfl, ha, ?_, hafter⟩
        intro b hb hcov
        rcases List.mem_cons.mp hb with rfl | hb
        · exact lt_of_not_ge fun hle => hc ⟨hcov, hle⟩
        · exact hbefore b hb hcov
    · obtain ⟨a, ha, hcov⟩ := h
      rcases List.mem_cons.mp ha with rfl | ha
      · refine ⟨a, [], rest, rfl, hcov, by simp, ?_⟩
        exact fun b hb hb' => absurd ⟨b, hb, hb'⟩ hrest
      · exact absurd ⟨a, ha, hcov⟩ hrest

lemma IsNearest.mem {place : α → Position} {query : Position} {entries : List α} {a : α}
    (h : IsNearest place query entries a) : a ∈ entries := by
  obtain ⟨before, after, rfl, -⟩ := h
  simp

lemma IsNearest.covers {place : α → Position} {query : Position} {entries : List α} {a : α}
    (h : IsNearest place query entries a) : (place a).Covers query := by
  obtain ⟨_, _, -, hcov, -⟩ := h
  exact hcov

/-- No entry that covers the query stands beyond a nearest one. -/
lemma IsNearest.le {place : α → Position} {query : Position} {entries : List α} {a b : α}
    (h : IsNearest place query entries a) (hb : b ∈ entries) (hcov : (place b).Covers query) :
    place b ≤ place a := by
  obtain ⟨before, after, rfl, -, hbefore, hafter⟩ := h
  rcases List.mem_append.mp hb with hb | hb
  · exact le_of_lt (hbefore b hb hcov)
  · rcases List.mem_cons.mp hb with rfl | hb
    · exact le_refl _
    · exact hafter b hb hcov

/-- A nearest entry that passes a test is nearest among those that pass it. -/
lemma IsNearest.filter {place : α → Position} {query : Position} {entries : List α} {a : α}
    (h : IsNearest place query entries a) {test : α → Bool} (ha : test a) :
    IsNearest place query (entries.filter test) a := by
  obtain ⟨before, after, rfl, hcov, hbefore, hafter⟩ := h
  refine ⟨before.filter test, after.filter test, by simp [ha], hcov, ?_, ?_⟩
  · exact fun b hb => hbefore b (List.mem_filter.mp hb).1
  · exact fun b hb => hafter b (List.mem_filter.mp hb).1

/-- A map that keeps places keeps what is nearest. -/
lemma IsNearest.map {place : α → Position} {query : Position} {entries : List α} {a : α}
    (h : IsNearest place query entries a) {place' : β → Position} {f : α → β}
    (hf : ∀ b ∈ entries, place' (f b) = place b) :
    IsNearest place' query (entries.map f) (f a) := by
  obtain ⟨before, after, rfl, hcov, hbefore, hafter⟩ := h
  have ha := hf a (by simp)
  refine ⟨before.map f, after.map f, by simp, by rwa [ha], ?_, ?_⟩
  · intro c hc hcov'
    obtain ⟨b, hb, rfl⟩ := List.mem_map.mp hc
    rw [hf b (by simp [hb])] at hcov' ⊢
    rw [ha]
    exact hbefore b hb hcov'
  · intro c hc hcov'
    obtain ⟨b, hb, rfl⟩ := List.mem_map.mp hc
    rw [hf b (by simp [hb])] at hcov' ⊢
    rw [ha]
    exact hafter b hb hcov'

/-- The nearest entry is the first entry at its place. -/
lemma IsNearest.find? {place : α → Position} {query : Position} {entries : List α} {a : α}
    (h : IsNearest place query entries a) :
    entries.find? (fun b => place b = place a) = some a := by
  obtain ⟨before, after, rfl, hcov, hbefore, -⟩ := h
  have hnone : before.find? (fun b => decide (place b = place a)) = none := by
    rw [List.find?_eq_none]
    intro b hb heq
    have heq := of_decide_eq_true heq
    exact absurd (hbefore b hb (heq ▸ hcov)) (by rw [heq]; exact lt_irrefl _)
  rw [List.find?_append, hnone]
  simp

/-- Among entries of different places the nearest is the one of greatest place that covers. -/
lemma isNearest_iff {place : α → Position} {query : Position} {entries : List α} {a : α}
    (hd : entries.Pairwise fun a b => place a ≠ place b) :
    IsNearest place query entries a ↔
      a ∈ entries ∧ (place a).Covers query ∧
        ∀ b ∈ entries, (place b).Covers query → place b ≤ place a := by
  constructor
  · intro h
    exact ⟨h.mem, h.covers, fun b => h.le⟩
  · rintro ⟨hmem, hcov, hmax⟩
    obtain ⟨before, after, rfl⟩ := List.append_of_mem hmem
    refine ⟨before, after, rfl, hcov, fun b hb hb' => ?_, fun b hb => hmax b (by simp [hb])⟩
    have hne := (List.pairwise_append.mp hd).2.2 b hb a (by simp)
    exact lt_of_le_of_ne (hmax b (by simp [hb]) hb') hne

/-- The order of entries of different places does not matter. -/
lemma IsNearest.perm {place : α → Position} {query : Position} {l l' : List α} {a : α}
    (h : IsNearest place query l a) (hd : l.Pairwise fun a b => place a ≠ place b)
    (hp : l.Perm l') : IsNearest place query l' a := by
  rw [isNearest_iff hd] at h
  rw [isNearest_iff (hp.pairwise hd fun hne => hne.symm)]
  simpa only [hp.mem_iff] using h

/-! ### Sorting -/

/-- The order in which an index keeps its entries. -/
def byPlace (place : α → Position) (a b : α) : Bool := place a ≤ place b

lemma byPlace_trans (place : α → Position) (a b c : α) (hab : byPlace place a b)
    (hbc : byPlace place b c) : byPlace place a c := by
  simp only [byPlace, decide_eq_true_eq] at hab hbc ⊢
  exact le_trans hab hbc

lemma byPlace_total (place : α → Position) (a b : α) :
    (byPlace place a b || byPlace place b a) = true := by
  simpa [byPlace] using le_total (place a) (place b)

lemma pairwise_mergeSort_byPlace (place : α → Position) (l : List α) :
    (l.mergeSort (byPlace place)).Pairwise fun a b => place a ≤ place b :=
  (List.pairwise_mergeSort (byPlace_trans place) (byPlace_total place) l).imp
    fun hab => of_decide_eq_true hab

/-- Sorting is stable: the first entry at a place stays the first. -/
lemma find?_mergeSort_byPlace (place : α → Position) (p : Position) (l : List α) :
    (l.mergeSort (byPlace place)).find? (fun a => place a = p) =
      l.find? (fun a => place a = p) := by
  induction l with
  | nil => simp
  | cons a l ih =>
    obtain ⟨l₁, l₂, hcons, hl, hbefore⟩ :=
      List.mergeSort_cons (byPlace_trans place) (byPlace_total place) a l
    rw [hl] at ih
    rw [hcons, List.find?_append, List.find?_cons]
    by_cases ha : place a = p
    · have hnone : l₁.find? (fun b => decide (place b = p)) = none := by
        rw [List.find?_eq_none]
        intro b hb heq
        have := hbefore b hb
        simp [byPlace, ha, of_decide_eq_true heq] at this
      simp [hnone, ha]
    · simpa [ha, List.find?_append, List.find?_cons] using ih

/-! ### Lookups -/

namespace OriginIndex

/-- Walking back stops before an entry of another place, and passes only entries of the place. -/
lemma firstOf_spec (entries : Array OriginEntry) (place : Position) (stop : Nat) :
    firstOf entries place stop ≤ stop ∧
      (∀ i, firstOf entries place stop ≤ i → i < stop →
        entries[i]?.map (·.generated) = some place) ∧
      (firstOf entries place stop ≠ 0 →
        entries[firstOf entries place stop - 1]?.map (·.generated) ≠ some place) := by
  induction stop with
  | zero => simp [firstOf]
  | succ stop ih =>
    rw [firstOf]
    split
    · next hplace =>
      obtain ⟨hle, hrun, hstop⟩ := ih
      refine ⟨by omega, fun i hi hlt => ?_, hstop⟩
      rcases Nat.lt_succ_iff_lt_or_eq.mp hlt with hlt | rfl
      · exact hrun i hi hlt
      · exact hplace
    · next hplace => exact ⟨Nat.le_refl _, fun i hi hlt => by omega, fun _ => hplace⟩

private lemma passesFirst_of_pairwise {l : List OriginEntry}
    (hs : l.Pairwise fun a b => a.generated ≤ b.generated) (query : Position) :
    PassesFirst l.toArray fun e => decide (e.generated ≤ query) := by
  intro i j hij hi hj htest
  simp only [List.getElem_toArray, decide_eq_true_eq] at htest ⊢
  rcases Nat.lt_or_eq_of_le hij with hlt | rfl
  · exact le_trans (List.pairwise_iff_getElem.mp hs i j (by simpa using hi) (by simpa using hj) hlt)
      htest
  · exact htest

/-- A lookup in sorted entries finds the first one at the greatest place that covers the query. -/
private lemma originOf?_of_pairwise {l : List OriginEntry}
    (hs : l.Pairwise fun a b => a.generated ≤ b.generated) {query : Position} {e : OriginEntry}
    (he : e ∈ l) (hcov : e.generated.Covers query)
    (hmax : ∀ b ∈ l, b.generated.Covers query → b.generated ≤ e.generated) :
    (OriginIndex.mk l.toArray).originOf? query =
      (l.find? fun b => b.generated = e.generated).bind (·.origin) := by
  have hle : ∀ {i j : Nat} (hj : j < l.length) (hij : i ≤ j),
      l[i].generated ≤ l[j].generated := by
    intro i j hj hij
    rcases Nat.lt_or_eq_of_le hij with hlt | rfl
    · exact List.pairwise_iff_getElem.mp hs i j (by omega) hj hlt
    · exact le_refl _
  have hpart := lt_partitionPoint_iff (passesFirst_of_pairwise hs query)
  have hsize := partitionPoint_le l.toArray fun e => decide (e.generated ≤ query)
  unfold originOf?
  simp only
  generalize partitionPoint l.toArray (fun e => decide (e.generated ≤ query)) = stop at *
  simp only [List.size_toArray, List.getElem_toArray, decide_eq_true_eq] at hpart hsize
  obtain ⟨i, hi, rfl⟩ := List.getElem_of_mem he
  have histop : i < stop := (hpart i hi).mpr hcov.2
  -- the last entry before the stop covers the query too, so it stands where `e` stands
  have hlast : stop - 1 < l.length := by omega
  have hlastq : l[stop - 1].generated ≤ query := (hpart _ hlast).mp (by omega)
  have hilast := hle hlast (show i ≤ stop - 1 by omega)
  have hlastcov := hcov.le_of_le hilast hlastq
  have hplace : l[stop - 1].generated = l[i].generated :=
    le_antisymm (hmax _ (List.getElem_mem hlast) hlastcov) hilast
  obtain ⟨hjle, hrun, hbefore⟩ := firstOf_spec l.toArray l[i].generated stop
  rw [List.getElem?_toArray, List.getElem?_eq_getElem hlast]
  simp only [hplace]
  rw [if_neg (by rw [not_or]; exact ⟨by omega, not_not_intro hcov.1⟩)]
  generalize firstOf l.toArray l[i].generated stop = j at *
  simp only [List.getElem?_toArray] at hrun hbefore ⊢
  have hj : j < stop := by
    rcases Nat.lt_or_eq_of_le hjle with hlt | rfl
    · exact hlt
    · have := hbefore (by omega)
      rw [List.getElem?_eq_getElem hlast] at this
      exact absurd (congrArg some hplace) this
  have hjplace := hrun j (Nat.le_refl j) hj
  rw [List.getElem?_eq_getElem (by omega)] at hjplace ⊢
  have hfind : l.find? (fun b => decide (b.generated = l[i].generated)) = some l[j] := by
    rw [List.find?_eq_some_iff_getElem]
    refine ⟨by simpa using hjplace, j, by omega, rfl, fun k hk => ?_⟩
    -- an earlier entry of the place would make the one just before `j` one of the place
    simp only [Bool.not_eq_true', decide_eq_false_iff_not]
    intro hkplace
    have hprev := hbefore (by omega)
    rw [List.getElem?_eq_getElem (by omega)] at hprev
    apply hprev
    simp only [Option.map_some, Option.some.injEq] at hjplace ⊢
    apply le_antisymm
    · rw [← hjplace]
      exact hle (by omega) (by omega)
    · rw [← hkplace]
      exact hle (by omega) (by omega)
  rw [hfind]

/-- A lookup answers with the origin of the nearest entry. -/
theorem originOf?_of_isNearest {entries : List OriginEntry} {query : Position} {e : OriginEntry}
    (h : IsNearest (·.generated) query entries e) :
    (ofEntries entries).originOf? query = e.origin := by
  have hs := pairwise_mergeSort_byPlace (·.generated) entries
  have hfind := find?_mergeSort_byPlace (·.generated) e.generated entries
  rw [h.find?] at hfind
  have hmax : ∀ b ∈ entries.mergeSort (byPlace (·.generated)), b.generated.Covers query →
      b.generated ≤ e.generated := by
    intro b hb hcov
    exact h.le (List.mem_mergeSort.mp hb) hcov
  have hfound := originOf?_of_pairwise hs (List.mem_mergeSort.mpr h.mem) h.covers hmax
  rw [hfind] at hfound
  exact hfound

/-- Where every entry leads to its own place, a place that has an entry leads to itself. -/
lemma originOf?_self {entries : List OriginEntry} {p : Position}
    (h : ∀ e ∈ entries, e.origin = some e.generated) (hp : ∃ e ∈ entries, e.generated = p) :
    (ofEntries entries).originOf? p = some p := by
  obtain ⟨e, he, rfl⟩ := hp
  have hcov : e.generated.Covers e.generated := ⟨rfl, le_refl _⟩
  obtain ⟨a, ha⟩ := exists_isNearest ⟨e, he, hcov⟩
  have hsame : a.generated = e.generated := le_antisymm ha.covers.2 (ha.le he hcov)
  rw [originOf?_of_isNearest ha, h a ha.mem, hsame]

/-- A lookup that no entry covers has no answer. -/
theorem originOf?_eq_none {entries : List OriginEntry} {query : Position}
    (h : ∀ e ∈ entries, ¬ e.generated.Covers query) :
    (ofEntries entries).originOf? query = none := by
  have hs := pairwise_mergeSort_byPlace (fun e : OriginEntry => e.generated) entries
  have hmem : ∀ e ∈ entries.mergeSort (byPlace (·.generated)), ¬ e.generated.Covers query :=
    fun e he => h e (List.mem_mergeSort.mp he)
  show (OriginIndex.mk (entries.mergeSort (byPlace (·.generated))).toArray).originOf? query = none
  generalize entries.mergeSort (byPlace (·.generated)) = l at *
  have hpart := lt_partitionPoint_iff (passesFirst_of_pairwise hs query)
  unfold originOf?
  simp only
  generalize partitionPoint l.toArray (fun e => decide (e.generated ≤ query)) = stop at *
  simp only [List.getElem?_toArray, List.size_toArray, List.getElem_toArray,
    decide_eq_true_eq] at hpart ⊢
  split
  · rfl
  · next last hlast =>
    obtain ⟨hlt, rfl⟩ := List.getElem?_eq_some_iff.mp hlast
    by_cases hstop : stop = 0
    · rw [if_pos (Or.inl hstop)]
    · have hle := (hpart (stop - 1) hlt).mp (by omega)
      have hline : l[stop - 1].generated.line ≠ query.line :=
        fun hline => hmem _ (List.getElem_mem hlt) ⟨hline, hle⟩
      rw [if_pos (Or.inr hline)]

end OriginIndex

end Provenance
