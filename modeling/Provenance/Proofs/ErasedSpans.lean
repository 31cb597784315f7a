import Mathlib.Tactic.Common
import Mathlib.Data.List.Chain
import Provenance.Erasure

/-!
# What stands around erased tokens

Annotations are erased up to a token that ends a type, and declarations are erased only where a
statement may begin. So when two tokens that are kept become neighbours because others between them
are erased, the first one ends a statement or the second one ends a type. Nothing else is known of
the tokens: what is erased depends on their texts alone.
-/

namespace Provenance.Erasure

variable {stops : List String} {depth k n : Nat} {ts rest : List Token} {t : Token}
  {s : TokenSpan} {spans : List TokenSpan}

/-! ### Scanning -/

/-- A token at which a type ends: a stop of one of the scans, or a closing bracket. -/
def endsType (t : Token) : Bool := ["=", ";", ",", "\x7b"].contains t.text || isCloser t

/-- A scan stops at one of its stops or at a closing bracket. -/
lemma scan_stop (h : ts[scan stops depth ts]? = some t) : stops.contains t.text ∨ isCloser t := by
  induction ts generalizing depth with
  | nil => simp at h
  | cons u us ih =>
    simp only [scan] at h
    split_ifs at h with hstop hopen hclose hzero
    · obtain rfl : u = t := by simpa using h
      exact .inl hstop.2
    · exact ih (by simpa using h)
    · obtain rfl : u = t := by simpa using h
      exact .inr hclose
    · exact ih (by simpa using h)
    · exact ih (by simpa using h)

lemma endsType_of_scan (hstops : stops ⊆ ["=", ";", ",", ")", "\x7b"])
    (h : ts[scan stops depth ts]? = some t) : endsType t := by
  rcases scan_stop h with hs | hs
  · have := hstops (List.contains_iff_mem.1 hs)
    simp only [List.mem_cons, List.not_mem_nil, or_false] at this
    rcases this with h | h | h | h | h <;> simp [endsType, isCloser, h]
  · simp [endsType, hs]

/-! ### Annotations -/

/-- The span of an annotation among tokens that begin with number `k`. Something stands before it,
and a type ends where it stops. -/
structure Annotation (k : Nat) (ts : List Token) (s : TokenSpan) : Prop where
  lt_start : k < s.start
  start_lt : s.start < s.stop
  stop_le : s.stop ≤ k + ts.length
  ends : ∀ t, ts[s.stop - k]? = some t → endsType t

lemma Annotation.of_drop {j : Nat} (h : Annotation (k + j) (ts.drop j) s) (hj : j ≤ ts.length) :
    Annotation k ts s := by
  obtain ⟨h₁, h₂, h₃, h₄⟩ := h
  rw [List.length_drop] at h₃
  refine ⟨by omega, h₂, by omega, fun t ht => h₄ t ?_⟩
  rw [List.getElem?_drop]
  rwa [show j + (s.stop - (k + j)) = s.stop - k by omega]

lemma annotatedBindingLength?_eq_some (h : annotatedBindingLength? ts = some n) :
    Annotation k ts ⟨k + 2, k + n⟩ := by
  unfold annotatedBindingLength? at h
  split at h
  · next keyword name colon rest =>
    split_ifs at h
    obtain rfl := Option.some.inj h
    have hle := scan_le ["=", ";", ","] 0 rest
    refine ⟨by simp, by simp, by simp only [List.length_cons]; omega, fun t ht => ?_⟩
    have hstop : rest[scan ["=", ";", ","] 0 rest]? = some t := by
      simpa [Nat.add_sub_cancel_left] using ht
    exact endsType_of_scan (by decide) hstop
  · simp at h

lemma annotation?_eq_some {start stop : Nat} (h : annotation? ts = some (start, stop)) :
    Annotation k ts ⟨k + start, k + stop⟩ := by
  unfold annotation? at h
  split at h
  · next name mark rest =>
    split_ifs at h
    · obtain ⟨rfl, rfl⟩ := Prod.mk.inj (Option.some.inj h)
      have hle := scan_le [",", ")", "="] 0 rest
      refine ⟨by simp, by simp, by simp only [List.length_cons]; omega, fun t ht => ?_⟩
      have hstop : rest[scan [",", ")", "="] 0 rest]? = some t := by
        simpa [Nat.add_sub_cancel_left] using ht
      exact endsType_of_scan (by decide) hstop
    · split at h
      · next colon rest =>
        split_ifs at h
        obtain ⟨rfl, rfl⟩ := Prod.mk.inj (Option.some.inj h)
        have hle := scan_le [",", ")", "="] 0 rest
        refine ⟨by simp, by simp, by simp only [List.length_cons]; omega, fun t ht => ?_⟩
        have hstop : rest[scan [",", ")", "="] 0 rest]? = some t := by
          simpa [Nat.add_sub_cancel_left] using ht
        exact endsType_of_scan (by decide) hstop
      · simp at h
  · simp at h

/-- The annotation of a parameter ends with the parameter, if not earlier. -/
lemma parameterSpans_spec (h : s ∈ parameterSpans k ts) :
    Annotation k ts s ∧ s.stop ≤ k + parameterLength ts := by
  unfold parameterSpans at h
  split at h
  · next start stop heq =>
    obtain rfl := List.mem_singleton.1 h
    refine ⟨annotation?_eq_some heq, ?_⟩
    simp [parameterLength, heq]
  · simp at h

lemma parameterLength_le (ts : List Token) : parameterLength ts ≤ ts.length := by
  unfold parameterLength
  split
  · next start stop heq =>
    have hstop := (annotation?_eq_some (k := 0) heq).stop_le
    have hle := scan_le [",", ")"] 0 (ts.drop stop)
    simp only [List.length_drop, Nat.zero_add] at hstop hle ⊢
    omega
  · simpa using scan_le [",", ")"] 0 ts

/-- Annotations in a stretch of tokens of a given length. -/
def Annotations (k : Nat) (ts : List Token) (spans : List TokenSpan) (n : Nat) : Prop :=
  n ≤ ts.length ∧ ∀ s ∈ spans, Annotation k ts s ∧ s.stop ≤ k + n

lemma Annotations.of_drop {j : Nat} (h : Annotations (k + j) (ts.drop j) spans n)
    (hj : j ≤ ts.length) : Annotations k ts spans (j + n) := by
  obtain ⟨hn, hs⟩ := h
  rw [List.length_drop] at hn
  refine ⟨by omega, fun s hmem => ⟨(hs s hmem).1.of_drop hj, ?_⟩⟩
  have := (hs s hmem).2
  omega

lemma Annotations.append {more : List TokenSpan} {m : Nat} (h : Annotations k ts spans m)
    (h' : Annotations k ts more n) (hle : m ≤ n) : Annotations k ts (spans ++ more) n := by
  refine ⟨h'.1, fun s hs => ?_⟩
  rcases List.mem_append.1 hs with hs | hs
  · exact ⟨(h.2 s hs).1, by have := (h.2 s hs).2; omega⟩
  · exact h'.2 s hs

lemma Annotations.mono {m : Nat} (h : Annotations k ts spans m) (hle : m ≤ n)
    (hn : n ≤ ts.length) : Annotations k ts spans n := by
  simpa using h.append ⟨hn, fun s hs => absurd hs List.not_mem_nil⟩ hle

lemma annotations_parameterSpans (k : Nat) (ts : List Token) :
    Annotations k ts (parameterSpans k ts) (parameterLength ts) :=
  ⟨parameterLength_le ts, fun _ hs => parameterSpans_spec hs⟩

lemma length_lt_of_drop_eq_cons {us : List Token} (h : ts.drop n = t :: us) :
    n < ts.length ∧ us = ts.drop (n + 1) := by
  have hlen := congrArg List.length h
  rw [List.length_drop, List.length_cons] at hlen
  refine ⟨by omega, ?_⟩
  rw [← List.tail_drop, h, List.tail_cons]

lemma annotations_parameters (k : Nat) (ts : List Token) :
    Annotations k ts (parameters k ts).1 (parameters k ts).2 := by
  fun_induction parameters k ts with
  | case1 => simp [Annotations]
  | case2 => simp [Annotations]
  | case3 k t rest ht n hdrop => exact annotations_parameterSpans k (t :: rest)
  | case4 k t rest ht n comma more hdrop hcomma spans m heq ih =>
    obtain ⟨hlt, rfl⟩ := length_lt_of_drop_eq_cons hdrop
    rw [heq, Nat.add_assoc] at ih
    exact (annotations_parameterSpans k (t :: rest)).append (ih.of_drop hlt) (by omega)
  | case5 k t rest ht n comma more hdrop hcomma => exact annotations_parameterSpans k (t :: rest)

lemma annotations_signature (k : Nat) (ts : List Token) :
    Annotations k ts (signature k ts).1 (signature k ts).2 := by
  have h := annotations_parameters k ts
  unfold signature
  generalize parameters k ts = found at h
  obtain ⟨spans, n⟩ := found
  dsimp only
  split
  · next close rest hclose =>
    obtain ⟨hlt, rfl⟩ := length_lt_of_drop_eq_cons hclose
    split_ifs with htext
    · exact h
    split
    · next colon rest hcolon =>
      obtain ⟨hlt', rfl⟩ := length_lt_of_drop_eq_cons hcolon
      split_ifs with hcolon
      · have hle := scan_le ["\x7b"] 0 (ts.drop (n + 1 + 1))
        rw [List.length_drop] at hle
        refine h.append ⟨by omega, fun s hs => ?_⟩ (by omega)
        obtain rfl := List.mem_singleton.1 hs
        refine ⟨⟨by dsimp only; omega, by dsimp only; omega, by dsimp only; omega,
          fun t ht => ?_⟩, by dsimp only; omega⟩
        · have hstop : (ts.drop (n + 1 + 1))[scan ["\x7b"] 0 (ts.drop (n + 1 + 1))]? = some t := by
            rw [List.getElem?_drop, ← ht]
            congr 1
            dsimp only
            omega
          exact endsType_of_scan (by decide) hstop
      · exact h.mono (by omega) (by omega)
    · exact h.mono (by omega) (by omega)
  · exact h

/-! ### Declarations -/

lemma declarationLength?_eq_some (h : declarationLength? ts = some n) :
    0 < n ∧ n ≤ ts.length := by
  unfold declarationLength? at h
  split at h
  · split_ifs at h <;> obtain rfl := Option.some.inj h <;> simp only [List.length_cons] <;> omega
  · simp at h

lemma functionHeadLength?_eq_some (h : functionHeadLength? ts = some n) :
    0 < n ∧ n ≤ ts.length := by
  unfold functionHeadLength? at h
  split at h
  · split_ifs at h with _ _ hparen
    · obtain rfl := Option.some.inj h
      obtain ⟨u, hu, -⟩ := Option.map_eq_some_iff.1 hparen
      have := List.length_pos_iff.2 (List.ne_nil_of_mem (List.mem_of_mem_head? hu))
      simp only [List.length_cons]
      omega
    · obtain rfl := Option.some.inj h
      simp
  · simp at h

/-! ### Steps -/

/-- What one step finds: a declaration where one may begin, or annotations. Only a token that ends
a statement, and a declaration, let another declaration begin after them. -/
lemma step_spec (k : Nat) (atStart : Bool) (t : Token) (rest : List Token) :
    let found := step k atStart t rest
    found.more ≤ rest.length ∧
      (atStart = true ∧ found.spans = [⟨k, k + (found.more + 1)⟩] ∨
        Annotations k (t :: rest) found.spans (found.more + 1) ∧
          (found.atStart = true → found.spans = [] ∧ found.more = 0 ∧ endsStatement t)) := by
  unfold step
  split
  · next n hn =>
    split_ifs at hn with hstart
    obtain ⟨hpos, hle⟩ := declarationLength?_eq_some hn
    rw [List.length_cons] at hle
    refine ⟨by dsimp only; omega, .inl ⟨hstart, ?_⟩⟩
    rw [Nat.sub_add_cancel hpos]
  · split
    · next n hn =>
      have hspan := annotatedBindingLength?_eq_some (k := k) hn
      have hle := hspan.stop_le
      have hlt := hspan.start_lt
      dsimp only at hle hlt
      rw [List.length_cons] at hle
      refine ⟨by dsimp only; omega, .inr ⟨⟨by simp only [List.length_cons]; omega, ?_⟩, by simp⟩⟩
      intro s hs
      obtain rfl := List.mem_singleton.1 hs
      exact ⟨hspan, by dsimp only; omega⟩
    · split
      · next n hn =>
        obtain ⟨hpos, hle⟩ := functionHeadLength?_eq_some hn
        have h := (annotations_signature (k + n) ((t :: rest).drop n)).of_drop hle
        generalize signature (k + n) ((t :: rest).drop n) = found at h
        obtain ⟨spans, m⟩ := found
        have hlen := h.1
        dsimp only at h hlen ⊢
        rw [List.length_cons] at hlen
        refine ⟨by omega, .inr ⟨?_, by simp⟩⟩
        rwa [Nat.sub_add_cancel (by omega)]
      · exact ⟨Nat.zero_le _, .inr ⟨⟨by simp, by simp⟩, fun h => ⟨rfl, rfl, h⟩⟩⟩

/-! ### Kept tokens -/

/-- The tokens that are kept, with their numbers, among tokens that begin with number `k`. -/
def numberedKept (spans : List TokenSpan) (k : Nat) (ts : List Token) : List (Token × Nat) :=
  (ts.zipIdx k).filter fun (_, i) => isKept spans i

lemma numberedKept_nil_spans (k : Nat) (ts : List Token) :
    numberedKept [] k ts = ts.zipIdx k := List.filter_eq_self.2 fun _ _ => rfl

lemma numberedKept_cons_of_kept (hk : isKept spans k) (t : Token) (ts : List Token) :
    numberedKept spans k (t :: ts) = (t, k) :: numberedKept spans (k + 1) ts := by
  simp [numberedKept, hk]

lemma mem_numberedKept {a : Token × Nat} (h : a ∈ numberedKept spans k ts) :
    k ≤ a.2 ∧ ts[a.2 - k]? = some a.1 :=
  List.mk_mem_zipIdx_iff_le_and_getElem?_sub.1 (List.mem_filter.1 h).1

lemma isKept_iff {i : Nat} : isKept spans i ↔ ∀ s ∈ spans, i < s.start ∨ s.stop ≤ i := by
  simp only [isKept, Bool.not_eq_true', List.any_eq_false, TokenSpan.contains, Bool.and_eq_true,
    decide_eq_true_eq, not_and_or, Nat.not_le, Nat.not_lt]

lemma isKept_append (spans more : List TokenSpan) (i : Nat) :
    isKept (spans ++ more) i = (isKept spans i && isKept more i) := by
  simp [isKept]

lemma numberedKept_append (more : List TokenSpan) (us : List Token)
    (h : ∀ s ∈ spans, s.stop ≤ k + ts.length) (h' : ∀ s ∈ more, k + ts.length ≤ s.start) :
    numberedKept (spans ++ more) k (ts ++ us) =
      numberedKept spans k ts ++ numberedKept more (k + ts.length) us := by
  simp only [numberedKept, List.zipIdx_append, List.filter_append]
  congr 1
  · refine List.filter_congr fun a ha => ?_
    obtain ⟨-, hlt⟩ := List.mk_mem_zipIdx_iff_le_and_getElem?_sub.1 ha
    have := (List.getElem?_eq_some_iff.1 hlt).1
    have hmore : isKept more a.2 := isKept_iff.2 fun s hs => .inl (by have := h' s hs; omega)
    rw [isKept_append, hmore, Bool.and_true]
  · refine List.filter_congr fun a ha => ?_
    have hle := (List.mk_mem_zipIdx_iff_le_and_getElem?_sub.1 ha).1
    have hspans : isKept spans a.2 := isKept_iff.2 fun s hs => .inr (by have := h s hs; omega)
    rw [isKept_append, hspans, Bool.true_and]

/-- Kept tokens that may become neighbours: they were neighbours, or the first one ends a statement
or the second one a type. -/
def Neighbours (a b : Token × Nat) : Prop :=
  b.2 = a.2 + 1 ∨ endsStatement a.1 ∨ endsType b.1

/-- Where only annotations are erased, the kept token after one of them ends its type. -/
lemma isChain_of_ends (h : ∀ s ∈ spans, ∀ t, k < s.stop → ts[s.stop - k]? = some t → endsType t) :
    (numberedKept spans k ts).IsChain Neighbours ∧
      ∀ b ∈ (numberedKept spans k ts).head?, b.2 = k ∨ endsType b.1 := by
  induction ts generalizing k with
  | nil => simp [numberedKept]
  | cons t ts ih =>
    obtain ⟨hchain, hhead⟩ := ih (k := k + 1) fun s hs u hlt hu => by
      refine h s hs u (by omega) ?_
      rwa [show s.stop - k = s.stop - (k + 1) + 1 by omega, List.getElem?_cons_succ]
    by_cases hk : isKept spans k
    · rw [numberedKept_cons_of_kept hk, List.isChain_cons]
      refine ⟨⟨fun b hb => (hhead b hb).imp_right .inr, hchain⟩, ?_⟩
      rintro b hb
      obtain rfl := Option.some.inj hb
      exact .inl rfl
    · have heq : numberedKept spans k (t :: ts) = numberedKept spans (k + 1) ts := by
        simp [numberedKept, hk]
      rw [heq]
      refine ⟨hchain, fun b hb => (hhead b hb).elim (fun hb' => .inr ?_) .inr⟩
      -- token `k` is erased and token `k + 1` is not, so an annotation stops between them
      have hmem := List.mem_of_mem_head? hb
      have hkept := (List.mem_filter.1 hmem).2
      obtain ⟨-, hget⟩ := mem_numberedKept hmem
      rw [isKept_iff] at hk
      push Not at hk
      obtain ⟨s, hs, hstart, hstop⟩ := hk
      have := isKept_iff.1 hkept s hs
      obtain hstop : s.stop = k + 1 := by omega
      refine h s hs b.1 (by omega) ?_
      rw [hstop, show k + 1 - k = 0 + 1 by omega, List.getElem?_cons_succ]
      rwa [hb', Nat.sub_self] at hget

/-! ### All spans -/

lemma spansFrom_cons (k : Nat) (atStart : Bool) (t : Token) (rest : List Token) :
    spansFrom k atStart (t :: rest) =
      (step k atStart t rest).spans ++
        spansFrom (k + 1 + (step k atStart t rest).more) (step k atStart t rest).atStart
          (rest.drop (step k atStart t rest).more) := by
  rw [spansFrom]

/-- What one step erases lies among the tokens that it covers. -/
lemma step_within {atStart : Bool} (hs : s ∈ (step k atStart t rest).spans) :
    k ≤ s.start ∧ s.start < s.stop ∧ s.stop ≤ k + ((step k atStart t rest).more + 1) := by
  obtain ⟨-, ⟨-, hspans⟩ | ⟨hspans, -⟩⟩ := step_spec k atStart t rest
  · rw [hspans] at hs
    obtain rfl := List.mem_singleton.1 hs
    exact ⟨by simp, by simp, by simp⟩
  · obtain ⟨hspan, hstop⟩ := hspans.2 s hs
    exact ⟨Nat.le_of_lt hspan.lt_start, hspan.start_lt, hstop⟩

/-- Every span lies among the tokens and is not empty. -/
lemma spansFrom_within {atStart : Bool} (hs : s ∈ spansFrom k atStart ts) :
    k ≤ s.start ∧ s.start < s.stop ∧ s.stop ≤ k + ts.length := by
  fun_induction spansFrom k atStart ts with
  | case1 => simp at hs
  | case2 k atStart t rest found ih =>
    have hmore := (step_spec k atStart t rest).1
    rcases List.mem_append.1 hs with hs | hs
    · obtain ⟨hstart, hlt, hstop⟩ := step_within hs
      exact ⟨hstart, hlt, by simp only [List.length_cons]; omega⟩
    · obtain ⟨hstart, hlt, hstop⟩ := ih hs
      rw [List.length_drop] at hstop
      exact ⟨by omega, hlt, by simp only [List.length_cons]; omega⟩

/-- The kept tokens of one step come before those of the steps after it. -/
lemma numberedKept_spansFrom_cons (k : Nat) (atStart : Bool) (t : Token) (rest : List Token) :
    let found := step k atStart t rest
    numberedKept (spansFrom k atStart (t :: rest)) k (t :: rest) =
      numberedKept found.spans k (t :: rest.take found.more) ++
        numberedKept (spansFrom (k + 1 + found.more) found.atStart (rest.drop found.more))
          (k + 1 + found.more) (rest.drop found.more) := by
  intro found
  have hmore : found.more ≤ rest.length := (step_spec k atStart t rest).1
  have hlen : k + (t :: rest.take found.more).length = k + 1 + found.more := by
    rw [List.length_cons, List.length_take_of_le hmore]
    omega
  rw [spansFrom_cons, ← hlen, ← numberedKept_append, List.cons_append, List.take_append_drop]
  · intro s hs
    have hstop : s.stop ≤ k + (found.more + 1) := (step_within hs).2.2
    omega
  · exact fun s hs => (spansFrom_within hs).1

/-- Nothing is kept of a declaration. -/
lemma numberedKept_whole (k : Nat) (ts : List Token) :
    numberedKept [⟨k, k + ts.length⟩] k ts = [] := by
  refine List.filter_eq_nil_iff.2 fun a ha hkept => ?_
  obtain ⟨hle, hget⟩ := List.mk_mem_zipIdx_iff_le_and_getElem?_sub.1 ha
  have hlt := (List.getElem?_eq_some_iff.1 hget).1
  have := isKept_iff.1 hkept _ (List.mem_singleton_self _)
  dsimp only at this
  omega

/-- Where a step erases annotations, its kept tokens become neighbours at the ends of types only,
and so does the last of them with the token after the step. -/
lemma isChain_of_annotations {more : Nat} (h : Annotations k (t :: ts) spans (more + 1)) :
    (numberedKept spans k (t :: ts.take more)).IsChain Neighbours ∧
      ∀ a ∈ (numberedKept spans k (t :: ts.take more)).getLast?, ∀ u, ts[more]? = some u →
        Neighbours a (u, k + 1 + more) := by
  obtain ⟨hmore, hspans⟩ := h
  have hlength : (t :: ts.take more).length = more + 1 := by
    rw [List.length_cons, List.length_take_of_le (Nat.le_of_succ_le_succ hmore)]
  have hstop : ∀ s ∈ spans, s.stop ≤ k + (t :: ts.take more).length := fun s hs =>
    hlength ▸ (hspans s hs).2
  -- up to the next step the tokens are as if nothing were erased after it
  have hsplit := numberedKept_append [] (ts.drop more) hstop (by simp)
  rw [List.append_nil, List.cons_append, List.take_append_drop, numberedKept_nil_spans,
    hlength] at hsplit
  have hends : ∀ s ∈ spans, ∀ u, k < s.stop → (t :: ts)[s.stop - k]? = some u → endsType u :=
    fun s hs u _ hu => (hspans s hs).1.ends u hu
  obtain ⟨hchain, -⟩ := isChain_of_ends hends
  rw [hsplit, List.isChain_append] at hchain
  refine ⟨hchain.1, fun a ha u hu => hchain.2.2 a ha _ ?_⟩
  rw [List.head?_zipIdx, List.head?_drop, hu, Nat.add_right_comm, Nat.add_assoc]
  rfl

/-- Kept tokens become neighbours only at the end of a statement or of a type. Where a declaration
may begin, the one before ends a statement. -/
lemma isChain_spansFrom (k : Nat) (atStart : Bool) (ts : List Token) :
    (numberedKept (spansFrom k atStart ts) k ts).IsChain Neighbours ∧
      ∀ b ∈ (numberedKept (spansFrom k atStart ts) k ts).head?,
        b.2 = k ∨ endsType b.1 ∨ atStart = true := by
  induction k, atStart, ts using spansFrom.induct with
  | case1 => simp [numberedKept]
  | case2 k atStart t rest found ih =>
    have ⟨hmore, hspec⟩ := step_spec k atStart t rest
    rw [numberedKept_spansFrom_cons]
    change found.more ≤ rest.length at hmore
    obtain ⟨hchain, hhead⟩ := ih
    rcases hspec with ⟨hstart, hspans⟩ | ⟨hspans, hstart⟩
    · have hnone := numberedKept_whole k (t :: rest.take found.more)
      rw [List.length_cons, List.length_take_of_le hmore, ← hspans] at hnone
      rw [hnone, List.nil_append]
      exact ⟨hchain, fun b hb => .inr (.inr hstart)⟩
    · obtain ⟨hchain', hlast⟩ := isChain_of_annotations hspans
      refine ⟨List.isChain_append.2 ⟨hchain', hchain, fun a ha b hb => ?_⟩, fun b hb => ?_⟩
      · rcases hhead b hb with hnext | hends | hagain
        · obtain ⟨-, hget⟩ := mem_numberedKept (List.mem_of_mem_head? hb)
          rw [hnext, Nat.sub_self, List.getElem?_drop, Nat.add_zero] at hget
          have := hlast a ha b.1 hget
          rwa [← hnext] at this
        · exact .inr (.inr hends)
        · obtain ⟨hnil, hzero, hstatement⟩ := hstart hagain
          change found.spans = [] at hnil
          change found.more = 0 at hzero
          rw [hnil, hzero, numberedKept_nil_spans] at ha
          obtain rfl : (t, k) = a := by simpa using ha
          exact .inr (.inl hstatement)
      · have hkept : isKept found.spans k :=
          isKept_iff.2 fun s hs => .inl (hspans.2 s hs).1.lt_start
        rw [numberedKept_cons_of_kept hkept] at hb
        obtain rfl : (t, k) = b := by simpa using hb
        exact .inl rfl

/-- The kept tokens with their numbers. -/
lemma keptTokens_eq (ts : List Token) :
    keptTokens ts = (numberedKept (erasedSpans ts) 0 ts).map Prod.fst := rfl

end Provenance.Erasure
