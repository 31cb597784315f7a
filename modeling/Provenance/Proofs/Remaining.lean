import Provenance.Proofs.ErasedSpans

/-!
# What erasing leaves of a signature

A scan over what it covered stops where it did, if the token at which it stopped comes next. So the
parameters and the result of a function, read again without their annotations, end where they did,
and there is no annotation among them: what follows an erased one ends a type, and so it is neither
a name nor the mark of an annotation.
-/

namespace Provenance.Erasure

variable {atStart : Bool} {stops : List String} {i j k n : Nat} {s : TokenSpan} {t u : Token}
  {ts us rest left : List Token} {spans more : List TokenSpan}

/-! ### What is left -/

/-- The tokens outside of the spans, among tokens that begin with number `k`. -/
def remaining (spans : List TokenSpan) (k : Nat) (ts : List Token) : List Token :=
  (numberedKept spans k ts).map Prod.fst

lemma keptTokens_eq_remaining (ts : List Token) :
    keptTokens ts = remaining (erasedSpans ts) 0 ts := rfl

@[simp] lemma remaining_nil_spans (k : Nat) (ts : List Token) : remaining [] k ts = ts := by
  rw [remaining, numberedKept_nil_spans, List.zipIdx_map_fst]

lemma remaining_subset (spans : List TokenSpan) (k : Nat) (ts : List Token) :
    remaining spans k ts ⊆ ts := by
  have h := (List.filter_sublist (p := fun a : Token × Nat => isKept spans a.2)
    (l := ts.zipIdx k)).map Prod.fst
  rw [List.zipIdx_map_fst] at h
  exact h.subset

lemma remaining_append (us : List Token) (h : ∀ s ∈ spans, s.stop ≤ k + ts.length)
    (h' : ∀ s ∈ more, k + ts.length ≤ s.start) :
    remaining (spans ++ more) k (ts ++ us) =
      remaining spans k ts ++ remaining more (k + ts.length) us := by
  rw [remaining, numberedKept_append more us h h', List.map_append]
  rfl

/-- A token in front of all spans is left. -/
lemma remaining_cons (h : ∀ s ∈ spans, k < s.start) (t : Token) (ts : List Token) :
    remaining spans k (t :: ts) = t :: remaining spans (k + 1) ts := by
  have hkept : isKept spans k := isKept_iff.2 fun s hs => .inl (h s hs)
  rw [remaining, numberedKept_cons_of_kept hkept]
  rfl

/-- Outside of one span there are the tokens before it and those after it. -/
lemma remaining_singleton (hs : s.start ≤ s.stop) (k : Nat) (ts : List Token) :
    remaining [s] k ts = ts.take (s.start - k) ++ ts.drop (s.stop - k) := by
  induction ts generalizing k with
  | nil => simp [remaining, numberedKept]
  | cons t ts ih =>
    have ih := ih (k + 1)
    by_cases hk : isKept [s] k
    · have hcons : remaining [s] k (t :: ts) = t :: remaining [s] (k + 1) ts := by
        rw [remaining, numberedKept_cons_of_kept hk]
        rfl
      rw [hcons, ih]
      rcases isKept_iff.1 hk s (List.mem_singleton_self s) with hlt | hle
      · rw [show s.start - k = s.start - (k + 1) + 1 by omega,
          show s.stop - k = s.stop - (k + 1) + 1 by omega]
        rfl
      · simp [show s.start - k = 0 by omega, show s.stop - k = 0 by omega,
          show s.start - (k + 1) = 0 by omega, show s.stop - (k + 1) = 0 by omega]
    · have hskip : remaining [s] k (t :: ts) = remaining [s] (k + 1) ts := by
        simp [remaining, numberedKept, hk]
      rw [isKept_iff, List.forall_mem_singleton, not_or, Nat.not_lt, Nat.not_le] at hk
      rw [hskip, ih, show s.start - k = 0 by omega, show s.start - (k + 1) = 0 by omega,
        show s.stop - k = s.stop - (k + 1) + 1 by omega]
      rfl

/-! ### Names -/

/-- No name is a bracket or a token at which a type ends. -/
def Named (ts : List Token) : Prop :=
  ∀ t ∈ ts, isName t → endsType t = false ∧ isOpener t = false

lemma Named.mono (h : Named ts) (hsubset : us ⊆ ts) : Named us :=
  fun t ht => h t (hsubset ht)

lemma Named.cons (h : Named (t :: ts)) : Named ts := h.mono (List.subset_cons_self t ts)

lemma Named.drop (h : Named ts) (n : Nat) : Named (ts.drop n) := h.mono (List.drop_subset n ts)

/-- A type ends at the first of the tokens, if there is one. -/
def EndsAt (ts : List Token) : Prop := ∀ t ∈ ts.head?, endsType t

lemma text_ne_of_endsType (h : endsType t) :
    t.text ≠ ":" ∧ t.text ≠ "?" ∧ t.text ≠ "(" := by
  refine ⟨?_, ?_, ?_⟩ <;> intro ht <;> simp [endsType, isCloser, ht] at h

lemma endsStatement_eq_false_of_endsType (h : endsType t = false) : endsStatement t = false := by
  by_contra hends
  simp only [endsStatement, Bool.not_eq_false, List.contains_iff_mem, List.mem_cons,
    List.not_mem_nil, or_false] at hends
  rcases hends with ht | ht | ht <;> simp [endsType, isCloser, ht] at h

/-! ### Scanning again -/

/-- Whether a scan stops at a token, and how deep it is after it, does not depend on what follows. -/
lemma scan_cons_cases (stops : List String) (depth : Nat) (t : Token) :
    (∀ ts, scan stops depth (t :: ts) = 0) ∨
      ∃ depth', ∀ ts, scan stops depth (t :: ts) = scan stops depth' ts + 1 := by
  simp only [scan]
  split_ifs
  · exact .inl fun ts => rfl
  · exact .inr ⟨depth + 1, fun ts => rfl⟩
  · exact .inl fun ts => rfl
  · exact .inr ⟨depth - 1, fun ts => rfl⟩
  · exact .inr ⟨depth, fun ts => rfl⟩

/-- A scan over what it covered, in front of other tokens, stops where it did if they begin with the
token at which it stopped. -/
lemma scan_take_append (stops : List String) (depth : Nat) (ts : List Token)
    (h : us.head? = (ts.drop (scan stops depth ts)).head?) :
    scan stops depth (ts.take (scan stops depth ts) ++ us) = scan stops depth ts := by
  induction ts generalizing depth with
  | nil =>
    obtain rfl : us = [] := by simpa using h
    rfl
  | cons t ts ih =>
    rcases scan_cons_cases stops depth t with hstop | ⟨depth', hnext⟩
    · rw [hstop, List.drop_zero] at h
      obtain ⟨vs, rfl⟩ := List.head?_eq_some_iff.1 h
      rw [hstop, List.take_zero, List.nil_append, hstop]
    · rw [hnext, List.drop_succ_cons] at h
      rw [hnext, List.take_succ_cons, List.cons_append, hnext, ih depth' h]

/-- A scan goes on over a name. -/
lemma scan_name (hstops : stops ⊆ ["=", ";", ",", ")", "\x7b"]) (hends : endsType t = false)
    (hopener : isOpener t = false) (ts : List Token) :
    scan stops 0 (t :: ts) = scan stops 0 ts + 1 := by
  have hstop : stops.contains t.text = false := by
    by_contra hstop
    rw [Bool.not_eq_false, List.contains_iff_mem] at hstop
    have := hstops hstop
    simp only [List.mem_cons, List.not_mem_nil, or_false] at this
    rcases this with ht | ht | ht | ht | ht <;> simp [endsType, isCloser, ht] at hends
  rw [endsType, Bool.or_eq_false_iff] at hends
  simp only [scan, hstop, hopener, hends.2, Bool.false_eq_true, and_false, if_false]

/-! ### Parameters again -/

/-- A list cut off and gone on with the token at which it was cut begins as before. -/
lemma head?_take_append (h : us.head? = (ts.drop n).head?) :
    (ts.take n ++ us).head? = ts.head? := by
  cases n with
  | zero => simpa using h
  | succ n =>
    cases ts with
    | nil => simpa using h
    | cons t ts => rfl

lemma endsAt_of_scan (hstops : stops ⊆ ["=", ";", ",", ")", "\x7b"]) (depth : Nat)
    (ts : List Token) : EndsAt (ts.drop (scan stops depth ts)) := by
  intro t ht
  rw [List.head?_drop] at ht
  exact endsType_of_scan hstops ht

lemma parameterLength_of_none (h : annotation? ts = none) :
    parameterLength ts = scan [",", ")"] 0 ts := by
  simp [parameterLength, h]

lemma parameterLength_of_some {start stop : Nat} (h : annotation? ts = some (start, stop)) :
    parameterLength ts = stop + scan [",", ")"] 0 (ts.drop stop) := by
  simp [parameterLength, h, Nat.add_comm]

/-- An annotation is that of a name, and a type ends after it. -/
lemma annotation?_spec {start stop : Nat} (h : annotation? ts = some (start, stop)) :
    start = 1 ∧ 1 < stop ∧ stop ≤ ts.length ∧ EndsAt (ts.drop stop) ∧
      ∃ name rest, ts = name :: rest ∧ isName name := by
  have hspec := annotation?_eq_some (k := 0) h
  have hle := hspec.stop_le
  have hlt := hspec.start_lt
  have hends : EndsAt (ts.drop stop) := by
    intro t ht
    rw [List.head?_drop] at ht
    apply hspec.ends t
    simpa using ht
  dsimp only at hle hlt
  unfold annotation? at h
  split at h
  · next name mark rest =>
    have hname : isName name := by
      by_contra hname
      rw [if_pos (by simpa using hname)] at h
      cases h
    have hstart : start = 1 := by
      split_ifs at h
      · exact (Prod.mk.inj (Option.some.inj h)).1.symm
      · split at h
        · split_ifs at h
          exact (Prod.mk.inj (Option.some.inj h)).1.symm
        · cases h
    exact ⟨hstart, by omega, by omega, hends, name, mark :: rest, rfl, hname⟩
  · cases h

/-- A name in front of the end of a type is not annotated. -/
lemma annotation?_of_endsAt (h : EndsAt ts) (t : Token) : annotation? (t :: ts) = none := by
  cases ts with
  | nil => rfl
  | cons mark rest =>
    obtain ⟨hcolon, hquestion, -⟩ := text_ne_of_endsType (h mark rfl)
    cases rest <;> simp [annotation?, hcolon, hquestion]

lemma annotation?_of_not_name (h : ¬ isName t) (ts : List Token) : annotation? (t :: ts) = none := by
  cases ts <;> simp [annotation?, h]

/-- Whether there is an annotation is told by three tokens. -/
lemma annotation?_eq_none_congr (h : annotation? (t :: u :: ts) = none)
    (hhead : us.head? = ts.head?) : annotation? (t :: u :: us) = none := by
  cases ts with
  | nil =>
    obtain rfl : us = [] := by simpa using hhead
    exact h
  | cons v vs =>
    obtain ⟨ws, rfl⟩ := List.head?_eq_some_iff.1 hhead
    simp only [annotation?] at h ⊢
    split_ifs at h ⊢ <;> rfl

/-- Tokens without an annotation have none when they are cut where a type may end. -/
lemma annotation?_take_append (hnamed : Named ts) (hnone : annotation? ts = none) (hends : EndsAt us)
    {n : Nat} (h : us.head? = (ts.drop n).head?) : annotation? (ts.take n ++ us) = none := by
  rcases ts with _ | ⟨t, ts⟩
  · obtain rfl : us = [] := by simpa using h
    simpa using hnone
  rcases n with _ | n
  · obtain ⟨vs, rfl⟩ := List.head?_eq_some_iff.1 h
    apply annotation?_of_not_name
    intro hname
    have hmark := (hnamed t List.mem_cons_self hname).1
    rw [hends t rfl] at hmark
    cases hmark
  rcases ts with _ | ⟨u, ts⟩
  · obtain rfl : us = [] := by simpa using h
    simpa using hnone
  rcases n with _ | n
  · exact annotation?_of_endsAt hends t
  · exact annotation?_eq_none_congr hnone (head?_take_append h)

/-- An annotated parameter leaves its name and what stands between the annotation and the end of the
parameter. -/
lemma remaining_annotated {name : Token} {stop : Nat}
    (h : annotation? (name :: rest) = some (1, stop)) (hlt : 1 < stop) (k : Nat) :
    remaining (parameterSpans k (name :: rest)) k
        ((name :: rest).take (parameterLength (name :: rest))) =
      name :: ((name :: rest).drop stop).take (scan [",", ")"] 0 ((name :: rest).drop stop)) := by
  rw [parameterLength_of_some h, parameterSpans, h]
  dsimp only
  rw [remaining_singleton (by dsimp only; omega), Nat.add_sub_cancel_left,
    Nat.add_sub_cancel_left, List.take_take, List.drop_take, Nat.add_sub_cancel_left,
    Nat.min_eq_left (by omega)]
  rfl

/-- What a parameter leaves, in front of tokens that begin as what followed it, is a parameter
without annotation. -/
lemma parameter_remaining (us : List Token) (hnamed : Named ts)
    (hleft : left = remaining (parameterSpans k ts) k (ts.take (parameterLength ts)))
    (h : us.head? = (ts.drop (parameterLength ts)).head?) :
    annotation? (left ++ us) = none ∧ parameterLength (left ++ us) = left.length := by
  suffices annotation? (left ++ us) = none ∧ scan [",", ")"] 0 (left ++ us) = left.length from
    ⟨this.1, (parameterLength_of_none this.1).trans this.2⟩
  cases hannotation : annotation? ts with
  | some found =>
    obtain ⟨start, stop⟩ := found
    obtain ⟨rfl, hlt, -, hends, name, rest, rfl, hname⟩ := annotation?_spec hannotation
    rw [remaining_annotated hannotation hlt] at hleft
    rw [parameterLength_of_some hannotation, ← List.drop_drop] at h
    generalize (name :: rest).drop stop = value at h hleft hends
    rw [hleft, List.cons_append]
    constructor
    · apply annotation?_of_endsAt
      intro t ht
      rw [head?_take_append h] at ht
      exact hends t ht
    · obtain ⟨hnot, hopener⟩ := hnamed name List.mem_cons_self hname
      rw [scan_name (by decide) hnot hopener, scan_take_append _ _ _ h, List.length_cons,
        List.length_take_of_le (scan_le _ _ _)]
  | none =>
    rw [parameterLength_of_none hannotation] at h hleft
    rw [parameterSpans, hannotation, remaining_nil_spans] at hleft
    have hends : EndsAt us := by
      intro t ht
      exact endsAt_of_scan (by decide) 0 ts t (h ▸ ht)
    rw [hleft]
    constructor
    · exact annotation?_take_append hnamed hannotation hends h
    · rw [scan_take_append _ _ _ h, List.length_take_of_le (scan_le _ _ _)]

/-- A list of parameters goes on after a parameter that is followed by a comma. -/
lemma parameters_of_comma (hopen : ∀ t ∈ ts.head?, t.text ≠ ")")
    (hdrop : ts.drop (parameterLength ts) = u :: rest) (hu : u.text = ",") (k : Nat) :
    parameters k ts =
      (parameterSpans k ts ++ (parameters (k + parameterLength ts + 1) rest).1,
        parameterLength ts + 1 + (parameters (k + parameterLength ts + 1) rest).2) := by
  cases ts with
  | nil => simp at hdrop
  | cons t ts =>
    have ht := hopen t rfl
    rw [parameters, if_neg ht]
    dsimp only
    split
    · next hnil => simp [hnil] at hdrop
    · next comma more hcomma =>
      obtain ⟨rfl, rfl⟩ := List.cons.inj (hcomma.symm.trans hdrop)
      simp [hu]

/-- It ends with a parameter that is not followed by one. -/
lemma parameters_of_last (hopen : ∀ t ∈ ts.head?, t.text ≠ ")")
    (hlast : ∀ u ∈ (ts.drop (parameterLength ts)).head?, u.text ≠ ",") (k : Nat) :
    parameters k ts = (parameterSpans k ts, parameterLength ts) := by
  cases ts with
  | nil => simp [parameters, parameterSpans, parameterLength, annotation?, scan]
  | cons t ts =>
    have ht := hopen t rfl
    rw [parameters, if_neg ht]
    dsimp only
    split
    · rfl
    · next comma more hcomma =>
      have hne := hlast comma (by rw [hcomma]; rfl)
      simp [hne]

/-- At the end of the list there is no parameter. -/
lemma parameterLength_of_closed (hnone : annotation? (t :: rest) = none) (ht : t.text = ")") :
    parameterLength (t :: rest) = 0 := by
  simp [parameterLength_of_none hnone, scan, ht]

/-- What the last parameter leaves is the last parameter. -/
lemma parameters_remaining_last (hnamed : Named ts)
    (hleft : left = remaining (parameterSpans k ts) k (ts.take (parameterLength ts)))
    (h : us.head? = (ts.drop (parameterLength ts)).head?) (hlast : ∀ u ∈ us.head?, u.text ≠ ",")
    (j : Nat) : parameters j (left ++ us) = ([], left.length) := by
  obtain ⟨hnone, hlength⟩ := parameter_remaining us hnamed hleft h
  rw [← hlength]
  by_cases hopen : ∀ t ∈ (left ++ us).head?, t.text ≠ ")"
  · rw [parameters_of_last hopen (by rwa [hlength, List.drop_left]), parameterSpans, hnone]
  · push Not at hopen
    obtain ⟨t, ht, hclose⟩ := hopen
    obtain ⟨ws, hws⟩ := List.head?_eq_some_iff.1 ht
    rw [hws] at hnone ⊢
    rw [parameters, if_pos hclose, parameterLength_of_closed hnone hclose]

/-- A parameter that is followed by a comma leaves what it leaves, the comma and what the others
leave. -/
lemma remaining_of_comma {m : Nat} (hdrop : ts.drop (parameterLength ts) = u :: rest)
    (hspans : ∀ s ∈ spans, k + parameterLength ts + 1 < s.start) :
    remaining (parameterSpans k ts ++ spans) k (ts.take (parameterLength ts + 1 + m)) =
      remaining (parameterSpans k ts) k (ts.take (parameterLength ts)) ++
        u :: remaining spans (k + parameterLength ts + 1) (rest.take m) := by
  have hlength : (ts.take (parameterLength ts)).length = parameterLength ts :=
    List.length_take_of_le (length_lt_of_drop_eq_cons hdrop).1.le
  have htake : ts.take (parameterLength ts + 1 + m) =
      ts.take (parameterLength ts) ++ u :: rest.take m := by
    rw [Nat.add_assoc, List.take_add, hdrop, Nat.add_comm 1 m, List.take_succ_cons]
  rw [htake, remaining_append, hlength, remaining_cons]
  · exact fun s hs => Nat.lt_of_succ_lt (hspans s hs)
  · intro s hs
    rw [hlength]
    exact (parameterSpans_spec hs).2
  · intro s hs
    have hlt := hspans s hs
    omega

/-- No parenthesis stands in place of a parameter that is followed by a comma. -/
lemma text_ne_of_comma (hnone : annotation? ts = none)
    (hdrop : ts.drop (parameterLength ts) = u :: rest) (hu : u.text = ",") :
    ∀ t ∈ ts.head?, t.text ≠ ")" := by
  intro t ht hclose
  obtain ⟨ws, rfl⟩ := List.head?_eq_some_iff.1 ht
  rw [parameterLength_of_closed hnone hclose] at hdrop
  obtain ⟨rfl, -⟩ := List.cons.inj hdrop
  rw [hu] at hclose
  exact absurd hclose (by decide)

/-- What a list of parameters leaves, in front of tokens that begin as what followed it, is a list
of parameters without annotations. -/
lemma parameters_remaining (us : List Token) (hnamed : Named ts)
    (hleft : left = remaining (parameters k ts).1 k (ts.take (parameters k ts).2))
    (h : us.head? = (ts.drop (parameters k ts).2).head?) (j : Nat) :
    parameters j (left ++ us) = ([], left.length) := by
  revert left j
  fun_induction parameters k ts with
  | case1 =>
    rintro _ rfl j
    obtain rfl : us = [] := by simpa using h
    simp [parameters]
  | case2 k t rest ht =>
    rintro _ rfl j
    obtain ⟨vs, rfl⟩ := List.head?_eq_some_iff.1 h
    simp [parameters, ht]
  | case3 k t rest ht n hdrop =>
    rintro _ rfl j
    apply parameters_remaining_last hnamed rfl h
    simp [h, hdrop]
  -- what is left of the first parameter, a comma, and by hypothesis what is left of the others
  | case4 k t rest ht n comma more hdrop hcomma spans m heq ih =>
    rintro _ rfl j
    have hspans := annotations_parameters (k + n + 1) more
    rw [heq] at ih hspans
    obtain ⟨hlt, hmore⟩ := length_lt_of_drop_eq_cons hdrop
    rw [remaining_of_comma hdrop fun s hs => (hspans.2 s hs).1.lt_start]
    generalize hfirst : remaining (parameterSpans k (t :: rest)) k ((t :: rest).take n) = first
    generalize hothers : remaining spans (k + n + 1) (more.take m) = others
    obtain ⟨hnone, hlength⟩ := parameter_remaining (comma :: (others ++ us)) hnamed
      hfirst.symm (congrArg List.head? hdrop).symm
    have hagain := ih (hmore ▸ hnamed.drop (n + 1)) (by rw [h, hmore, List.drop_drop]) hothers.symm
      (j + first.length + 1)
    have hdrop' : (first ++ comma :: (others ++ us)).drop
        (parameterLength (first ++ comma :: (others ++ us))) = comma :: (others ++ us) := by
      rw [hlength, List.drop_left]
    rw [List.append_assoc, List.cons_append,
      parameters_of_comma (text_ne_of_comma hnone hdrop' hcomma) hdrop' hcomma, parameterSpans,
      hnone, hlength, hagain, List.length_append, List.length_cons, Nat.add_assoc, Nat.add_comm 1]
    rfl
  | case5 k t rest ht n comma more hdrop hcomma =>
    rintro _ rfl j
    apply parameters_remaining_last hnamed rfl h
    simp [h, hdrop, hcomma]

/-! ### Functions again -/

/-- A signature whose list of parameters is not closed is that list. -/
lemma signature_of_open (h : parameters k ts = (spans, n))
    (hopen : ∀ t ∈ (ts.drop n).head?, t.text ≠ ")") : signature k ts = (spans, n) := by
  rw [signature, h]
  dsimp only
  split
  · next close rest hclose =>
    have hne := hopen close (by rw [hclose]; rfl)
    rw [if_pos hne]
  · rfl

lemma signature_of_closed (h : parameters k ts = (spans, n)) (hdrop : ts.drop n = t :: rest)
    (ht : t.text = ")") (hcolon : ∀ u ∈ rest.head?, u.text ≠ ":") :
    signature k ts = (spans, n + 1) := by
  rw [signature, h]
  dsimp only
  rw [hdrop]
  cases rest with
  | nil => simp [ht]
  | cons u us =>
    have hne := hcolon u rfl
    simp [ht, hne]

lemma signature_of_annotated (h : parameters k ts = (spans, n)) (hdrop : ts.drop n = t :: u :: rest)
    (ht : t.text = ")") (hu : u.text = ":") :
    signature k ts = (spans ++ [⟨k + n + 1, k + n + 2 + scan ["\x7b"] 0 rest⟩],
      n + 2 + scan ["\x7b"] 0 rest) := by
  rw [signature, h]
  dsimp only
  rw [hdrop]
  simp [ht, hu]

/-- An annotated signature leaves what its parameters leave, and the parenthesis behind them. -/
lemma remaining_of_result {n : Nat} (hdrop : ts.drop n = t :: rest)
    (hspans : ∀ s ∈ spans, s.stop ≤ k + n) (m : Nat) :
    remaining (spans ++ [⟨k + n + 1, k + n + 2 + m⟩]) k (ts.take (n + 2 + m)) =
      remaining spans k (ts.take n) ++ [t] := by
  have hlength : (ts.take n).length = n :=
    List.length_take_of_le (length_lt_of_drop_eq_cons hdrop).1.le
  have hone : k + n + 1 - (k + n) = 1 := by omega
  have hmore : k + n + 2 + m - (k + n) = m + 2 := by omega
  rw [Nat.add_assoc n, List.take_add, hdrop, Nat.add_comm 2, remaining_append, hlength,
    remaining_singleton, hone, hmore]
  · simp
  · dsimp only
    omega
  · rwa [hlength]
  · intro s hs
    rw [List.mem_singleton.1 hs, hlength]
    dsimp only
    omega

/-- What a signature leaves, in front of tokens that begin as what followed it, is a signature
without annotations. -/
lemma signature_remaining (us : List Token) (hnamed : Named ts)
    (hleft : left = remaining (signature k ts).1 k (ts.take (signature k ts).2))
    (h : us.head? = (ts.drop (signature k ts).2).head?) (j : Nat) :
    signature j (left ++ us) = ([], left.length) := by
  have hspans := annotations_parameters k ts
  have hagain := fun us => parameters_remaining us hnamed (k := k) rfl
  generalize hfound : parameters k ts = found at hspans hagain
  obtain ⟨spans, n⟩ := found
  dsimp only at hspans hagain
  generalize hfirst : remaining spans k (ts.take n) = first at hagain
  by_cases hopen : ∀ t ∈ (ts.drop n).head?, t.text ≠ ")"
  · rw [signature_of_open hfound hopen] at h hleft
    dsimp only at h hleft
    rw [hleft, hfirst]
    apply signature_of_open (hagain us h j)
    rwa [List.drop_left, h]
  · push Not at hopen
    obtain ⟨close, hclose, htext⟩ := hopen
    obtain ⟨rest, hdrop⟩ := List.head?_eq_some_iff.1 hclose
    have hstop : ∀ s ∈ spans, s.stop ≤ k + n := fun s hs => (hspans.2 s hs).2
    -- the parenthesis is left behind the parameters, and no mark of an annotation comes after it
    suffices left = first ++ [close] ∧ ∀ u ∈ us.head?, u.text ≠ ":" by
      obtain ⟨hcons, hcolon⟩ := this
      have hparameters := hagain (close :: us) (by rw [hdrop]; rfl) j
      rw [hcons, List.append_assoc, List.singleton_append,
        signature_of_closed hparameters List.drop_left htext hcolon, List.length_append]
      rfl
    by_cases hcolon : ∀ u ∈ rest.head?, u.text ≠ ":"
    · rw [signature_of_closed hfound hdrop htext hcolon] at h hleft
      dsimp only at h hleft
      have hlength : (ts.take n).length = n := List.length_take_of_le hspans.1
      rw [List.take_add, hdrop, ← List.append_nil spans,
        remaining_append _ (by rwa [hlength]) (by simp), hfirst, remaining_nil_spans] at hleft
      rw [← List.drop_drop, hdrop] at h
      exact ⟨hleft, h ▸ hcolon⟩
    · push Not at hcolon
      obtain ⟨colon, hcolon, hmark⟩ := hcolon
      obtain ⟨type, rfl⟩ := List.head?_eq_some_iff.1 hcolon
      rw [signature_of_annotated hfound hdrop htext hmark] at h hleft
      dsimp only at h hleft
      rw [remaining_of_result hdrop hstop, hfirst] at hleft
      rw [Nat.add_assoc, ← List.drop_drop, hdrop, Nat.add_comm 2] at h
      refine ⟨hleft, fun u hu => ?_⟩
      rw [h] at hu
      exact (text_ne_of_endsType (endsAt_of_scan (by decide) 0 type u hu)).1

end Provenance.Erasure
