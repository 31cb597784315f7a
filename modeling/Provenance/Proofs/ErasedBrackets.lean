import Provenance.Proofs.ErasedSpans
import Provenance.Proofs.Nesting

/-!
# Brackets around erased tokens

Where a type ends is found by counting brackets of all kinds alike. In well nested source this goes
wrong in two ways only: an angle bracket was counted that is none, such as that of an arrow, or a
`type` declaration without a semicolon ran into the closing bracket of the block around it. In all
other cases what is erased is nested in itself, and what is kept stays nested.
-/

namespace Provenance

variable {t u : Token} {ts us rest : List Token} {expected : List String} {stops : List String}
  {s : TokenSpan} {spans : List TokenSpan} {k m n : Nat}

/-! ### Tokens with the text of a bracket -/

/-- Whether a token is an angle bracket, or a part of another operator that looks like one. -/
def Token.IsAngle (t : Token) : Prop := t.text = "<" ∨ t.text = ">"

instance (t : Token) : Decidable t.IsAngle := inferInstanceAs (Decidable (_ ∨ _))

namespace Erasure

/-- Tokens among which only punctuation has the text of a bracket, as those of a text are. -/
def Punctuated (ts : List Token) : Prop :=
  ∀ t ∈ ts, isOpener t ∨ isCloser t → t.kind = .punctuation

lemma Punctuated.cons (h : Punctuated (t :: ts)) : Punctuated ts :=
  fun u hu => h u (List.mem_cons_of_mem t hu)

lemma isOpener_iff : isOpener t ↔ t.text = "(" ∨ t.text = "[" ∨ t.text = "\x7b" ∨ t.text = "<" := by
  simp [isOpener]

lemma isCloser_iff : isCloser t ↔ t.text = ")" ∨ t.text = "]" ∨ t.text = "\x7d" ∨ t.text = ">" := by
  simp [isCloser]

lemma isPlain_of_not_bracket (hopener : ¬ isOpener t) (hcloser : ¬ isCloser t) : t.IsPlain := by
  rw [isOpener_iff] at hopener
  rw [isCloser_iff] at hcloser
  push Not at hopener hcloser
  simp [Token.IsPlain, Token.opens?, Token.closes?, Brackets.closer?, Brackets.isCloser, hopener,
    hcloser]

lemma exists_opens_of_isOpener (hkind : t.kind = .punctuation) (h : isOpener t)
    (hangle : ¬ t.IsAngle) : ∃ closer, t.opens? = some closer := by
  rcases isOpener_iff.1 h with h | h | h | h
  · exact ⟨")", by simp [Token.opens?, hkind, h, Brackets.closer?]⟩
  · exact ⟨"]", by simp [Token.opens?, hkind, h, Brackets.closer?]⟩
  · exact ⟨"\x7d", by simp [Token.opens?, hkind, h, Brackets.closer?]⟩
  · exact absurd (.inl h) hangle

lemma closes_of_isCloser (hkind : t.kind = .punctuation) (h : isCloser t)
    (hangle : ¬ t.IsAngle) : t.closes? = some t.text := by
  rcases isCloser_iff.1 h with h | h | h | h
  · simp [Token.closes?, hkind, h, Brackets.isCloser]
  · simp [Token.closes?, hkind, h, Brackets.isCloser]
  · simp [Token.closes?, hkind, h, Brackets.isCloser]
  · exact absurd (.inr h) hangle

/-- A closing bracket that is checked without an error is the one expected. -/
lemma check_of_isCloser (hkind : t.kind = .punctuation) (h : isCloser t) (hangle : ¬ t.IsAngle)
    (hcheck : Brackets.check expected (t :: ts) = []) :
    ∃ outer, expected = t.text :: outer ∧ Brackets.check outer ts = [] := by
  have hcloses := closes_of_isCloser hkind h hangle
  rcases Brackets.check_cons_eq_nil hcheck with
    ⟨⟨-, hnone⟩, -⟩ | ⟨closer, hopens, -⟩ | ⟨closer, outer, hcloses', hexpected, hrest⟩
  · cases hcloses.symm.trans hnone
  · cases hcloses.symm.trans (Token.closes?_eq_none_of_opens? hopens)
  · obtain rfl := Option.some.inj (hcloses.symm.trans hcloses')
    exact ⟨outer, hexpected, hrest⟩

/-! ### What a scan covers -/

/-- What a scan covers closes the brackets that were open where it began, and no others. The depth
of the scan is the number of brackets open within it. -/
lemma check_take_scan (inner : List String) (hpunctuated : Punctuated ts)
    (hcheck : Brackets.check (inner ++ expected) ts = [])
    (hangle : ∀ t ∈ ts.take (scan stops inner.length ts), ¬ t.IsAngle)
    (expected' : List String) (us : List Token) :
    Brackets.check (inner ++ expected') (ts.take (scan stops inner.length ts) ++ us) =
      Brackets.check expected' us := by
  induction ts generalizing inner with
  | nil =>
    cases inner with
    | nil => rfl
    | cons closer inner => cases hcheck
  | cons t ts ih =>
    have hkind := hpunctuated t List.mem_cons_self
    have ih := fun inner => ih inner hpunctuated.cons
    rw [scan] at hangle ⊢
    split_ifs at hangle ⊢ with hstop hopen hclose hzero
    · rw [List.length_eq_zero_iff.1 hstop.1]
      rfl
    · rw [List.take_succ_cons, List.forall_mem_cons] at hangle
      obtain ⟨closer, hopens⟩ := exists_opens_of_isOpener (hkind (.inl hopen)) hopen hangle.1
      rw [Brackets.check_of_opens hopens] at hcheck
      rw [List.take_succ_cons, List.cons_append, Brackets.check_of_opens hopens]
      exact ih (closer :: inner) hcheck hangle.2
    · rw [List.length_eq_zero_iff.1 hzero]
      rfl
    · rw [List.take_succ_cons, List.forall_mem_cons] at hangle
      obtain ⟨closer, inner, rfl⟩ := List.exists_cons_of_length_pos (Nat.pos_of_ne_zero hzero)
      have hcloses := closes_of_isCloser (hkind (.inr hclose)) hclose hangle.1
      obtain ⟨outer, hexpected, hrest⟩ :=
        check_of_isCloser (hkind (.inr hclose)) hclose hangle.1 hcheck
      obtain ⟨rfl, rfl⟩ := List.cons.inj hexpected
      rw [List.take_succ_cons, List.cons_append, List.cons_append, Brackets.check_of_closes hcloses]
      simp only [if_true]
      exact ih inner hrest hangle.2
    · rw [List.take_succ_cons, List.forall_mem_cons] at hangle
      have hplain : t.IsPlain := isPlain_of_not_bracket hopen hclose
      rw [Brackets.check_of_isPlain hplain] at hcheck
      rw [List.take_succ_cons, List.cons_append, Brackets.check_of_isPlain hplain]
      exact ih inner hcheck hangle.2

/-- What a scan covers is nested, if no angle bracket is in it. -/
lemma nested_take_scan (hpunctuated : Punctuated ts) (hcheck : Brackets.check expected ts = [])
    (hangle : ∀ t ∈ ts.take (scan stops 0 ts), ¬ t.IsAngle) :
    Nested (ts.take (scan stops 0 ts)) := by
  have h : bracketErrors (ts.take (scan stops 0 ts) ++ []) = [] :=
    check_take_scan [] hpunctuated hcheck hangle [] []
  rw [List.append_nil] at h
  exact bracketErrors_eq_nil_iff.1 h

/-! ### What is erased -/

/-- What one erased span takes of the tokens from its start on. -/
inductive Stretch : List Token → List Token → Prop where
  /-- An annotation: its mark, and the type up to a stop. -/
  | annotated {marks rest : List Token} (stops : List String)
      (isMark : ∀ t ∈ marks, t.text = ":" ∨ t.text = "?") :
      Stretch (marks ++ rest) (marks ++ rest.take (scan stops 0 rest))
  /-- An interface, through the closing bracket at which the scan of its body stops. -/
  | interface {keyword name brace : Token} {rest : List Token}
      (isKeyword : keyword.text = "interface") (isName : isName name)
      (isBrace : brace.text = "\x7b") :
      Stretch (keyword :: name :: brace :: rest)
        (keyword :: name :: brace :: rest.take (scan [] 0 rest + 1))
  /-- A `type` declaration, through the token at which the scan of its type stops. -/
  | typeAlias {keyword name : Token} {rest : List Token} (isKeyword : keyword.text = "type")
      (isName : isName name) :
      Stretch (keyword :: name :: rest) (keyword :: name :: rest.take (scan [";"] 0 rest + 1))

lemma stretch_declaration (h : declarationLength? ts = some n) : Stretch ts (ts.take n) := by
  have hmin : ∀ m, ts.take (min m ts.length) = ts.take m := by
    intro m
    rw [← List.take_take, List.take_length]
  unfold declarationLength? at h
  split at h
  · next keyword name mark rest =>
    split_ifs at h with hname hinterface hmark
    · obtain rfl := Option.some.inj h
      have := hmin (scan [] 0 rest + 4)
      simp only [List.length_cons] at this
      rw [this]
      exact .interface hinterface.1 (by simpa using hname) hinterface.2
    · obtain rfl := Option.some.inj h
      have := hmin (scan [";"] 0 (mark :: rest) + 3)
      simp only [List.length_cons] at this
      rw [this]
      exact .typeAlias hmark.1 (by simpa using hname)
  · cases h

/-- An annotation with its mark, as the tokens that it covers are counted. -/
lemma stretch_annotated (marks : List Token) (stops : List String)
    (isMark : ∀ t ∈ marks, t.text = ":" ∨ t.text = "?") (rest : List Token) :
    Stretch (marks ++ rest) ((marks ++ rest).take (marks.length + scan stops 0 rest)) := by
  rw [List.take_length_add_append]
  exact .annotated stops isMark

/-- The tokens of a span, among tokens that begin with number `k`. -/
def slice (s : TokenSpan) (k : Nat) (ts : List Token) : List Token :=
  (ts.drop (s.start - k)).take (s.stop - s.start)

lemma stretch_binding (h : annotatedBindingLength? ts = some n) :
    Stretch (ts.drop 2) ((ts.drop 2).take (n - 2)) := by
  unfold annotatedBindingLength? at h
  split at h
  · next keyword name colon rest =>
    split_ifs at h with hcolon
    obtain rfl := Option.some.inj h
    simp only [Bool.and_eq_true, decide_eq_true_eq] at hcolon
    rw [show scan ["=", ";", ","] 0 rest + 3 - 2 = 1 + scan ["=", ";", ","] 0 rest by omega]
    exact stretch_annotated [colon] _ (by simp [hcolon.2]) rest
  · cases h

lemma stretch_parameter {start stop : Nat} (h : annotation? ts = some (start, stop)) :
    Stretch (ts.drop start) ((ts.drop start).take (stop - start)) := by
  unfold annotation? at h
  split at h
  · next name mark rest =>
    split_ifs at h with hname hmark
    · obtain ⟨rfl, rfl⟩ := Prod.mk.inj (Option.some.inj h)
      rw [show scan [",", ")", "="] 0 rest + 2 - 1 = 1 + scan [",", ")", "="] 0 rest by omega]
      exact stretch_annotated [mark] _ (by simp [hmark]) rest
    · split at h
      · next colon rest =>
        split_ifs at h with hcolon
        obtain ⟨rfl, rfl⟩ := Prod.mk.inj (Option.some.inj h)
        rw [show scan [",", ")", "="] 0 rest + 3 - 1 = 2 + scan [",", ")", "="] 0 rest by omega]
        exact stretch_annotated [mark, colon] _ (by simp [hcolon.1, hcolon.2]) rest
      · cases h
  · cases h

/-- Spans that take stretches of tokens that begin with number `k`, one after another. -/
structure Stretches (k : Nat) (ts : List Token) (spans : List TokenSpan) : Prop where
  stretch : ∀ s ∈ spans, k ≤ s.start ∧ Stretch (ts.drop (s.start - k)) (slice s k ts)
  ordered : spans.Pairwise fun a b => a.stop ≤ b.start

lemma stretches_nil (k : Nat) (ts : List Token) : Stretches k ts [] :=
  ⟨fun _ hs => absurd hs List.not_mem_nil, .nil⟩

lemma stretches_singleton (start : Nat) {stop : Nat}
    (h : Stretch (ts.drop start) ((ts.drop start).take (stop - start))) :
    Stretches k ts [⟨k + start, k + stop⟩] := by
  refine ⟨fun s hs => ?_, List.pairwise_singleton _ _⟩
  obtain rfl := List.mem_singleton.1 hs
  refine ⟨Nat.le_add_right k start, ?_⟩
  rwa [slice, Nat.add_sub_cancel_left, Nat.add_sub_add_left]

lemma Stretches.of_drop {j : Nat} (h : Stretches (k + j) (ts.drop j) spans) :
    Stretches k ts spans := by
  refine ⟨fun s hs => ?_, h.ordered⟩
  obtain ⟨hle, hstretch⟩ := h.stretch s hs
  rw [slice, List.drop_drop, show j + (s.start - (k + j)) = s.start - k by omega] at hstretch
  exact ⟨by omega, hstretch⟩

lemma Stretches.append {more : List TokenSpan} (h : Stretches k ts spans)
    (h' : Stretches k ts more) (hordered : ∀ a ∈ spans, ∀ b ∈ more, a.stop ≤ b.start) :
    Stretches k ts (spans ++ more) := by
  refine ⟨fun s hs => ?_, List.pairwise_append.2 ⟨h.ordered, h'.ordered, hordered⟩⟩
  rcases List.mem_append.1 hs with hs | hs
  · exact h.stretch s hs
  · exact h'.stretch s hs

lemma stretches_parameterSpans (k : Nat) (ts : List Token) :
    Stretches k ts (parameterSpans k ts) := by
  unfold parameterSpans
  split
  · next start stop h => exact stretches_singleton start (stretch_parameter h)
  · exact stretches_nil k ts

lemma stretches_parameters (k : Nat) (ts : List Token) : Stretches k ts (parameters k ts).1 := by
  fun_induction parameters k ts with
  | case1 => exact stretches_nil _ _
  | case2 => exact stretches_nil _ _
  | case3 k t rest ht n hdrop => exact stretches_parameterSpans k (t :: rest)
  | case4 k t rest ht n comma more hdrop hcomma spans m heq ih =>
    obtain ⟨-, rfl⟩ := length_lt_of_drop_eq_cons hdrop
    have hafter := annotations_parameters (k + n + 1) ((t :: rest).drop (n + 1))
    rw [heq, Nat.add_assoc] at ih
    rw [heq] at hafter
    apply (stretches_parameterSpans k (t :: rest)).append ih.of_drop
    intro a ha b hb
    have hstop : a.stop ≤ k + n := (parameterSpans_spec ha).2
    have hstart := (hafter.2 b hb).1.lt_start
    omega
  | case5 k t rest ht n comma more hdrop hcomma => exact stretches_parameterSpans k (t :: rest)

lemma stretches_signature (k : Nat) (ts : List Token) : Stretches k ts (signature k ts).1 := by
  have h := stretches_parameters k ts
  have hbefore := annotations_parameters k ts
  unfold signature
  generalize parameters k ts = found at h hbefore
  obtain ⟨spans, n⟩ := found
  dsimp only at h hbefore ⊢
  split
  · next close rest hclose =>
    obtain ⟨-, rfl⟩ := length_lt_of_drop_eq_cons hclose
    split_ifs with htext
    · exact h
    split
    · next colon rest hcolon =>
      split_ifs with hmark
      · have hresult := stretch_annotated [colon] ["\x7b"] (by simp [hmark]) rest
        rw [List.singleton_append, ← hcolon, List.length_singleton] at hresult
        apply h.append
        · rw [show k + n + 2 + scan ["\x7b"] 0 rest = k + (n + 2 + scan ["\x7b"] 0 rest) by omega,
            Nat.add_assoc k n 1]
          apply stretches_singleton (n + 1)
          rwa [show n + 2 + scan ["\x7b"] 0 rest - (n + 1) = 1 + scan ["\x7b"] 0 rest by omega]
        · intro a ha b hb
          obtain rfl := List.mem_singleton.1 hb
          have := (hbefore.2 a ha).2
          dsimp only
          omega
      · exact h
    · exact h
  · exact h

lemma stretches_step (k : Nat) (atStart : Bool) (t : Token) (rest : List Token) :
    Stretches k (t :: rest) (step k atStart t rest).spans := by
  unfold step
  split
  · next n hn =>
    split_ifs at hn
    exact stretches_singleton 0 (stretch_declaration hn)
  · split
    · next n hn => exact stretches_singleton 2 (stretch_binding hn)
    · split
      · next n hn => exact (stretches_signature (k + n) ((t :: rest).drop n)).of_drop
      · exact stretches_nil _ _

lemma stretches_spansFrom (k : Nat) (atStart : Bool) (ts : List Token) :
    Stretches k ts (spansFrom k atStart ts) := by
  fun_induction spansFrom k atStart ts with
  | case1 => exact stretches_nil _ _
  | case2 k atStart t rest found ih =>
    have hnext : Stretches k (t :: rest)
        (spansFrom (k + 1 + found.more) found.atStart (rest.drop found.more)) := by
      apply Stretches.of_drop (j := found.more + 1)
      rwa [List.drop_succ_cons, show k + (found.more + 1) = k + 1 + found.more by omega]
    apply (stretches_step k atStart t rest).append hnext
    intro a ha b hb
    have hstop : a.stop ≤ k + (found.more + 1) := (step_within ha).2.2
    have hstart := (spansFrom_within hb).1
    omega

/-! ### Stretches that are nested -/

/-- Whether an erased stretch ends where its type or declaration does, as far as its brackets tell:
it is nested, or no angle bracket was counted in it and a `type` declaration ends with a
semicolon. -/
def EndsRightly (erased : List Token) : Prop :=
  Nested erased ∨
    (∀ t ∈ erased, ¬ t.IsAngle) ∧
      (erased.head?.map Token.text = some "type" → erased.getLast?.map Token.text = some ";")

lemma nested_of_isPlain (h : ∀ t ∈ ts, t.IsPlain) : Nested ts := by
  induction ts with
  | nil => exact .nil
  | cons t ts ih =>
    obtain ⟨hplain, h⟩ := List.forall_mem_cons.1 h
    exact .plain hplain (ih h)

lemma isPlain_of_isName (h : isName t) : t.IsPlain := by
  apply Token.isPlain_of_kind
  simp_all [isName]

/-- In what a curly bracket opens, a scan without stops covers all up to the closing bracket. -/
lemma exists_take_scan_of_brace (hpunctuated : Punctuated ts)
    (hcheck : Brackets.check ("\x7d" :: expected) ts = [])
    (hangle : ∀ t ∈ ts.take (scan [] 0 ts + 1), ¬ t.IsAngle) :
    ∃ inner u, ts.take (scan [] 0 ts + 1) = inner ++ [u] ∧ Nested inner ∧
      u.closes? = some "\x7d" := by
  rw [List.take_add_one] at hangle ⊢
  have hnested : Nested (ts.take (scan [] 0 ts)) :=
    nested_take_scan hpunctuated hcheck fun t ht => hangle t (List.mem_append_left _ ht)
  cases hstop : ts[scan [] 0 ts]? with
  | none =>
    -- the scan ran to the end, but the bracket is closed somewhere
    rw [List.take_of_length_le (List.getElem?_eq_none_iff.1 hstop)] at hnested
    have hend := Brackets.check_append hnested ("\x7d" :: expected) []
    rw [List.append_nil, hcheck] at hend
    cases hend
  | some u =>
    rw [hstop] at hangle
    have hcloser : isCloser u := (scan_stop hstop).resolve_left (by simp)
    have hkind := hpunctuated u (List.mem_of_getElem? hstop) (.inr hcloser)
    have hu : ¬ u.IsAngle := hangle u (by simp)
    obtain ⟨hlt, rfl⟩ := List.getElem?_eq_some_iff.1 hstop
    rw [← List.take_append_drop (scan [] 0 ts) ts, Brackets.check_append hnested,
      List.drop_eq_getElem_cons hlt] at hcheck
    obtain ⟨outer, hexpected, -⟩ := check_of_isCloser hkind hcloser hu hcheck
    refine ⟨_, _, rfl, hnested, ?_⟩
    rw [closes_of_isCloser hkind hcloser hu, ← (List.cons.inj hexpected).1]

/-- What one span erases of source without bracket errors is nested if it ends rightly. -/
lemma nested_of_stretch {erased : List Token} (h : Stretch us erased) (hpunctuated : Punctuated us)
    (hcheck : Brackets.check expected us = []) (hends : EndsRightly erased) : Nested erased := by
  rcases hends with hnested | ⟨hangle, hends⟩
  · exact hnested
  -- without angle brackets a scan stops where the brackets of the checker do
  cases h with
  | @annotated marks rest stops isMark =>
    have hmarks : Nested marks := by
      apply nested_of_isPlain
      intro t ht
      apply isPlain_of_not_bracket
      · rcases isMark t ht with h | h <;> simp [isOpener_iff, h]
      · rcases isMark t ht with h | h <;> simp [isCloser_iff, h]
    rw [Brackets.check_append hmarks] at hcheck
    apply hmarks.append
    apply nested_take_scan _ hcheck
    · exact fun t ht => hangle t (List.mem_append_right _ ht)
    · exact fun t ht => hpunctuated t (List.mem_append_right _ ht)
  -- the scan comes to the brace that closes the declaration, as the checker finds none missing
  | @interface keyword name brace rest isKeyword hname isBrace =>
    have hkeyword : keyword.IsPlain := by
      apply isPlain_of_not_bracket <;> simp [isOpener_iff, isCloser_iff, isKeyword]
    have hopens : brace.opens? = some "\x7d" := by
      have := hpunctuated brace (by simp) (.inl (by simp [isOpener_iff, isBrace]))
      simp [Token.opens?, this, isBrace, Brackets.closer?]
    rw [Brackets.check_of_isPlain hkeyword, Brackets.check_of_isPlain (isPlain_of_isName hname),
      Brackets.check_of_opens hopens] at hcheck
    obtain ⟨inner, u, htake, hinner, hcloses⟩ := exists_take_scan_of_brace
      hpunctuated.cons.cons.cons hcheck fun t ht => hangle t (by simp [ht])
    rw [htake]
    exact .plain hkeyword (.plain (isPlain_of_isName hname) (.enclosed hopens hinner hcloses .nil))
  -- the scan takes one token more than its type, which is the semicolon if the span ends rightly
  | @typeAlias keyword name rest isKeyword hname =>
    have hkeyword : keyword.IsPlain := by
      apply isPlain_of_not_bracket <;> simp [isOpener_iff, isCloser_iff, isKeyword]
    rw [Brackets.check_of_isPlain hkeyword, Brackets.check_of_isPlain (isPlain_of_isName hname)]
      at hcheck
    rw [List.take_add_one] at hangle hends ⊢
    have hscan : Nested (rest.take (scan [";"] 0 rest)) :=
      nested_take_scan hpunctuated.cons.cons hcheck fun t ht => hangle t (by simp [ht])
    apply Nested.plain hkeyword
    apply Nested.plain (isPlain_of_isName hname)
    apply hscan.append
    cases hstop : rest[scan [";"] 0 rest]? with
    | none => exact .nil
    | some u =>
      have hlast : (keyword :: name :: (rest.take (scan [";"] 0 rest) ++ [u])).getLast? = some u :=
        List.getLast?_concat (l := keyword :: name :: rest.take (scan [";"] 0 rest))
      rw [hstop, Option.toList_some, hlast] at hends
      have hu : u.text = ";" := by simpa [isKeyword] using hends
      apply Nested.singleton
      apply isPlain_of_not_bracket <;> simp [isOpener_iff, isCloser_iff, hu]

/-! ### What is kept -/

/-- Tokens that are checked alike may take each other's place. -/
lemma check_append_congr {us' : List Token}
    (h : ∀ expected, Brackets.check expected us = Brackets.check expected us')
    (expected : List String) (ts : List Token) :
    Brackets.check expected (ts ++ us) = Brackets.check expected (ts ++ us') := by
  induction ts generalizing expected with
  | nil => exact h expected
  | cons t ts ih =>
    rw [List.cons_append, List.cons_append]
    cases hopens : t.opens? with
    | some closer => rw [Brackets.check_of_opens hopens, Brackets.check_of_opens hopens, ih]
    | none =>
      cases hcloses : t.closes? with
      | none =>
        have hplain : t.IsPlain := ⟨hopens, hcloses⟩
        rw [Brackets.check_of_isPlain hplain, Brackets.check_of_isPlain hplain, ih]
      | some closer =>
        rw [Brackets.check_of_closes hcloses, Brackets.check_of_closes hcloses]
        cases expected <;> simp [ih]

/-- Erasing nested stretches, one after another, does not change how tokens are checked. -/
lemma check_numberedKept
    (hwithin : ∀ s ∈ spans, k ≤ s.start ∧ s.start < s.stop ∧ s.stop ≤ k + ts.length)
    (hordered : spans.Pairwise fun a b => a.stop ≤ b.start)
    (hnested : ∀ s ∈ spans, Nested (slice s k ts))
    (expected : List String) :
    Brackets.check expected ((numberedKept spans k ts).map Prod.fst) =
      Brackets.check expected ts := by
  -- by induction on the spans: the first one is taken out here, the others behind it by hypothesis
  induction spans generalizing k ts expected with
  | nil => rw [numberedKept_nil_spans, List.zipIdx_map_fst]
  | cons s spans ih =>
    obtain ⟨⟨hstart, hlt, hstop⟩, hwithin⟩ := List.forall_mem_cons.1 hwithin
    obtain ⟨hfirst, hordered⟩ := List.pairwise_cons.1 hordered
    obtain ⟨hslice, hnested⟩ := List.forall_mem_cons.1 hnested
    -- the tokens before the span, those in it, and those after it
    obtain ⟨before, erased, after, rfl, hbefore, herased⟩ :
        ∃ before erased after, ts = before ++ (erased ++ after) ∧
          before.length = s.start - k ∧ erased.length = s.stop - s.start := by
      refine ⟨ts.take (s.start - k), (ts.drop (s.start - k)).take (s.stop - s.start),
        (ts.drop (s.start - k)).drop (s.stop - s.start), ?_, ?_, ?_⟩
      · rw [List.take_append_drop, List.take_append_drop]
      · exact List.length_take_of_le (by omega)
      · apply List.length_take_of_le
        rw [List.length_drop]
        omega
    -- of the tokens in the span none is kept
    have hwhole : numberedKept [s] s.start erased = [] := by
      have := numberedKept_whole s.start erased
      rwa [herased, Nat.add_sub_cancel' (Nat.le_of_lt hlt)] at this
    -- each of the three parts is left by the spans that reach into it
    have hkept : numberedKept (s :: spans) k (before ++ (erased ++ after)) =
        numberedKept [] k before ++
          (numberedKept [s] s.start erased ++ numberedKept spans s.stop after) := by
      rw [← List.nil_append (s :: spans),
        numberedKept_append (s :: spans) (erased ++ after) (by simp)]
      · rw [show k + before.length = s.start by omega, ← List.singleton_append (l := spans),
          numberedKept_append spans after (by simp; omega)]
        · rw [show s.start + erased.length = s.stop by omega]
        · intro s' hs'
          have := hfirst s' hs'
          omega
      · intro s' hs'
        rcases List.mem_cons.1 hs' with rfl | hs'
        · omega
        · have := hfirst s' hs'
          omega
    -- the tokens in the span are nested, so behind it the check expects what it did in front of it
    have hafter : ∀ expected,
        Brackets.check expected ((numberedKept spans s.stop after).map Prod.fst) =
          Brackets.check expected (erased ++ after) := by
      intro expected
      rw [slice, List.drop_left' hbefore, List.take_left' herased] at hslice
      rw [Brackets.check_append hslice]
      apply ih
      · intro s' hs'
        have := hfirst s' hs'
        have := hwithin s' hs'
        simp only [List.length_append] at this
        omega
      · exact hordered
      -- a later span is the same stretch of tokens when it is counted from the end of this one
      · intro s' hs'
        have := hfirst s' hs'
        have hdrop := hnested s' hs'
        have hlength : s'.start - k = (before ++ erased).length + (s'.start - s.stop) := by
          rw [List.length_append]
          omega
        rwa [slice, ← List.append_assoc, hlength, List.drop_length_add_append] at hdrop
    -- the tokens before the span are kept, and carry the equation over to all of them
    rw [hkept, numberedKept_nil_spans, hwhole, List.nil_append, List.map_append,
      List.zipIdx_map_fst]
    exact check_append_congr hafter expected before

/-- Nested tokens stay nested if every erased span ends rightly. -/
lemma nested_keptTokens (hpunctuated : Punctuated ts) (hnested : Nested ts)
    (hends : ∀ s ∈ erasedSpans ts, EndsRightly (slice s 0 ts)) : Nested (keptTokens ts) := by
  have hcheck : Brackets.check [] ts = [] := bracketErrors_eq_nil_iff.2 hnested
  obtain ⟨hstretch, hordered⟩ := stretches_spansFrom 0 true ts
  apply bracketErrors_eq_nil_iff.1
  rw [keptTokens_eq]
  refine (check_numberedKept (fun s hs => spansFrom_within hs) hordered ?_ []).trans hcheck
  intro s hs
  obtain ⟨-, hs'⟩ := hstretch s hs
  rw [← List.take_append_drop (s.start - 0) ts] at hcheck
  obtain ⟨expected, hrest⟩ := Brackets.exists_check_of_append hcheck
  apply nested_of_stretch hs' _ hrest (hends s hs)
  exact fun t ht => hpunctuated t (List.mem_of_mem_drop ht)

end Erasure

end Provenance
