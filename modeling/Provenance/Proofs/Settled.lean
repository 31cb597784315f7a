import Provenance.Proofs.Remaining

/-!
# Erasing twice

Among the tokens that are left when types are erased there are no types to erase (`Settled`). A
second pass takes the steps of the first one: at each token that is left it looks at the two tokens
after it, and these are the ones that the first pass saw there, or the first of them ends a type. All
this is told by kinds and texts, so it holds for the same tokens at other places too.
-/

namespace Provenance.Erasure

variable {atStart : Bool} {k n : Nat} {s : TokenSpan} {t u : Token} {ts us rest left : List Token}
  {spans : List TokenSpan}

/-! ### Steps -/

/-- Nothing is found at the first token. -/
structure FindsNone (atStart : Bool) (ts : List Token) : Prop where
  declaration : atStart = true → declarationLength? ts = none
  binding : annotatedBindingLength? ts = none
  function : functionHeadLength? ts = none

lemma step_of_findsNone (h : FindsNone atStart (t :: rest)) (k : Nat) :
    step k atStart t rest = ⟨[], 0, endsStatement t⟩ := by
  have hdeclaration : (if atStart then declarationLength? (t :: rest) else none) = none := by
    cases atStart with
    | true => exact h.declaration rfl
    | false => rfl
  rw [step, hdeclaration, h.binding, h.function]

/-- A step at a token finds a declaration, an annotated binding, a function or nothing. -/
lemma step_cases (k : Nat) (atStart : Bool) (t : Token) (rest : List Token) :
    (∃ n, atStart = true ∧ declarationLength? (t :: rest) = some n ∧
      step k atStart t rest = ⟨[⟨k, k + n⟩], n - 1, true⟩) ∨
    (∃ n, annotatedBindingLength? (t :: rest) = some n ∧
      step k atStart t rest = ⟨[⟨k + 2, k + n⟩], n - 1, false⟩) ∨
    (∃ n, functionHeadLength? (t :: rest) = some n ∧
      step k atStart t rest =
        ⟨(signature (k + n) ((t :: rest).drop n)).1,
          n + (signature (k + n) ((t :: rest).drop n)).2 - 1, false⟩) ∨
    FindsNone atStart (t :: rest) ∧ step k atStart t rest = ⟨[], 0, endsStatement t⟩ := by
  cases hdeclaration : (if atStart then declarationLength? (t :: rest) else none) with
  | some n =>
    obtain ⟨hstart, hn⟩ := Option.ite_none_right_eq_some.1 hdeclaration
    exact .inl ⟨n, hstart, hn, by rw [step, hdeclaration]⟩
  | none =>
    cases hbinding : annotatedBindingLength? (t :: rest) with
    | some n => exact .inr (.inl ⟨n, rfl, by rw [step, hdeclaration, hbinding]⟩)
    | none =>
      cases hfunction : functionHeadLength? (t :: rest) with
      | some n =>
        exact .inr (.inr (.inl ⟨n, rfl, by rw [step, hdeclaration, hbinding, hfunction]⟩))
      | none =>
        have hnone : FindsNone atStart (t :: rest) :=
          ⟨fun hstart => by rwa [if_pos hstart] at hdeclaration, hbinding, hfunction⟩
        exact .inr (.inr (.inr ⟨hnone, step_of_findsNone hnone k⟩))

/-! ### What is found, by its tokens -/

lemma text_of_declaration (h : declarationLength? (t :: rest) = some n) :
    t.text = "interface" ∨ t.text = "type" := by
  unfold declarationLength? at h
  split at h
  · next heq =>
    obtain ⟨rfl, -⟩ := List.cons.inj heq
    split_ifs at h with _ hinterface htype
    · exact .inl hinterface.1
    · exact .inr htype.1
  · cases h

lemma binding_spec (h : annotatedBindingLength? (t :: rest) = some n) :
    isBindingKeyword t ∧ ∃ name colon type, rest = name :: colon :: type ∧ isName name ∧
      n = scan ["=", ";", ","] 0 type + 3 := by
  unfold annotatedBindingLength? at h
  split at h
  · next keyword name colon type heq =>
    obtain ⟨rfl, rfl⟩ := List.cons.inj heq
    split_ifs at h with hbinding
    rw [Bool.and_eq_true, Bool.and_eq_true] at hbinding
    exact ⟨hbinding.1.1, name, colon, type, rfl, hbinding.1.2, (Option.some.inj h).symm⟩
  · cases h

/-- The head of a function is told by its own tokens. -/
lemma functionHead_spec (h : functionHeadLength? (t :: rest) = some n) :
    t.text = "function" ∧ 1 < n ∧
      ∀ us, functionHeadLength? ((t :: rest).take n ++ us) = some n := by
  cases rest with
  | nil => cases h
  | cons u us =>
    simp only [functionHeadLength?] at h
    split_ifs at h with hfunction hname hparen hparen
    · obtain rfl := Option.some.inj h
      obtain ⟨v, hv, hv'⟩ := Option.map_eq_some_iff.1 hparen
      obtain ⟨vs, rfl⟩ := List.head?_eq_some_iff.1 hv
      refine ⟨not_not.1 hfunction, by decide, fun ws => ?_⟩
      simp [functionHeadLength?, not_not.1 hfunction, hname, hv']
    · obtain rfl := Option.some.inj h
      refine ⟨not_not.1 hfunction, by decide, fun ws => ?_⟩
      simp [functionHeadLength?, not_not.1 hfunction, hname, hparen]

lemma step_of_function (h : functionHeadLength? (t :: rest) = some n) (k : Nat) (atStart : Bool) :
    step k atStart t rest =
      ⟨(signature (k + n) ((t :: rest).drop n)).1,
        n + (signature (k + n) ((t :: rest).drop n)).2 - 1, false⟩ := by
  have htext := (functionHead_spec h).1
  rcases step_cases k atStart t rest with ⟨m, -, hm, -⟩ | ⟨m, hm, -⟩ | ⟨m, hm, hstep⟩ | ⟨hnone, -⟩
  · rcases text_of_declaration hm with htype | htype <;> rw [htext] at htype <;>
      exact absurd htype (by decide)
  · have hbinding := (binding_spec hm).1
    simp [isBindingKeyword, htext] at hbinding
  · obtain rfl := Option.some.inj (h.symm.trans hm)
    exact hstep
  · rw [hnone.function] at h
    cases h

/-- Nothing is found in front of a token that is neither a name nor a parenthesis. -/
lemma findsNone_of_not_name (hname : ¬ isName u) (hparen : u.text ≠ "(") (atStart : Bool)
    (t : Token) (us : List Token) : FindsNone atStart (t :: u :: us) := by
  refine ⟨fun _ => ?_, ?_, ?_⟩
  · cases us <;> simp [declarationLength?, hname]
  · cases us <;> simp [annotatedBindingLength?, hname]
  · simp [functionHeadLength?, hname, hparen]

lemma findsNone_singleton (atStart : Bool) (t : Token) : FindsNone atStart [t] :=
  ⟨fun _ => rfl, rfl, rfl⟩

lemma findsNone_of_endsAt (hnamed : Named ts) (hends : EndsAt ts) (atStart : Bool) (t : Token) :
    FindsNone atStart (t :: ts) := by
  cases ts with
  | nil => exact findsNone_singleton atStart t
  | cons u us =>
    have hu := hends u rfl
    apply findsNone_of_not_name _ (text_ne_of_endsType hu).2.2
    intro hname
    rw [(hnamed u List.mem_cons_self hname).1] at hu
    cases hu

/-- Nothing is found at the keyword of a binding when its annotation is gone. -/
lemma findsNone_of_binding (hkeyword : isBindingKeyword t) (hends : EndsAt ts) (atStart : Bool)
    (u : Token) : FindsNone atStart (t :: u :: ts) := by
  have htext : t.text = "const" ∨ t.text = "let" ∨ t.text = "var" := by
    simpa [isBindingKeyword] using hkeyword
  refine ⟨fun _ => ?_, ?_, ?_⟩
  · rcases htext with htext | htext | htext <;> cases ts <;> simp [declarationLength?, htext]
  · cases ts with
    | nil => rfl
    | cons v vs =>
      have hcolon := (text_ne_of_endsType (hends v rfl)).1
      simp [annotatedBindingLength?, hcolon]
  · rcases htext with htext | htext | htext <;> simp [functionHeadLength?, htext]

/-- Nothing is found at a token that ends a statement. -/
lemma findsNone_of_endsStatement (h : endsStatement t) (atStart : Bool) (ts : List Token) :
    FindsNone atStart (t :: ts) := by
  have htext : t.text = ";" ∨ t.text = "\x7b" ∨ t.text = "\x7d" := by
    simpa [endsStatement] using h
  rcases ts with _ | ⟨u, _ | ⟨v, vs⟩⟩
  · exact findsNone_singleton atStart t
  · refine ⟨fun _ => rfl, rfl, ?_⟩
    rcases htext with htext | htext | htext <;> simp [functionHeadLength?, htext]
  · refine ⟨fun _ => ?_, ?_, ?_⟩
    · rcases htext with htext | htext | htext <;> simp [declarationLength?, htext]
    · rcases htext with htext | htext | htext <;>
        simp [annotatedBindingLength?, isBindingKeyword, htext]
    · rcases htext with htext | htext | htext <;> simp [functionHeadLength?, htext]

/-- Whether something is found is told by three tokens. -/
lemma FindsNone.congr {v : Token} (h : FindsNone atStart (t :: u :: v :: ts)) (us : List Token) :
    FindsNone atStart (t :: u :: v :: us) := by
  obtain ⟨hdeclaration, hbinding, hfunction⟩ := h
  refine ⟨fun hstart => ?_, ?_, ?_⟩
  · have := hdeclaration hstart
    simp only [declarationLength?] at this ⊢
    split_ifs at this ⊢ <;> rfl
  · simp only [annotatedBindingLength?] at hbinding ⊢
    split_ifs at hbinding ⊢
    rfl
  · exact hfunction

/-! ### Erasing again -/

/-- Tokens among which there is nothing to erase. -/
def Settled (atStart : Bool) (ts : List Token) : Prop := ∀ k, spansFrom k atStart ts = []

lemma settled_nil (atStart : Bool) : Settled atStart [] := fun k => by rw [spansFrom]

lemma Settled.of_step {next : Bool} {m : Nat} (h : ∀ k, step k atStart t rest = ⟨[], m, next⟩)
    (hrest : Settled next (rest.drop m)) : Settled atStart (t :: rest) := by
  intro k
  rw [spansFrom_cons, h]
  exact hrest _

lemma Settled.cons (hnone : FindsNone atStart (t :: rest))
    (hrest : Settled (endsStatement t) rest) : Settled atStart (t :: rest) :=
  .of_step (step_of_findsNone hnone) hrest

/-- Only where a declaration may begin is a first token erased. -/
lemma lt_start_of_mem_spansFrom (h : s ∈ spansFrom k false ts) : k < s.start := by
  cases ts with
  | nil => simp [spansFrom] at h
  | cons t rest =>
    rw [spansFrom_cons] at h
    rcases List.mem_append.1 h with h | h
    · obtain ⟨-, ⟨hstart, -⟩ | ⟨hspans, -⟩⟩ := step_spec k false t rest
      · cases hstart
      · exact (hspans.2 s h).1.lt_start
    · have := (spansFrom_within h).1
      omega

/-- And the second token is erased only behind the end of a statement. -/
lemma succ_lt_start_of_mem_spansFrom (hends : endsStatement t = false)
    (h : s ∈ spansFrom k false (t :: ts)) : k + 1 < s.start := by
  rw [spansFrom_cons] at h
  rcases step_cases k false t ts with ⟨n, hstart, -⟩ | ⟨n, hn, hstep⟩ | ⟨n, hn, hstep⟩ | ⟨-, hstep⟩
  · cases hstart
  · obtain ⟨-, name, colon, type, -, -, hlength⟩ := binding_spec hn
    rcases List.mem_append.1 h with h | h
    · rw [hstep, List.mem_singleton] at h
      subst h
      exact Nat.lt_succ_self _
    · have := (spansFrom_within h).1
      rw [hstep] at this
      dsimp only at this
      omega
  · have hlt := (functionHead_spec hn).2.1
    rcases List.mem_append.1 h with h | h
    · rw [hstep] at h
      have := ((annotations_signature _ _).2 s h).1.lt_start
      omega
    · have := (spansFrom_within h).1
      rw [hstep] at this
      dsimp only at this
      omega
  · rw [hstep, hends] at h
    exact lt_start_of_mem_spansFrom h

lemma head?_remaining_spansFrom (k : Nat) (ts : List Token) :
    (remaining (spansFrom k false ts) k ts).head? = ts.head? := by
  cases ts with
  | nil => rfl
  | cons t ts =>
    rw [remaining_cons fun s hs => lt_start_of_mem_spansFrom hs]
    rfl

/-- Where nothing was found at a token, nothing is found in front of what is left of the tokens
after it. -/
lemma findsNone_remaining (hnamed : Named rest) (h : FindsNone atStart (t :: rest)) (k : Nat) :
    FindsNone atStart (t :: remaining (spansFrom k (endsStatement t) rest) k rest) := by
  cases hends : endsStatement t with
  | true => exact findsNone_of_endsStatement hends _ _
  | false =>
    cases rest with
    | nil => exact h
    | cons u us =>
      rw [remaining_cons fun s hs => lt_start_of_mem_spansFrom hs]
      cases hends' : endsStatement u with
      | true =>
        apply findsNone_of_not_name
        · intro hname
          have hends'' := endsStatement_eq_false_of_endsType (hnamed u List.mem_cons_self hname).1
          rw [hends'] at hends''
          cases hends''
        · intro hparen
          simp [endsStatement, hparen] at hends'
      | false =>
        cases us with
        | nil => exact h
        | cons v vs =>
          rw [remaining_cons fun s hs => succ_lt_start_of_mem_spansFrom hends' hs]
          exact h.congr _

lemma remaining_spansFrom_cons (k : Nat) (atStart : Bool) (t : Token) (rest : List Token) :
    let found := step k atStart t rest
    remaining (spansFrom k atStart (t :: rest)) k (t :: rest) =
      remaining found.spans k ((t :: rest).take (found.more + 1)) ++
        remaining (spansFrom (k + 1 + found.more) found.atStart (rest.drop found.more))
          (k + 1 + found.more) (rest.drop found.more) := by
  intro found
  rw [remaining, numberedKept_spansFrom_cons, List.map_append]
  rfl

/-- Nothing is left of a declaration. -/
lemma remaining_declaration (k n : Nat) (ts : List Token) :
    remaining [⟨k, k + n⟩] k (ts.take n) = [] := by
  rw [remaining_singleton (by dsimp only; omega), Nat.add_sub_cancel_left, Nat.sub_self,
    List.drop_take_self]
  rfl

/-- A binding leaves its keyword and its name. -/
lemma remaining_binding (h : annotatedBindingLength? (t :: rest) = some n) (k : Nat) :
    isBindingKeyword t ∧ 0 < n ∧ EndsAt ((t :: rest).drop n) ∧ ∃ name ∈ rest, isName name ∧
      remaining [⟨k + 2, k + n⟩] k ((t :: rest).take n) = [t, name] := by
  obtain ⟨hkeyword, name, colon, type, rfl, hname, rfl⟩ := binding_spec h
  refine ⟨hkeyword, Nat.succ_pos _, endsAt_of_scan (by decide) 0 type, name,
    List.mem_cons_self, hname, ?_⟩
  rw [remaining_singleton (by dsimp only; omega), Nat.add_sub_cancel_left, Nat.add_sub_cancel_left,
    List.drop_take_self, List.append_nil]
  rfl

lemma settled_binding (hkeyword : isBindingKeyword t) (hname : endsType u = false)
    (hnamed : Named us) (hends : EndsAt us) (hus : Settled false us) (atStart : Bool) :
    Settled atStart (t :: u :: us) := by
  have htext : t.text = "const" ∨ t.text = "let" ∨ t.text = "var" := by
    simpa [isBindingKeyword] using hkeyword
  have hkeyword' : endsStatement t = false := by
    rcases htext with htext | htext | htext <;> simp [endsStatement, htext]
  apply Settled.cons (findsNone_of_binding hkeyword hends atStart u)
  apply Settled.cons (findsNone_of_endsAt hnamed hends _ u)
  rwa [endsStatement_eq_false_of_endsType hname]

/-- A function leaves its head and what its signature leaves. -/
lemma remaining_function {m : Nat} (hn : n ≤ ts.length)
    (hspans : Annotations (k + n) (ts.drop n) spans m) :
    remaining spans k (ts.take (n + m)) =
      ts.take n ++ remaining spans (k + n) ((ts.drop n).take m) := by
  have hlength : (ts.take n).length = n := List.length_take_of_le hn
  rw [← List.nil_append spans, List.take_add, remaining_append, remaining_nil_spans, hlength]
  · rfl
  · intro s hs
    cases hs
  · intro s hs
    rw [hlength]
    exact (hspans.2 s hs).1.lt_start.le

lemma settled_function (h : functionHeadLength? ts = some n)
    (hsignature : ∀ j, signature j (left ++ us) = ([], left.length)) (hus : Settled false us)
    (atStart : Bool) : Settled atStart (ts.take n ++ (left ++ us)) := by
  obtain ⟨hpos, hle⟩ := functionHeadLength?_eq_some h
  obtain ⟨t, rest, rfl⟩ := List.exists_cons_of_length_pos (Nat.lt_of_lt_of_le hpos hle)
  obtain ⟨m, rfl⟩ : ∃ m, n = m + 1 := ⟨n - 1, by omega⟩
  have hhead := (functionHead_spec h).2.2 (left ++ us)
  have hlength : (rest.take m).length = m := List.length_take_of_le (by simpa using hle)
  rw [List.take_succ_cons, List.cons_append] at hhead ⊢
  have hstep : ∀ k, step k atStart t (rest.take m ++ (left ++ us)) =
      ⟨[], m + left.length, false⟩ := by
    intro k
    rw [step_of_function hhead, List.drop_succ_cons, List.drop_left' hlength, hsignature]
    congr 1
    dsimp only
    omega
  apply Settled.of_step hstep
  rw [← List.drop_drop, List.drop_left' hlength, List.drop_left]
  exact hus

lemma drop_pred (hn : 0 < n) (t : Token) (rest : List Token) :
    rest.drop (n - 1) = (t :: rest).drop n := by
  cases n with
  | zero => cases hn
  | succ n => rfl

/-- Among the tokens that are left there is nothing to erase. -/
lemma settled_remaining (hnamed : Named ts) :
    Settled atStart (remaining (spansFrom k atStart ts) k ts) := by
  induction k, atStart, ts using spansFrom.induct with
  | case1 => exact settled_nil _
  | case2 k atStart t rest found ih =>
    have hfound : found = step k atStart t rest := rfl
    have ih := ih (hnamed.cons.drop found.more)
    have hhead := head?_remaining_spansFrom (k + 1 + found.more) (rest.drop found.more)
    rw [hfound] at ih hhead
    rw [remaining_spansFrom_cons]
    rcases step_cases k atStart t rest with
      ⟨n, rfl, hn, hstep⟩ | ⟨n, hn, hstep⟩ | ⟨n, hn, hstep⟩ | ⟨hnone, hstep⟩
    all_goals
      rw [hstep] at ih hhead ⊢
      dsimp only at ih hhead ⊢
    · rw [Nat.sub_add_cancel (declarationLength?_eq_some hn).1, remaining_declaration,
        List.nil_append]
      exact ih
    · obtain ⟨hkeyword, hpos, hends, name, hmem, hname, hleft⟩ := remaining_binding hn k
      rw [Nat.sub_add_cancel hpos, hleft]
      apply settled_binding hkeyword _ _ _ ih
      · exact (hnamed name (List.mem_cons_of_mem t hmem) hname).1
      · exact (hnamed.cons.drop (n - 1)).mono (remaining_subset _ _ _)
      · intro u hu
        rw [hhead, drop_pred hpos t] at hu
        exact hends u hu
    · obtain ⟨hpos, hle⟩ := functionHeadLength?_eq_some hn
      have hspans := annotations_signature (k + n) ((t :: rest).drop n)
      have hagain := fun us => signature_remaining us (hnamed.drop n) (k := k + n) rfl
      generalize signature (k + n) ((t :: rest).drop n) = signature at ih hhead hspans hagain ⊢
      rw [Nat.sub_add_cancel (by omega), remaining_function hle hspans, List.append_assoc]
      apply settled_function hn _ ih
      apply hagain
      rw [hhead, drop_pred (by omega) t, List.drop_drop]
    · simp only [Nat.zero_add, Nat.add_zero, List.take_succ_cons, List.take_zero, List.drop_zero,
        remaining_nil_spans, List.singleton_append] at ih ⊢
      exact .cons (findsNone_remaining hnamed.cons hnone (k + 1)) ih

/-! ### Kinds and texts -/

/-- A token without its place. -/
def bare (t : Token) : Token := ⟨t.kind, t.text, 0, 0, 0, false⟩

@[simp] lemma text_bare (t : Token) : (bare t).text = t.text := rfl

@[simp] lemma isName_bare (t : Token) : isName (bare t) = isName t := rfl

@[simp] lemma isOpener_bare (t : Token) : isOpener (bare t) = isOpener t := rfl

@[simp] lemma isCloser_bare (t : Token) : isCloser (bare t) = isCloser t := rfl

@[simp] lemma isBindingKeyword_bare (t : Token) :
    isBindingKeyword (bare t) = isBindingKeyword t := rfl

@[simp] lemma endsStatement_bare (t : Token) : endsStatement (bare t) = endsStatement t := rfl

@[simp] lemma scan_map_bare (stops : List String) (depth : Nat) (ts : List Token) :
    scan stops depth (ts.map bare) = scan stops depth ts := by
  induction ts generalizing depth with
  | nil => rfl
  | cons t ts ih => simp [scan, ih]

@[simp] lemma declarationLength?_map_bare (ts : List Token) :
    declarationLength? (ts.map bare) = declarationLength? ts := by
  match ts with
  | [] | [_] | [_, _] => rfl
  | keyword :: name :: mark :: rest =>
    have hscan : scan [";"] 0 (bare mark :: rest.map bare) = scan [";"] 0 (mark :: rest) :=
      scan_map_bare [";"] 0 (mark :: rest)
    simp [declarationLength?, hscan]

@[simp] lemma annotatedBindingLength?_map_bare (ts : List Token) :
    annotatedBindingLength? (ts.map bare) = annotatedBindingLength? ts := by
  match ts with
  | [] | [_] | [_, _] => rfl
  | keyword :: name :: colon :: rest =>
    simp only [List.map_cons, annotatedBindingLength?, scan_map_bare]
    rfl

@[simp] lemma functionHeadLength?_map_bare (ts : List Token) :
    functionHeadLength? (ts.map bare) = functionHeadLength? ts := by
  match ts with
  | [] | [_] | [_, _] | _ :: _ :: _ :: _ => rfl

@[simp] lemma annotation?_map_bare (ts : List Token) :
    annotation? (ts.map bare) = annotation? ts := by
  match ts with
  | [] | [_] | [_, _] => rfl
  | name :: mark :: colon :: rest =>
    have hscan : scan [",", ")", "="] 0 (bare colon :: rest.map bare) =
        scan [",", ")", "="] 0 (colon :: rest) := scan_map_bare _ 0 (colon :: rest)
    simp [annotation?, hscan]

@[simp] lemma parameterLength_map_bare (ts : List Token) :
    parameterLength (ts.map bare) = parameterLength ts := by
  simp [parameterLength, ← List.map_drop]

@[simp] lemma parameterSpans_map_bare (k : Nat) (ts : List Token) :
    parameterSpans k (ts.map bare) = parameterSpans k ts := by
  simp [parameterSpans]

@[simp] lemma parameters_map_bare (k : Nat) (ts : List Token) :
    parameters k (ts.map bare) = parameters k ts := by
  fun_induction parameters k ts with
  | case1 => simp [parameters]
  | case2 k t rest ht => simp [parameters, ht]
  | case3 k t rest ht n hdrop =>
    rw [parameters_of_last (by simpa using ht), parameterSpans_map_bare, parameterLength_map_bare]
    rw [parameterLength_map_bare, ← List.map_drop, hdrop]
    simp
  | case4 k t rest ht n comma more hdrop hcomma spans m heq ih =>
    have hdrop' : ((t :: rest).map bare).drop (parameterLength ((t :: rest).map bare)) =
        bare comma :: more.map bare := by
      rw [parameterLength_map_bare, ← List.map_drop, hdrop, List.map_cons]
    rw [parameters_of_comma (by simpa using ht) hdrop' hcomma, parameterLength_map_bare,
      parameterSpans_map_bare, ih, heq]
  | case5 k t rest ht n comma more hdrop hcomma =>
    rw [parameters_of_last (by simpa using ht), parameterSpans_map_bare, parameterLength_map_bare]
    rw [parameterLength_map_bare, ← List.map_drop, hdrop]
    simpa using hcomma

@[simp] lemma signature_map_bare (k : Nat) (ts : List Token) :
    signature k (ts.map bare) = signature k ts := by
  have hmap := parameters_map_bare k ts
  generalize hfound : parameters k ts = found at hmap
  obtain ⟨spans, n⟩ := found
  match hdrop : ts.drop n with
  | [] =>
    rw [signature_of_open hmap (by simp [← List.map_drop, hdrop]),
      signature_of_open hfound (by simp [hdrop])]
  | close :: rest =>
    by_cases hclose : close.text = ")"
    · have hdrop' : (ts.map bare).drop n = bare close :: rest.map bare := by
        rw [← List.map_drop, hdrop, List.map_cons]
      by_cases hcolon : ∀ u ∈ rest.head?, u.text ≠ ":"
      · rw [signature_of_closed hmap hdrop' hclose (by simpa using hcolon),
          signature_of_closed hfound hdrop hclose hcolon]
      · push Not at hcolon
        obtain ⟨colon, hcolon, hmark⟩ := hcolon
        obtain ⟨type, rfl⟩ := List.head?_eq_some_iff.1 hcolon
        rw [signature_of_annotated hmap hdrop' hclose hmark,
          signature_of_annotated hfound hdrop hclose hmark, scan_map_bare]
    · rw [signature_of_open hmap (by simpa [← List.map_drop, hdrop] using hclose),
        signature_of_open hfound (by simpa [hdrop] using hclose)]

lemma step_map_bare (k : Nat) (atStart : Bool) (t : Token) (rest : List Token) :
    step k atStart (bare t) (rest.map bare) = step k atStart t rest := by
  simp only [step, ← List.map_cons, ← List.map_drop, declarationLength?_map_bare,
    annotatedBindingLength?_map_bare, functionHeadLength?_map_bare, signature_map_bare,
    endsStatement_bare]

/-- What is erased depends on the kinds and the texts of tokens only. -/
lemma spansFrom_map_bare (k : Nat) (atStart : Bool) (ts : List Token) :
    spansFrom k atStart (ts.map bare) = spansFrom k atStart ts := by
  induction k, atStart, ts using spansFrom.induct with
  | case1 => rfl
  | case2 k atStart t rest found ih =>
    rw [List.map_cons, spansFrom_cons, spansFrom_cons, step_map_bare, ← List.map_drop, ih]

lemma Settled.congr (h : Settled atStart ts)
    (heq : ts.map (fun t => (t.kind, t.text)) = us.map fun t => (t.kind, t.text)) :
    Settled atStart us := by
  have hbare : ∀ vs : List Token, vs.map bare =
      (vs.map fun t => (t.kind, t.text)).map fun (kind, text) => ⟨kind, text, 0, 0, 0, false⟩ := by
    intro vs
    rw [List.map_map]
    rfl
  intro k
  rw [← spansFrom_map_bare, hbare, ← heq, ← hbare, spansFrom_map_bare]
  exact h k

/-- Tokens that are settled are all kept. -/
lemma Settled.keptTokens_eq (h : Settled true ts) : keptTokens ts = ts := by
  rw [keptTokens_eq_remaining, erasedSpans, h, remaining_nil_spans]

/-- Erasing again erases nothing, wherever the tokens that were kept are put. -/
lemma settled_of_kept (hnamed : Named ts)
    (heq : us.map (fun t => (t.kind, t.text)) =
      (keptTokens ts).map fun t => (t.kind, t.text)) : Settled true us := by
  have hkept : Settled true (keptTokens ts) := settled_remaining hnamed
  exact hkept.congr heq.symm

end Provenance.Erasure
