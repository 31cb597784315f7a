import Mathlib.Tactic.Common
import Provenance.Intermediate

/-!
# Nested brackets

The checker keeps the closing brackets that it expects, and goes on after every error. It finds
none exactly when the brackets of the tokens come in matching pairs, one within or after another.
What is nested goes by the checker unnoticed, whatever it expects.
-/

namespace Provenance

variable {t u : Token} {ts us inner rest : List Token} {closer : String}
  {expected outer : List String}

/-! ### Brackets -/

namespace Token

/-- The closing bracket that a token calls for, if it is an opening one. -/
def opens? (t : Token) : Option String :=
  if t.kind = .punctuation then Brackets.closer? t.text else none

/-- The closing bracket that a token is, if it is one. -/
def closes? (t : Token) : Option String :=
  if t.kind = .punctuation ∧ Brackets.isCloser t.text then some t.text else none

/-- A token that is no round, square or curly bracket. -/
def IsPlain (t : Token) : Prop := t.opens? = none ∧ t.closes? = none

lemma closes?_eq_none_of_opens? (h : t.opens? = some closer) : t.closes? = none := by
  unfold opens? Brackets.closer? at h
  split_ifs at h with _ hround hsquare hcurly <;> simp [closes?, Brackets.isCloser, *]

lemma text_of_closes? (h : t.closes? = some closer) : t.text = closer := by
  unfold closes? at h
  split_ifs at h
  exact Option.some.inj h

lemma isPlain_of_kind (h : t.kind ≠ .punctuation) : t.IsPlain := by
  simp [IsPlain, opens?, closes?, h]

end Token

/-- Tokens whose round, square and curly brackets come in matching pairs. -/
inductive Nested : List Token → Prop where
  | nil : Nested []
  | plain {t : Token} {ts : List Token} (isPlain : t.IsPlain) (rest : Nested ts) : Nested (t :: ts)
  | enclosed {t u : Token} {inner ts : List Token} {closer : String}
      (opens : t.opens? = some closer) (inside : Nested inner) (closes : u.closes? = some closer)
      (rest : Nested ts) : Nested (t :: (inner ++ u :: ts))

lemma Nested.singleton (h : t.IsPlain) : Nested [t] := .plain h .nil

lemma Nested.append (h : Nested ts) (h' : Nested us) : Nested (ts ++ us) := by
  induction h with
  | nil => exact h'
  | plain isPlain _ ih => exact .plain isPlain ih
  | enclosed opens inside closes _ _ ih =>
    rw [List.cons_append, List.append_assoc, List.cons_append]
    exact .enclosed opens inside closes ih

/-! ### What the checker does at a token -/

namespace Brackets

lemma check_of_isPlain (h : t.IsPlain) (expected : List String) (ts : List Token) :
    check expected (t :: ts) = check expected ts := by
  obtain ⟨hopens, hcloses⟩ := h
  rw [check.eq_def]
  dsimp only
  by_cases hkind : t.kind = .punctuation
  · rw [Token.opens?, if_pos hkind] at hopens
    have hcloser : isCloser t.text = false := by simpa [Token.closes?, hkind] using hcloses
    simp [hkind, hopens, hcloser]
  · rw [if_pos hkind]

lemma check_of_opens (h : t.opens? = some closer) (expected : List String) (ts : List Token) :
    check expected (t :: ts) = check (closer :: expected) ts := by
  unfold Token.opens? at h
  split_ifs at h with hkind
  rw [check.eq_def]
  dsimp only
  rw [if_neg (not_not.2 hkind), h]

lemma check_of_closes (h : t.closes? = some closer) (expected : List String) (ts : List Token) :
    check expected (t :: ts) =
      match expected with
      | [] => .stray t.offset :: check [] ts
      | expect :: outer =>
        if expect = closer then check outer ts
        else .mismatch expect t.offset :: check outer ts := by
  have hopens : t.opens? = none := by
    cases hopens : t.opens? with
    | none => rfl
    | some other => cases h.symm.trans (Token.closes?_eq_none_of_opens? hopens)
  have htext := Token.text_of_closes? h
  unfold Token.closes? at h
  split_ifs at h with hcloses
  rw [Token.opens?, if_pos hcloses.1] at hopens
  rw [check.eq_def]
  dsimp only
  rw [if_neg (not_not.2 hcloses.1), hopens]
  subst htext
  cases expected <;> simp [hcloses.2]

/-- The ways in which a token goes by without an error. -/
lemma check_cons_eq_nil (h : check expected (t :: ts) = []) :
    t.IsPlain ∧ check expected ts = [] ∨
      (∃ closer, t.opens? = some closer ∧ check (closer :: expected) ts = []) ∨
        ∃ closer outer, t.closes? = some closer ∧ expected = closer :: outer ∧
          check outer ts = [] := by
  cases hopens : t.opens? with
  | some closer =>
    rw [check_of_opens hopens] at h
    exact .inr (.inl ⟨closer, rfl, h⟩)
  | none =>
    cases hcloses : t.closes? with
    | none =>
      have hplain : t.IsPlain := ⟨hopens, hcloses⟩
      rw [check_of_isPlain hplain] at h
      exact .inl ⟨hplain, h⟩
    | some closer =>
      rw [check_of_closes hcloses] at h
      refine .inr (.inr ⟨closer, ?_⟩)
      split at h
      · cases h
      · next expect outer =>
        split_ifs at h with hexpect
        subst hexpect
        exact ⟨outer, rfl, rfl, h⟩

/-! ### Runs of the checker -/

/-- Nested tokens change nothing for those after them. -/
lemma check_append (h : Nested inner) (expected : List String) (ts : List Token) :
    check expected (inner ++ ts) = check expected ts := by
  induction h generalizing expected ts with
  | nil => rfl
  | plain isPlain _ ih => rw [List.cons_append, check_of_isPlain isPlain, ih]
  | enclosed opens _ closes _ ih ih' =>
    rw [List.cons_append, check_of_opens opens, List.append_assoc, ih, List.cons_append,
      check_of_closes closes]
    simp only [if_true]
    exact ih' expected ts

/-- After tokens without an error those that follow are checked without one. -/
lemma exists_check_of_append (h : check expected (us ++ ts) = []) :
    ∃ expected', check expected' ts = [] := by
  induction us generalizing expected with
  | nil => exact ⟨expected, h⟩
  | cons t us ih =>
    rcases check_cons_eq_nil h with ⟨-, h⟩ | ⟨closer, -, h⟩ | ⟨closer, outer, -, -, h⟩
    all_goals exact ih h

/-- Tokens that are checked without an error are nested up to the first expected closing bracket,
which is there, or to the end. -/
lemma exists_nested_of_check (expected : List String) (ts : List Token)
    (h : check expected ts = []) :
    match expected with
    | [] => Nested ts
    | closer :: outer => ∃ inner u rest, ts = inner ++ u :: rest ∧ Nested inner ∧
        u.closes? = some closer ∧ check outer rest = [] := by
  match ts with
  | [] =>
    cases expected with
    | nil => exact .nil
    | cons closer outer => cases h
  | t :: ts =>
    rcases check_cons_eq_nil h with
      ⟨hplain, hnext⟩ | ⟨closer, hopens, hnext⟩ | ⟨closer, outer, hcloses, rfl, hnext⟩
    · have ih := exists_nested_of_check expected ts hnext
      cases expected with
      | nil => exact .plain hplain ih
      | cons closer outer =>
        obtain ⟨inner, u, rest, rfl, hinner, hcloses, hrest⟩ := ih
        exact ⟨t :: inner, u, rest, rfl, .plain hplain hinner, hcloses, hrest⟩
    · obtain ⟨inner, u, rest, rfl, hinner, hcloses, hrest⟩ :=
        exists_nested_of_check (closer :: expected) ts hnext
      have ih := exists_nested_of_check expected rest hrest
      cases expected with
      | nil => exact .enclosed hopens hinner hcloses ih
      | cons closer' outer =>
        obtain ⟨inner', u', rest', rfl, hinner', hcloses', hrest'⟩ := ih
        refine ⟨t :: (inner ++ u :: inner'), u', rest', ?_, ?_, hcloses', hrest'⟩
        · simp
        · exact .enclosed hopens hinner hcloses hinner'
    · exact ⟨[], t, ts, rfl, .nil, hcloses, hnext⟩
termination_by ts.length

end Brackets

/-- The checker finds nothing exactly when the brackets are nested. -/
lemma bracketErrors_eq_nil_iff : bracketErrors ts = [] ↔ Nested ts := by
  constructor
  · exact Brackets.exists_nested_of_check [] ts
  · intro h
    have := Brackets.check_append h [] []
    rwa [List.append_nil] at this

end Provenance
