import Mathlib.Tactic.Common
import Provenance.Token

/-!
# Lexing is local

Where a lexeme ends is decided by its own characters and by the one that comes after them. `Fits`
says that characters are a lexeme in front of a text, `MayFollow` says which characters may come
after a token, and a token that fits in front of one text fits in front of any other whose first
character may follow it. So tokens can be taken out of their text and put into another.
-/

namespace Provenance

/-! ### Spans -/

namespace Lexeme

lemma span_append_eq_length {test : Char → Bool} {cs rest : List Char} :
    span test (cs ++ rest) = cs.length ↔
      (∀ c ∈ cs, test c) ∧ ∀ d ∈ rest.head?, test d = false := by
  induction cs with
  | nil =>
    cases rest with
    | nil => simp [span]
    | cons d rest => by_cases h : test d <;> simp [span, h]
  | cons c cs ih =>
    by_cases h : test c
    · simpa [span, h] using ih
    · simp [span, h]

lemma span_le (test : Char → Bool) (cs : List Char) : span test cs ≤ cs.length :=
  (List.takeWhile_prefix test).length_le

lemma stringSpan_le (quote : Char) (escaped : Bool) (cs : List Char) :
    (stringSpan quote escaped cs).2 ≤ cs.length := by
  induction cs generalizing escaped with
  | nil => simp [stringSpan]
  | cons c cs ih =>
    simp only [stringSpan]
    split_ifs
    · simp
    · simp
    · simpa using ih _

lemma blockSpan_le (cs : List Char) : (blockSpan cs).2 ≤ cs.length := by
  fun_induction blockSpan cs with
  | case1 => simp
  | case2 => simp
  | case3 c cs _ closed n h ih => simpa [h] using ih

/-- A string that ends within its characters ends there whatever comes after them. One that is
left open goes up to a line feed or to the end of the text. -/
lemma stringSpan_append {quote : Char} {escaped closed : Bool} {cs rest rest' : List Char}
    (h : stringSpan quote escaped (cs ++ rest) = (closed, cs.length))
    (hrest : closed = false → ∀ d ∈ rest'.head?, d = '\n') :
    stringSpan quote escaped (cs ++ rest') = (closed, cs.length) := by
  induction cs generalizing escaped with
  | nil =>
    obtain rfl : closed = false := by
      cases rest with
      | nil => simpa [stringSpan, eq_comm] using h
      | cons d rest =>
        simp only [List.nil_append, stringSpan] at h
        split_ifs at h <;> simp_all
    cases rest' with
    | nil => rfl
    | cons d rest' => simp [stringSpan, hrest rfl d rfl]
  | cons c cs ih =>
    simp only [List.cons_append, stringSpan] at h ⊢
    split_ifs at h ⊢ with hn hq
    · simp at h
    · exact h
    · simp only [Prod.mk.injEq, List.length_cons, Nat.add_right_cancel_iff] at h
      have := ih (Prod.ext h.1 h.2)
      simp [this]

lemma stringSpan_open {quote : Char} {escaped : Bool} {cs rest : List Char}
    (h : stringSpan quote escaped (cs ++ rest) = (false, cs.length)) :
    ∀ d ∈ rest.head?, d = '\n' := by
  induction cs generalizing escaped with
  | nil =>
    cases rest with
    | nil => simp
    | cons d rest =>
      simp only [List.nil_append, stringSpan] at h
      split_ifs at h <;> simp_all
  | cons c cs ih =>
    simp only [List.cons_append, stringSpan] at h
    split_ifs at h with hn hq
    · simp at h
    · simp at h
    · simp only [Prod.mk.injEq, List.length_cons, Nat.add_right_cancel_iff] at h
      exact ih (Prod.ext h.1 h.2)

lemma measure_le (c : Char) (cs : List Char) : (measure c cs).2 ≤ cs.length := by
  unfold measure
  split_ifs with _ _ _ h
  · simp
  · simp
  · exact span_le _ _
  · cases cs with
    | nil => simp at h
    | cons d cs => simpa using blockSpan_le cs
  · exact span_le _ _
  · exact span_le _ _
  · exact stringSpan_le _ _ _
  · simp

lemma lexemes_cons (c : Char) (cs : List Char) :
    lexemes (c :: cs) =
      ⟨(measure c cs).1, c :: cs.take (measure c cs).2⟩ ::
        lexemes (cs.drop (measure c cs).2) := by
  rw [lexemes]

/-! ### Lexemes in front of a text -/

/-- The characters, in front of others, are a lexeme of the kind. -/
def Fits (kind : LexemeKind) (chars rest : List Char) : Prop :=
  ∃ c cs, chars = c :: cs ∧ measure c (cs ++ rest) = (kind, cs.length)

lemma Fits.lexemes {kind : LexemeKind} {chars rest : List Char} (h : Fits kind chars rest) :
    lexemes (chars ++ rest) = ⟨kind, chars⟩ :: lexemes rest := by
  obtain ⟨c, cs, rfl, hm⟩ := h
  rw [List.cons_append, lexemes_cons]
  simp [hm]

/-- The lexemes of a text fit in front of one another. -/
lemma fits_of_lexemes_eq {text : List Char} {l : Lexeme} {ls : List Lexeme}
    (h : lexemes text = l :: ls) :
    Fits l.kind l.chars (ls.flatMap (·.chars)) ∧ lexemes (ls.flatMap (·.chars)) = ls := by
  cases text with
  | nil => simp [lexemes] at h
  | cons c cs =>
    rw [lexemes_cons] at h
    obtain ⟨rfl, rfl⟩ := List.cons.inj h
    rw [flatMap_chars_lexemes]
    refine ⟨⟨c, cs.take (measure c cs).2, rfl, ?_⟩, rfl⟩
    rw [List.take_append_drop, List.length_take_of_le (measure_le c cs)]

/-- A text begins with one lexeme only. -/
lemma Fits.unique {kind kind' : LexemeKind} {chars chars' rest rest' : List Char}
    (h : Fits kind chars rest) (h' : Fits kind' chars' rest')
    (heq : chars ++ rest = chars' ++ rest') : kind = kind' ∧ chars = chars' := by
  have hls := h'.lexemes
  rw [← heq, h.lexemes] at hls
  obtain ⟨hkind, hchars⟩ := Lexeme.mk.inj (List.cons.inj hls).1
  exact ⟨hkind, hchars⟩

lemma Fits.ne_nil {kind : LexemeKind} {chars rest : List Char} (h : Fits kind chars rest) :
    chars ≠ [] := by
  obtain ⟨c, cs, rfl, -⟩ := h
  exact List.cons_ne_nil c cs

lemma Fits.eq_lineFeed {chars rest : List Char} (h : Fits .lineFeed chars rest) :
    chars = ['\n'] := by
  obtain ⟨c, cs, rfl, hm⟩ := h
  unfold measure at hm
  split_ifs at hm <;> simp_all [eq_comm (a := 0)]

lemma stringSpan_notMem {quote : Char} {escaped closed : Bool} {cs rest : List Char}
    (h : stringSpan quote escaped (cs ++ rest) = (closed, cs.length)) : '\n' ∉ cs := by
  induction cs generalizing escaped with
  | nil => simp
  | cons c cs ih =>
    simp only [List.cons_append, stringSpan] at h
    split_ifs at h with hn hq
    · simp at h
    · obtain ⟨-, rfl⟩ : closed = true ∧ cs = [] := by simpa [eq_comm] using h
      simpa [eq_comm] using hn
    · simp only [Prod.mk.injEq, List.length_cons, Nat.add_right_cancel_iff] at h
      simpa [eq_comm, hn] using ih (Prod.ext h.1 h.2)

lemma fits_lineFeed (rest : List Char) : Fits .lineFeed ['\n'] rest := ⟨'\n', [], rfl, rfl⟩

lemma fits_blank {c : Char} (hb : isBlank c) (hn : c ≠ '\n') (rest : List Char) :
    Fits .blank [c] rest := ⟨c, [], rfl, by simp [measure, hn, hb]⟩

/-! ### Tokens by their first character -/

/-- When a character and those after it begin a token, by the kind of the token. -/
lemma measure_eq_token {kind : TokenKind} {closed : Bool} {c : Char} {cs : List Char} {n : Nat} :
    measure c cs = (.token kind closed, n) ↔
      c ≠ '\n' ∧ isBlank c = false ∧ (c = '/' → ∀ d ∈ cs.head?, d ≠ '/' ∧ d ≠ '*') ∧
        match kind with
        | .name => isNameStart c ∧ closed = true ∧ span isNamePart cs = n
        | .number =>
          isNameStart c = false ∧ c.isDigit ∧ closed = true ∧ span isNumberPart cs = n
        | .string =>
          isNameStart c = false ∧ c.isDigit = false ∧ isQuote c ∧
            stringSpan c false cs = (closed, n)
        | .punctuation =>
          isNameStart c = false ∧ c.isDigit = false ∧ isQuote c = false ∧ closed = true ∧ n = 0 := by
  have hslash : (c = '/' → ∀ d ∈ cs.head?, d ≠ '/' ∧ d ≠ '*') ↔
      ¬(c = '/' ∧ cs.head? = some '/') ∧ ¬(c = '/' ∧ cs.head? = some '*') := by
    cases cs.head? with
    | none => simp
    | some d =>
      simp only [Option.mem_some_iff, forall_eq', Option.some.injEq]
      tauto
  rw [hslash]
  unfold measure
  split_ifs <;> cases kind <;> simp_all [Prod.ext_iff, eq_comm (a := true), eq_comm (a := 0)]

/-- A token begins with a character that is no blank. -/
lemma Fits.head {kind : TokenKind} {closed : Bool} {chars rest : List Char}
    (h : Fits (.token kind closed) chars rest) :
    ∃ c cs, chars = c :: cs ∧ c ≠ '\n' ∧ isBlank c = false := by
  obtain ⟨c, cs, rfl, hm⟩ := h
  obtain ⟨hn, hb, -⟩ := measure_eq_token.1 hm
  exact ⟨c, cs, rfl, hn, hb⟩

/-- A token stands on one line. -/
lemma Fits.notMem_lineFeed {kind : TokenKind} {closed : Bool} {chars rest : List Char}
    (h : Fits (.token kind closed) chars rest) : '\n' ∉ chars := by
  obtain ⟨c, cs, rfl, hm⟩ := h
  obtain ⟨hn, -, -, hm⟩ := measure_eq_token.1 hm
  rw [List.mem_cons, not_or]
  refine ⟨hn.symm, ?_⟩
  cases kind with
  | name => exact fun hc => absurd ((span_append_eq_length.1 hm.2.2).1 _ hc) (by decide)
  | number => exact fun hc => absurd ((span_append_eq_length.1 hm.2.2.2).1 _ hc) (by decide)
  | string => exact stringSpan_notMem hm.2.2.2
  | punctuation => simp [List.length_eq_zero_iff.1 hm.2.2.2.2]

/-- A token is closed unless it is a string. -/
lemma Fits.closed {kind : TokenKind} {closed : Bool} {chars rest : List Char}
    (h : Fits (.token kind closed) chars rest) (hkind : kind ≠ .string) : closed = true := by
  obtain ⟨c, cs, rfl, hm⟩ := h
  obtain ⟨-, -, -, hm⟩ := measure_eq_token.1 hm
  cases kind with
  | name => exact hm.2.1
  | number => exact hm.2.2.1
  | string => exact absurd rfl hkind
  | punctuation => exact hm.2.2.2.1

lemma isBlank_of_isNumberPart {c : Char} (h : isNumberPart c) : isBlank c = false := by
  by_contra hblank
  have halphanum : c.isAlphanum = (decide (c.val ≥ 'A'.val ∧ c.val ≤ 'Z'.val) ||
      (decide (c.val ≥ 'a'.val) && decide (c.val ≤ 'z'.val)) ||
      (decide (c.val ≥ '0'.val) && decide (c.val ≤ '9'.val))) := rfl
  simp only [isNumberPart, isNamePart, halphanum, Bool.or_eq_true, Bool.and_eq_true,
    decide_eq_true_eq, ge_iff_le, UInt32.le_iff_toNat_le] at h
  simp only [Bool.not_eq_false, isBlank, Bool.or_eq_true, Bool.and_eq_true, decide_eq_true_eq,
    Char.toNat] at hblank
  rcases h with (((h | h) | h) | rfl) | rfl | rfl <;> simp_all <;> omega

lemma stringSpan_closed {quote : Char} {escaped : Bool} {cs rest : List Char}
    (h : stringSpan quote escaped (cs ++ rest) = (true, cs.length)) :
    cs.getLast? = some quote := by
  induction cs generalizing escaped with
  | nil =>
    cases rest with
    | nil => simp [stringSpan] at h
    | cons d rest =>
      simp only [List.nil_append, stringSpan] at h
      split_ifs at h <;> simp at h
  | cons c cs ih =>
    simp only [List.cons_append, stringSpan] at h
    split_ifs at h with hn hq
    · simp at h
    · obtain rfl : cs = [] := by simpa [eq_comm] using h
      simp_all
    · simp only [Prod.mk.injEq, List.length_cons, Nat.add_right_cancel_iff] at h
      have := ih (Prod.ext h.1 h.2)
      rw [List.getLast?_cons, this]
      rfl

/-- A closed token ends with a character that is no blank. -/
lemma Fits.getLast {kind : TokenKind} {chars rest : List Char} {d : Char}
    (h : Fits (.token kind true) chars rest) (hd : d ∈ chars.getLast?) : isBlank d = false := by
  obtain ⟨c, cs, rfl, hm⟩ := h
  obtain ⟨-, hb, -, hm⟩ := measure_eq_token.1 hm
  rw [List.getLast?_cons, Option.mem_some_iff] at hd
  subst hd
  cases hlast : cs.getLast? with
  | none => exact hb
  | some d =>
    have hmem : d ∈ cs := List.mem_of_getLast? hlast
    rw [Option.getD_some]
    cases kind with
    | name =>
      have hall := (span_append_eq_length.1 hm.2.2).1
      exact isBlank_of_isNumberPart (by simp [isNumberPart, hall d hmem])
    | number => exact isBlank_of_isNumberPart ((span_append_eq_length.1 hm.2.2.2).1 d hmem)
    | string =>
      rw [stringSpan_closed hm.2.2.2, Option.some.injEq] at hlast
      exact hlast ▸ hb
    | punctuation =>
      rw [List.length_eq_zero_iff.1 hm.2.2.2.2] at hmem
      exact absurd hmem List.not_mem_nil

/-! ### What may follow a token -/

/-- The character after a token that begins with a given one, if there is a character, does not
make it longer and does not turn it into a comment. -/
def MayFollow (kind : TokenKind) (closed : Bool) (first : Char) (next : Option Char) : Prop :=
  match kind with
  | .name => ∀ d ∈ next, isNamePart d = false
  | .number => ∀ d ∈ next, isNumberPart d = false
  | .string => closed = false → ∀ d ∈ next, d = '\n'
  | .punctuation => first = '/' → ∀ d ∈ next, d ≠ '/' ∧ d ≠ '*'

lemma isNamePart_of_not_numberPart {d : Char} (h : isNumberPart d = false) :
    isNamePart d = false := by
  simp_all [isNumberPart]

@[simp] lemma mayFollow_none (kind : TokenKind) (closed : Bool) (first : Char) :
    MayFollow kind closed first none := by
  cases kind <;> simp [MayFollow]

@[simp] lemma mayFollow_lineFeed (kind : TokenKind) (closed : Bool) (first : Char) :
    MayFollow kind closed first (some '\n') := by
  cases kind <;> simp [MayFollow] <;> decide

/-- A character that ends every token but an open string. -/
def Delimits (d : Char) : Prop := isNumberPart d = false ∧ d ≠ '/' ∧ d ≠ '*'

instance (d : Char) : Decidable (Delimits d) := by
  unfold Delimits
  infer_instance

/-- After a token that is not the last thing on its line there may be any delimiter. -/
lemma MayFollow.delimiter {kind : TokenKind} {closed : Bool} {first e d : Char}
    (h : MayFollow kind closed first (some e)) (he : e ≠ '\n') (hd : Delimits d) :
    MayFollow kind closed first (some d) := by
  obtain ⟨hn, hs⟩ := hd
  cases kind with
  | name => simpa [MayFollow] using isNamePart_of_not_numberPart hn
  | number => simpa [MayFollow] using hn
  | string => exact fun hc => absurd (h hc e rfl) he
  | punctuation => simpa [MayFollow] using fun _ => hs

/-- What comes after a token may follow it. -/
lemma Fits.mayFollow {kind : TokenKind} {closed : Bool} {c : Char} {cs rest : List Char}
    (h : Fits (.token kind closed) (c :: cs) rest) : MayFollow kind closed c rest.head? := by
  obtain ⟨c, cs, he, hm⟩ := h
  obtain ⟨rfl, rfl⟩ := List.cons.inj he
  obtain ⟨-, -, hslash, hm⟩ := measure_eq_token.1 hm
  cases kind with
  | name => exact (span_append_eq_length.1 hm.2.2).2
  | number => exact (span_append_eq_length.1 hm.2.2.2).2
  | string =>
    rintro rfl
    exact stringSpan_open hm.2.2.2
  | punctuation =>
    obtain rfl := List.length_eq_zero_iff.1 hm.2.2.2.2
    exact hslash

/-- A token fits in front of any text whose first character may follow it. -/
lemma Fits.before {kind : TokenKind} {closed : Bool} {c : Char} {cs rest rest' : List Char}
    (h : Fits (.token kind closed) (c :: cs) rest) (h' : MayFollow kind closed c rest'.head?) :
    Fits (.token kind closed) (c :: cs) rest' := by
  obtain ⟨c, cs, he, hm⟩ := h
  obtain ⟨rfl, rfl⟩ := List.cons.inj he
  refine ⟨c, cs, rfl, measure_eq_token.2 ?_⟩
  obtain ⟨hn, hb, hslash, hm⟩ := measure_eq_token.1 hm
  refine ⟨hn, hb, ?_, ?_⟩
  · rintro rfl
    cases cs with
    | cons d cs => simpa using hslash rfl
    | nil =>
      cases kind with
      | punctuation => exact h' rfl
      | name => exact absurd hm.1 (by decide)
      | number => exact absurd hm.2.1 (by decide)
      | string => exact absurd hm.2.2.1 (by decide)
  · cases kind with
    | name =>
      exact ⟨hm.1, hm.2.1, span_append_eq_length.2 ⟨(span_append_eq_length.1 hm.2.2).1, h'⟩⟩
    | number =>
      obtain ⟨hname, hdigit, hclosed, hspan⟩ := hm
      have hall := (span_append_eq_length.1 hspan).1
      exact ⟨hname, hdigit, hclosed, span_append_eq_length.2 ⟨hall, h'⟩⟩
    | string =>
      obtain ⟨hname, hdigit, hquote, hm⟩ := hm
      exact ⟨hname, hdigit, hquote, stringSpan_append hm h'⟩
    | punctuation => exact hm

end Lexeme

end Provenance
