import Provenance.Checked.Tokens
import Provenance.Proofs.Lexing
import Provenance.Proofs.Sites

/-!
# The cursor never faults

The cursor of the checked lexer only stands between characters, at a place that the text in front
of it tells (`Cursor.after`). So nothing faults, and what comes out are the tokens and the errors of
the text.
-/

namespace Provenance.Checked

open Text (byteLength byteLength_append lastPiece)

/-! ### Where cursors stand -/

namespace Cursor

/-- The cursor after some text. -/
def after (before : List Char) : Cursor :=
  ⟨byteLength before, before.count '\n', byteLength before - byteLength (lastPiece '\n' before)⟩

lemma past_after (before : List Char) (c : Char) :
    (after before).past c = after (before ++ [c]) := by
  have hle := Text.byteLength_lastPiece_le '\n' before
  by_cases hc : c = '\n'
  · subst hc
    simp [past, after]
  · have hlast : lastPiece '\n' (before ++ [c]) = lastPiece '\n' before ++ [c] :=
      Text.lastPiece_append_of_notMem (by simpa using Ne.symm hc)
    simp only [past, if_neg hc, after, hlast, byteLength_append, List.count_append,
      List.count_singleton, beq_iff_eq]
    simp
    omega

variable {text before rest : List Char} {c : Char}

lemma peek?_after (h : text = before ++ rest) : (after before).peek? text = some rest[0]? := by
  rw [h, peek?, after, from?_append, Option.map_some]

lemma afterSlash?_after {cs : List Char} (h : text = before ++ c :: cs) :
    (after before).afterSlash? text c = some (if c = '/' then cs.head? else none) := by
  rw [afterSlash?, h, peekSecond?, after, from?_append, Option.map_some, List.getElem?_cons_succ,
    ← List.head?_eq_getElem?]
  split <;> rfl

lemma bump?_after (h : text = before ++ c :: rest) :
    (after before).bump? text = some (after (before ++ [c])) := by
  rw [bump?, peek?_after h]
  exact congrArg some (past_after before c)

lemma eatWhile?_after (test : Char → Bool) (h : text = before ++ rest) :
    eatWhile? test text (after before) = some (after (before ++ rest.takeWhile test)) := by
  induction rest generalizing before with
  | nil =>
    rw [eatWhile?, peek?_after h, List.takeWhile_nil, List.append_nil]
    rfl
  | cons c cs ih =>
    rw [eatWhile?, peek?_after h]
    simp only [List.getElem?_cons_zero, past_after]
    by_cases hc : test c
    · rw [if_pos hc, ih (by simpa using h), List.takeWhile_cons_of_pos hc, List.append_assoc]
      rfl
    · rw [if_neg hc, List.takeWhile_cons_of_neg hc, List.append_nil]

lemma eatWhile?_cons (test : Char → Bool) {cs : List Char} (h : text = before ++ c :: cs)
    (hc : test c) :
    eatWhile? test text (after before) =
      some (after (before ++ c :: cs.take (Lexeme.span test cs))) := by
  have htake : cs.take (Lexeme.span test cs) = cs.takeWhile test :=
    (List.prefix_iff_eq_take.mp (List.takeWhile_prefix test)).symm
  rw [eatWhile?_after test h, List.takeWhile_cons_of_pos hc, htake]

lemma closeComment?_after (h : text = before ++ rest) :
    closeComment? text (after before) =
      some ((Lexeme.blockSpan rest).1, after (before ++ rest.take (Lexeme.blockSpan rest).2)) := by
  fun_induction Lexeme.blockSpan rest generalizing before with
  | case1 =>
    rw [closeComment?, peek?_after h, List.take_nil, List.append_nil]
    rfl
  | case2 tail =>
    have hstar : text = (before ++ ['*']) ++ '/' :: tail := by simpa using h
    rw [closeComment?, peek?_after h]
    simp only [List.getElem?_cons_zero, bind, Option.bind, past_after, peek?_after hstar,
      bump?_after hstar, if_true, List.append_assoc]
    rfl
  | case3 c cs hne closed n hspan ih =>
    have hnext : text = (before ++ [c]) ++ cs := by simpa using h
    have hrest : closeComment? text (after (before ++ [c])) =
        some (closed, after (before ++ c :: cs.take n)) := by
      rw [ih hnext, hspan, List.append_assoc]
      rfl
    rw [closeComment?, peek?_after h]
    simp only [List.getElem?_cons_zero, bind, Option.bind, past_after, peek?_after hnext, hrest]
    -- the two characters that end a comment do not stand here together
    by_cases hc : c = '*'
    · have hslash : cs[0]? ≠ some '/' := fun hslash => by
        obtain ⟨tail, rfl⟩ : ∃ tail, cs = '/' :: tail := by
          cases cs with
          | nil => cases hslash
          | cons d tail => exact ⟨tail, by rw [Option.some.inj hslash]⟩
        exact hne tail hc rfl
      rw [if_pos hc, if_neg hslash]
      rfl
    · rw [if_neg hc]
      rfl

lemma closeString?_after {quote : Char} (hquote : quote ≠ '\\') (escaped : Bool)
    (h : text = before ++ rest) :
    closeString? quote text escaped (after before) =
      some ((Lexeme.stringSpan quote escaped rest).1,
        after (before ++ rest.take (Lexeme.stringSpan quote escaped rest).2)) := by
  induction rest generalizing before escaped with
  | nil =>
    rw [closeString?, peek?_after h, List.take_nil, List.append_nil]
    rfl
  | cons c cs ih =>
    have hnext : text = (before ++ [c]) ++ cs := by simpa using h
    rw [closeString?, peek?_after h]
    simp only [List.getElem?_cons_zero, past_after, ih _ hnext, Lexeme.stringSpan,
      List.append_assoc, List.singleton_append]
    by_cases hfeed : c = '\n'
    · rw [if_pos hfeed, if_pos hfeed, List.take_zero, List.append_nil]
    rw [if_neg hfeed, if_neg hfeed]
    cases escaped with
    | true => simp
    | false =>
      by_cases hslash : c = '\\'
      · simp [hslash, hquote.symm]
      · by_cases hq : c = quote
        · simp [hq, hquote]
        · simp [hslash, hq]

/-- The lexeme at a cursor is the one with which the rest of the text begins. -/
lemma lexeme?_after {cs : List Char} (h : text = before ++ c :: cs) :
    lexeme? text (after before) c = some ((Lexeme.measure c cs).1,
      after (before ++ c :: cs.take (Lexeme.measure c cs).2)) := by
  have hbump : (after before).bump? text = some (after (before ++ c :: cs.take 0)) := bump?_after h
  have hnext : text = (before ++ [c]) ++ cs := by simpa using h
  have hsecond : ∀ d, (if c = '/' then cs.head? else none) = some d ↔
      c = '/' ∧ cs.head? = some d := fun d => Option.ite_none_right_eq_some
  simp only [lexeme?, Lexeme.measure, hbump, afterSlash?_after h, bind, Option.bind, hsecond]
  -- both go through the kinds of lexemes in the same order: blanks, comments, tokens
  by_cases hfeed : c = '\n'
  · simp only [if_pos hfeed]
    rfl
  simp only [if_neg hfeed]
  by_cases hblank : isBlank c
  · simp only [if_pos hblank]
    rfl
  simp only [if_neg hblank]
  by_cases hline : c = '/' ∧ cs.head? = some '/'
  · simp only [if_pos hline]
    rw [eatWhile?_cons _ h (by simp [hline.1])]
    rfl
  simp only [if_neg hline]
  by_cases hblock : c = '/' ∧ cs.head? = some '*'
  · obtain ⟨tail, rfl⟩ := List.head?_eq_some_iff.mp hblock.2
    have hinside : text = (before ++ [c] ++ ['*']) ++ tail := by simpa using h
    simp only [if_pos hblock, List.take_zero, bump?_after hnext, closeComment?_after hinside]
    simp
  simp only [if_neg hblock]
  by_cases hname : Lexeme.isNameStart c
  · simp only [if_pos hname, eatWhile?_cons _ h (isNamePart_of_isNameStart hname)]
    rfl
  simp only [if_neg hname]
  by_cases hdigit : c.isDigit
  · simp only [if_pos hdigit, eatWhile?_cons _ h (isNumberPart_of_isDigit hdigit)]
    rfl
  simp only [if_neg hdigit]
  by_cases hquote : Lexeme.isQuote c
  · have hne : c ≠ '\\' := by
      rintro rfl
      exact absurd hquote (by decide)
    simp only [if_pos hquote, List.take_zero, closeString?_after hne false hnext]
    simp
  · simp only [if_neg hquote]
    rfl

end Cursor

/-! ### The tokens of a text -/

/-- A block comment that does not end goes on to the end of the text. -/
lemma length_le_of_open {c : Char} {cs : List Char} {n : Nat}
    (h : Lexeme.measure c cs = (.blockComment false, n)) : cs.length ≤ n := by
  have hspan : ∀ cs, (Lexeme.blockSpan cs).1 = false → cs.length ≤ (Lexeme.blockSpan cs).2 := by
    intro cs hopen
    fun_induction Lexeme.blockSpan cs with
    | case1 => exact Nat.le_refl _
    | case2 => cases hopen
    | case3 c cs _ closed n hrest ih =>
      rw [hrest] at ih
      exact Nat.succ_le_succ (ih hopen)
  unfold Lexeme.measure at h
  split_ifs at h <;>
    simp only [Prod.mk.injEq, reduceCtorEq, false_and, LexemeKind.blockComment.injEq] at h
  have hle := hspan _ h.1
  rw [List.length_tail] at hle
  omega

variable {text before : List Char} {c : Char} {cs : List Char} {kind : LexemeKind} {n : Nat}

/-- The errors from a lexeme on are its own and those after it. -/
lemma lexicalErrorsFrom_cons (h : text = before ++ c :: cs)
    (hmeasure : Lexeme.measure c cs = (kind, n)) (hsize : byteLength text < UInt32.size)
    (spaced : Bool) (ls : List Lexeme) :
    lexicalErrorsFrom (.ofBefore before spaced) (⟨kind, c :: cs.take n⟩ :: ls) =
      errorsAt text (.after before) kind ++
        lexicalErrorsFrom (.ofBefore (before ++ c :: cs.take n) (TextPlace.setsOff kind)) ls := by
  have hbefore : byteLength before < UInt32.size := by
    rw [h, byteLength_append] at hsize
    omega
  rw [lexicalErrorsFrom, TextPlace.after_ofBefore]
  cases kind with
  | lineFeed => rfl
  | blank => rfl
  | lineComment => rfl
  | blockComment closed =>
    cases closed with
    | true => rfl
    | false =>
      have hall : cs.take n = cs := List.take_of_length_le (length_le_of_open hmeasure)
      rw [hall, ← h, errorsAt, word_of_lt hsize]
      rfl
  | token kind closed =>
    have hword : word (Cursor.after before).offset = byteLength before := word_of_lt hbefore
    cases kind <;> cases closed <;> simp only [errorsAt, hword] <;> rfl

open Cursor in
/-- From a cursor on, the lexer finds the tokens and the errors of what is left. -/
lemma tokensFrom?_after {rest : List Char} (h : text = before ++ rest)
    (hsize : byteLength text < UInt32.size) (spaced : Bool) :
    tokensFrom? text (after before) spaced =
      some (Provenance.tokensFrom (.ofBefore before spaced) (lexemes rest),
        lexicalErrorsFrom (.ofBefore before spaced) (lexemes rest)) := by
  fun_induction lexemes rest generalizing before spaced with
  | case1 =>
    rw [tokensFrom?, peek?_after h]
    rfl
  | case2 c cs kind n hmeasure ih =>
    have hlexeme :
        lexeme? text (after before) c = some (kind, after (before ++ c :: cs.take n)) := by
      rw [lexeme?_after h, hmeasure]
    have hnext : text = (before ++ c :: cs.take n) ++ cs.drop n := by
      simp [h]
    rw [tokensFrom?, peek?_after h, lexicalErrorsFrom_cons h hmeasure hsize]
    simp only [List.getElem?_cons_zero]
    rw [hlexeme]
    simp only [bind, Option.bind, ih hnext]
    rw [Provenance.tokensFrom, TextPlace.after_ofBefore]
    cases kind with
    | token kind closed =>
      have hlast := Text.byteLength_lastPiece_le '\n' before
      have hbefore : byteLength before < UInt32.size := by
        rw [hnext, byteLength_append, byteLength_append] at hsize
        omega
      have hcolumn : sub? (after before).offset (after before).lineStart =
          some (byteLength (lastPiece '\n' before)) := by
        rw [after, sub?_of_le (Nat.sub_le _ _), Nat.sub_sub_self hlast]
      have hchars : slice? (after before).offset (after (before ++ c :: cs.take n)).offset text =
          some (c :: cs.take n) := by
        rw [hnext, List.append_assoc, after, after, byteLength_append]
        exact slice?_append before _ _
      simp only [hcolumn, hchars]
      rw [word_of_lt (hlast.trans_lt hbefore),
        show (after before).offset = byteLength before from rfl, word_of_lt hbefore]
      rfl
    | _ => rfl

/-- The lexer runs through every text, and finds its tokens and its errors. -/
theorem tokens?_eq {text : List Char} (hsize : byteLength text < UInt32.size) :
    tokens? text = some (tokens text, lexicalErrors text) :=
  tokensFrom?_after (List.nil_append text).symm hsize false

end Provenance.Checked
