import Mathlib.Order.Nat
import Provenance.Checked.Access
import Provenance.Token

/-!
# Tokens by a cursor

A lexer that keeps a cursor reads each character by slicing its text at the cursor's offset, and
cuts each token out of the text when the cursor is past it. `tokens?` is that lexer, with every
slice and every subtraction checked.

Every loop comes to its end: a round moves the cursor past a character at least, so less of the text
is left after it.
-/

namespace Provenance.Checked

open Text (byteLength byteLength_append)

/-! ### Cursors -/

/-- A place in a text: its offset in bytes, its line from zero, and the offset at which the line
begins. -/
structure Cursor where
  offset : Nat
  line : Nat
  lineStart : Nat
deriving DecidableEq, Repr

namespace Cursor

def start : Cursor := ⟨0, 0, 0⟩

/-- The character at a cursor; there is none at the end. -/
def peek? (cur : Cursor) (text : List Char) : Option (Option Char) :=
  (from? cur.offset text).map (·[0]?)

/-- The character after the one at a cursor. -/
def peekSecond? (cur : Cursor) (text : List Char) : Option (Option Char) :=
  (from? cur.offset text).map (·[1]?)

/-- The character that shows whether a slash opens a comment: the one after it. -/
def afterSlash? (cur : Cursor) (text : List Char) (c : Char) : Option (Option Char) :=
  if c = '/' then cur.peekSecond? text else some none

/-- The cursor moved past a character. -/
def past (cur : Cursor) (c : Char) : Cursor :=
  let offset := cur.offset + c.utf8Size
  if c = '\n' then ⟨offset, cur.line + 1, offset⟩ else { cur with offset := offset }

/-- The cursor moved past the character at it. -/
def bump? (cur : Cursor) (text : List Char) : Option Cursor := do
  match ← cur.peek? text with
  | some c => return cur.past c
  | none => return cur

/-! ### Loops over characters -/

variable {cur : Cursor} {text : List Char} {c : Char}

/-- A cursor at a character stands before the end of its text. -/
lemma offset_lt_of_peek? (h : cur.peek? text = some (some c)) :
    cur.offset < byteLength text := by
  obtain ⟨rest, hrest, hget⟩ := Option.map_eq_some_iff.mp h
  obtain ⟨⟨before, after⟩, hcut, rfl⟩ := Option.map_eq_some_iff.mp hrest
  obtain ⟨rfl, hlength⟩ := cut?_eq_some_iff.mp hcut
  cases after with
  | nil => cases hget
  | cons d after =>
    have hpos := d.utf8Size_pos
    rw [byteLength_append, Text.byteLength_cons]
    omega

lemma offset_past (cur : Cursor) (c : Char) : (cur.past c).offset = cur.offset + c.utf8Size := by
  unfold past
  split_ifs <;> rfl

lemma lt_past (cur : Cursor) (c : Char) : cur.offset < (cur.past c).offset := by
  rw [offset_past]
  exact Nat.lt_add_of_pos_right c.utf8Size_pos

lemma bump?_of_peek? (h : cur.peek? text = some (some c)) :
    cur.bump? text = some (cur.past c) := by
  rw [bump?, h]
  rfl

lemma le_bump? {next : Cursor} (h : cur.bump? text = some next) : cur.offset ≤ next.offset := by
  obtain ⟨found, hpeek, h⟩ := Option.bind_eq_some_iff.mp h
  cases found with
  | none =>
    cases h
    exact Nat.le_refl _
  | some c =>
    cases h
    exact (lt_past cur c).le

/-- Less of the text is left after a character. -/
lemma left_past_lt (h : cur.peek? text = some (some c)) :
    byteLength text - (cur.past c).offset < byteLength text - cur.offset := by
  have hlt := offset_lt_of_peek? h
  have hpast := lt_past cur c
  omega

/-- The cursor moved to the first character that fails a test. -/
def eatWhile? (test : Char → Bool) (text : List Char) (cur : Cursor) : Option Cursor :=
  match _ : cur.peek? text with
  | none => none
  | some none => some cur
  | some (some c) => if test c then eatWhile? test text (cur.past c) else some cur
termination_by byteLength text - cur.offset
decreasing_by exact left_past_lt ‹_›

lemma le_eatWhile? {test : Char → Bool} {next : Cursor} (h : eatWhile? test text cur = some next) :
    cur.offset ≤ next.offset := by
  fun_induction eatWhile? test text cur with
  | case1 cur hpeek => cases h
  | case2 cur hpeek =>
    cases h
    exact Nat.le_refl _
  | case3 cur c hpeek htest ih =>
    exact (lt_past cur c).le.trans (ih h)
  | case4 cur c hpeek htest =>
    cases h
    exact Nat.le_refl _

lemma lt_eatWhile? {test : Char → Bool} {next : Cursor} (hpeek : cur.peek? text = some (some c))
    (htest : test c) (h : eatWhile? test text cur = some next) : cur.offset < next.offset := by
  rw [eatWhile?, hpeek] at h
  simp only [if_pos htest] at h
  exact (lt_past cur c).trans_le (le_eatWhile? h)

/-- The cursor moved past the end of a block comment, if it ends. -/
def closeComment? (text : List Char) (cur : Cursor) : Option (Bool × Cursor) :=
  match _ : cur.peek? text with
  | none => none
  | some none => some (false, cur)
  | some (some c) =>
    let next := cur.past c
    if c = '*' then do
      if (← next.peek? text) = some '/' then return (true, ← next.bump? text)
      else closeComment? text next
    else closeComment? text next
termination_by byteLength text - cur.offset
decreasing_by all_goals exact left_past_lt ‹_›

lemma le_closeComment? {next : Cursor} {closed : Bool}
    (h : closeComment? text cur = some (closed, next)) : cur.offset ≤ next.offset := by
  fun_induction closeComment? text cur with
  | case1 cur hpeek => cases h
  | case2 cur hpeek =>
    cases h
    exact Nat.le_refl _
  | case3 cur hpeek past ih =>
    apply (lt_past cur '*').le.trans
    obtain ⟨second, hsecond, h⟩ := Option.bind_eq_some_iff.mp h
    split_ifs at h
    · obtain ⟨last, hlast, heq⟩ := Option.bind_eq_some_iff.mp h
      cases heq
      exact le_bump? hlast
    · exact ih h
  | case4 cur c hpeek past hne ih => exact (lt_past cur c).le.trans (ih h)

/-- The cursor moved past the closing quote of a string, if that stands on its line. -/
def closeString? (quote : Char) (text : List Char) (escaped : Bool) (cur : Cursor) :
    Option (Bool × Cursor) :=
  match _ : cur.peek? text with
  | none => none
  | some none => some (false, cur)
  | some (some c) =>
    if c = '\n' then some (false, cur)
    else if escaped then closeString? quote text false (cur.past c)
    else if c = '\\' then closeString? quote text true (cur.past c)
    else if c = quote then some (true, cur.past c)
    else closeString? quote text false (cur.past c)
termination_by byteLength text - cur.offset
decreasing_by all_goals exact left_past_lt ‹_›

lemma le_closeString? {quote : Char} {escaped closed : Bool} {next : Cursor}
    (h : closeString? quote text escaped cur = some (closed, next)) :
    cur.offset ≤ next.offset := by
  fun_induction closeString? quote text escaped cur with
  | case1 escaped cur hpeek => cases h
  | case2 escaped cur hpeek =>
    cases h
    exact Nat.le_refl _
  | case3 escaped cur hpeek =>
    cases h
    exact Nat.le_refl _
  | case4 cur c hpeek hfeed ih => exact (lt_past cur c).le.trans (ih h)
  | case5 escaped cur hescaped hpeek hfeed ih => exact (lt_past cur _).le.trans (ih h)
  | case6 escaped cur hpeek hfeed hescaped hslash =>
    cases h
    exact (lt_past cur _).le
  | case7 escaped cur c hpeek hfeed hescaped hslash hquote ih =>
    exact (lt_past cur c).le.trans (ih h)

/-! ### Lexemes -/

/-- The kind of the lexeme whose first character is at the cursor, and the cursor past it. -/
def lexeme? (text : List Char) (cur : Cursor) (c : Char) : Option (LexemeKind × Cursor) := do
  if c = '\n' then return (.lineFeed, ← cur.bump? text)
  else if isBlank c then return (.blank, ← cur.bump? text)
  else
    let second ← cur.afterSlash? text c
    if second = some '/' then return (.lineComment, ← eatWhile? (· ≠ '\n') text cur)
    else if second = some '*' then
      let (closed, next) ← closeComment? text (← (← cur.bump? text).bump? text)
      return (.blockComment closed, next)
    else if Lexeme.isNameStart c then
      return (.token .name true, ← eatWhile? Lexeme.isNamePart text cur)
    else if c.isDigit then
      return (.token .number true, ← eatWhile? Lexeme.isNumberPart text cur)
    else if Lexeme.isQuote c then
      let (closed, next) ← closeString? c text false (← cur.bump? text)
      return (.token .string closed, next)
    else return (.token .punctuation true, ← cur.bump? text)

lemma isNamePart_of_isNameStart (h : Lexeme.isNameStart c) : Lexeme.isNamePart c := by
  simp only [Lexeme.isNameStart, Lexeme.isNamePart, Char.isAlphanum, Bool.or_eq_true] at h ⊢
  tauto

lemma isNumberPart_of_isDigit (h : c.isDigit) : Lexeme.isNumberPart c := by
  simp [Lexeme.isNumberPart, Lexeme.isNamePart, Char.isAlphanum, h]

/-- A lexeme has at least one character. -/
lemma lt_lexeme? {kind : LexemeKind} {next : Cursor} (hpeek : cur.peek? text = some (some c))
    (h : cur.lexeme? text c = some (kind, next)) : cur.offset < next.offset := by
  have hpast := lt_past cur c
  have hbump := bump?_of_peek? hpeek
  unfold lexeme? at h
  -- one character that stands for itself
  by_cases hfeed : c = '\n'
  · rw [if_pos hfeed, hbump] at h
    cases h
    exact hpast
  rw [if_neg hfeed] at h
  by_cases hblank : isBlank c
  · rw [if_pos hblank, hbump] at h
    cases h
    exact hpast
  rw [if_neg hblank] at h
  -- comments, told by the second character
  obtain ⟨second, -, h⟩ := Option.bind_eq_some_iff.mp h
  by_cases hline : second = some '/'
  · rw [if_pos hline] at h
    obtain ⟨stop, hstop, heq⟩ := Option.bind_eq_some_iff.mp h
    cases heq
    exact lt_eatWhile? hpeek (by simpa using hfeed) hstop
  rw [if_neg hline] at h
  by_cases hblock : second = some '*'
  · rw [if_pos hblock, hbump] at h
    obtain ⟨moved, hmoved, h⟩ := Option.bind_eq_some_iff.mp h
    cases hmoved
    obtain ⟨inside, hinside, h⟩ := Option.bind_eq_some_iff.mp h
    obtain ⟨found, hfound, heq⟩ := Option.bind_eq_some_iff.mp h
    cases heq
    exact hpast.trans_le ((le_bump? hinside).trans (le_closeComment? hfound))
  rw [if_neg hblock] at h
  -- tokens
  by_cases hname : Lexeme.isNameStart c
  · rw [if_pos hname] at h
    obtain ⟨stop, hstop, heq⟩ := Option.bind_eq_some_iff.mp h
    cases heq
    exact lt_eatWhile? hpeek (isNamePart_of_isNameStart hname) hstop
  rw [if_neg hname] at h
  by_cases hdigit : c.isDigit
  · rw [if_pos hdigit] at h
    obtain ⟨stop, hstop, heq⟩ := Option.bind_eq_some_iff.mp h
    cases heq
    exact lt_eatWhile? hpeek (isNumberPart_of_isDigit hdigit) hstop
  rw [if_neg hdigit] at h
  by_cases hquote : Lexeme.isQuote c
  · rw [if_pos hquote, hbump] at h
    obtain ⟨moved, hmoved, h⟩ := Option.bind_eq_some_iff.mp h
    cases hmoved
    obtain ⟨found, hfound, heq⟩ := Option.bind_eq_some_iff.mp h
    cases heq
    exact hpast.trans_le (le_closeString? hfound)
  · rw [if_neg hquote, hbump] at h
    cases h
    exact hpast

end Cursor

/-! ### The lexer -/

/-- The error that a lexeme is, if it was left open. -/
def errorsAt (text : List Char) (cur : Cursor) : LexemeKind → List LexicalError
  | .token .string false => [.openString (word cur.offset)]
  | .blockComment false => [.openComment (word (byteLength text))]
  | _ => []

/-- The tokens and the errors from a cursor on. -/
def tokensFrom? (text : List Char) (cur : Cursor) (spaced : Bool) :
    Option (List Token × List LexicalError) :=
  match _ : cur.peek? text with
  | none => none
  | some none => some ([], [])
  | some (some c) =>
    match _ : cur.lexeme? text c with
    | none => none
    | some (kind, next) => do
      let (tokens, errors) ← tokensFrom? text next (TextPlace.setsOff kind)
      match kind with
      | .token kind closed =>
        let column ← sub? cur.offset cur.lineStart
        let chars ← slice? cur.offset next.offset text
        let token := ⟨kind, .ofList chars, word cur.offset, cur.line, word column, spaced⟩
        return (token :: tokens, errorsAt text cur (.token kind closed) ++ errors)
      | kind => return (tokens, errorsAt text cur kind ++ errors)
termination_by byteLength text - cur.offset
decreasing_by
  have hlt := Cursor.offset_lt_of_peek? ‹cur.peek? text = _›
  have hnext := Cursor.lt_lexeme? ‹cur.peek? text = _› ‹cur.lexeme? text c = _›
  omega

/-- The tokens and the errors of a text. -/
def tokens? (text : List Char) : Option (List Token × List LexicalError) :=
  tokensFrom? text .start false

end Provenance.Checked
