import Provenance.Proofs.CheckedTokens

/-!
# The tokens partition their text

What blanks, comments and tokens are is said here without a scanner: a comment ends at the first
`*/` inside it or with its line, a string at the first quote that no backslash escapes, names and
numbers as late as they can. A text that is cut into such pieces is told by the relation
`Partitioned`, gap by gap and token by token, and every text is cut so by its tokens and its lexical
errors.
-/

namespace Provenance

open Text

/-! ### What may stand in a text -/

namespace Lexeme

/-- Whether the backslashes at the end of a text escape the character after it. -/
def endsEscaped (cs : List Char) : Prop := (cs.reverse.takeWhile (· = '\\')).length % 2 = 1

/-- Every quote in the body of a string is escaped. -/
def QuotesEscaped (quote : Char) (body : List Char) : Prop :=
  ∀ before, before ++ [quote] <+: body → endsEscaped before

/-- What is skipped between tokens: characters, by their kind, in front of the rest of a text. -/
inductive IsSkipped : LexemeKind → List Char → List Char → Prop where
  | lineFeed (rest : List Char) : IsSkipped .lineFeed ['\n'] rest
  | blank {c : Char} (isBlank : isBlank c) (ne : c ≠ '\n') (rest : List Char) :
      IsSkipped .blank [c] rest
  | lineComment {body rest : List Char} (oneLine : '\n' ∉ body) (ends : ∀ d ∈ rest.head?, d = '\n') :
      IsSkipped .lineComment ('/' :: '/' :: body) rest
  | closedComment {body : List Char} (first : ¬ ['*', '/'] <:+: body) (rest : List Char) :
      IsSkipped (.blockComment true) ('/' :: '*' :: (body ++ ['*', '/'])) rest
  | openComment {body : List Char} (none : ¬ ['*', '/'] <:+: body) :
      IsSkipped (.blockComment false) ('/' :: '*' :: body) []

/-- Tokens: characters, by the kind of the token and whether it is closed, in front of the rest of a
text. -/
inductive IsToken : TokenKind → Bool → List Char → List Char → Prop where
  | name {c : Char} {cs rest : List Char} (starts : isNameStart c) (goesOn : ∀ d ∈ cs, isNamePart d)
      (ends : ∀ d ∈ rest.head?, isNamePart d = false) : IsToken .name true (c :: cs) rest
  | number {c : Char} {cs rest : List Char} (starts : c.isDigit) (goesOn : ∀ d ∈ cs, isNumberPart d)
      (ends : ∀ d ∈ rest.head?, isNumberPart d = false) : IsToken .number true (c :: cs) rest
  | closedString {quote : Char} {body : List Char} (isQuote : isQuote quote) (oneLine : '\n' ∉ body)
      (escaped : QuotesEscaped quote body) (ends : ¬ endsEscaped body) (rest : List Char) :
      IsToken .string true (quote :: (body ++ [quote])) rest
  | openString {quote : Char} {body rest : List Char} (isQuote : isQuote quote)
      (oneLine : '\n' ∉ body) (escaped : QuotesEscaped quote body)
      (ends : ∀ d ∈ rest.head?, d = '\n') : IsToken .string false (quote :: body) rest
  | mark {c : Char} {rest : List Char} (visible : isBlank c = false)
      (other : isNameStart c = false ∧ c.isDigit = false ∧ isQuote c = false)
      (noComment : c = '/' → ∀ d ∈ rest.head?, d ≠ '/' ∧ d ≠ '*') :
      IsToken .punctuation true [c] rest

/-- The end of a comment that is found behind a character is found in front of it only if it begins
there. -/
lemma not_infix_cons {c : Char} {cs : List Char}
    (hne : ∀ rest, c = '*' → cs = '/' :: rest → False) (h : ¬ ['*', '/'] <:+: cs) :
    ¬ ['*', '/'] <:+: c :: cs := by
  intro hfound
  rcases List.infix_cons_iff.1 hfound with ⟨rest, hrest⟩ | hlater
  · obtain ⟨rfl, rfl⟩ := List.cons.inj hrest
    exact hne rest rfl rfl
  · exact h hlater

lemma blockSpan_of_open {cs : List Char} (h : (blockSpan cs).1 = false) :
    ¬ ['*', '/'] <:+: cs ∧ (blockSpan cs).2 = cs.length := by
  fun_induction blockSpan cs with
  | case1 => simp
  | case2 => cases h
  | case3 c cs hne closed n hspan ih =>
    obtain ⟨hnone, hlength⟩ := ih (by rw [hspan]; exact h)
    rw [hspan] at hlength
    exact ⟨not_infix_cons hne hnone, congrArg (· + 1) hlength⟩

lemma blockSpan_of_closed {cs : List Char} (h : (blockSpan cs).1 = true) :
    ∃ body rest, cs = body ++ '*' :: '/' :: rest ∧ ¬ ['*', '/'] <:+: body ∧
      (blockSpan cs).2 = body.length + 2 := by
  fun_induction blockSpan cs with
  | case1 => cases h
  | case2 rest => exact ⟨[], rest, rfl, by simp, rfl⟩
  | case3 c cs hne closed n hspan ih =>
    obtain ⟨body, rest, rfl, hnone, hlength⟩ := ih (by rw [hspan]; exact h)
    rw [hspan] at hlength
    refine ⟨c :: body, rest, rfl, not_infix_cons ?_ hnone, congrArg (· + 1) hlength⟩
    rintro later hstar rfl
    exact hne _ hstar rfl

/-- A block comment goes on to the first end that it finds, or to the end of the text. -/
lemma isSkipped_of_blockSpan {closed : Bool} {body rest : List Char}
    (h : blockSpan (body ++ rest) = (closed, body.length)) :
    IsSkipped (.blockComment closed) ('/' :: '*' :: body) rest := by
  cases closed with
  | true =>
    obtain ⟨inner, later, hcut, hfirst, hend⟩ := blockSpan_of_closed (congrArg Prod.fst h)
    rw [h] at hend
    rw [List.append_cons, List.append_cons] at hcut
    obtain ⟨rfl, rfl⟩ := List.append_inj hcut (by simpa using hend)
    rw [List.append_assoc]
    exact .closedComment hfirst _
  | false =>
    obtain ⟨hnone, hend⟩ := blockSpan_of_open (congrArg Prod.fst h)
    rw [h, List.length_append] at hend
    obtain rfl : rest = [] := List.eq_nil_of_length_eq_zero (by omega)
    rw [List.append_nil] at hnone
    exact .openComment hnone

/-! ### Strings -/

/-- Whether a backslash escapes the character after a text, counted as the text is read. -/
def escapedAfter (escaped : Bool) (cs : List Char) : Bool :=
  cs.foldl (fun escaped c => !escaped && c = '\\') escaped

lemma escapedAfter_iff (cs : List Char) : escapedAfter false cs ↔ endsEscaped cs := by
  induction cs using List.reverseRecOn with
  | nil => simp [escapedAfter, endsEscaped]
  | append_singleton cs c ih =>
    rw [escapedAfter, List.foldl_append, List.foldl_cons, List.foldl_nil, ← escapedAfter,
      endsEscaped, List.reverse_append, List.reverse_singleton, List.singleton_append,
      List.takeWhile_cons]
    unfold endsEscaped at ih
    by_cases hc : c = '\\'
    · cases hescaped : escapedAfter false cs <;> simp [hc, hescaped] at ih ⊢ <;> omega
    · simp [hc]

/-- A string goes on over quotes that are escaped. -/
lemma stringSpan_spec {quote : Char} {escaped closed : Bool} {cs : List Char} {n : Nat}
    (h : stringSpan quote escaped cs = (closed, n)) :
    ∃ body rest, cs = body ++ rest ∧ '\n' ∉ body ∧
      (∀ before, before ++ [quote] <+: body → escapedAfter escaped before) ∧
      if closed then n = body.length + 1 ∧ rest.head? = some quote ∧ ¬ escapedAfter escaped body
      else n = body.length ∧ ∀ d ∈ rest.head?, d = '\n' := by
  induction cs generalizing escaped n with
  | nil =>
    obtain ⟨rfl, rfl⟩ := Prod.mk.inj h
    exact ⟨[], [], rfl, by simp, by simp, by simp⟩
  | cons c cs ih =>
    simp only [stringSpan] at h
    split_ifs at h with hfeed hquote
    · obtain ⟨rfl, rfl⟩ := Prod.mk.inj h
      exact ⟨[], c :: cs, rfl, by simp, by simp, by simp [hfeed]⟩
    · obtain ⟨rfl, rfl⟩ := Prod.mk.inj h
      simp only [Bool.and_eq_true, Bool.not_eq_true', decide_eq_true_eq] at hquote
      exact ⟨[], c :: cs, rfl, by simp, by simp, by simp [hquote, escapedAfter]⟩
    · obtain ⟨rfl, rfl⟩ := Prod.mk.inj h
      obtain ⟨body, rest, rfl, hlines, hescaped, hend⟩ := ih (n := _) rfl
      refine ⟨c :: body, rest, rfl, by simp [hlines, Ne.symm hfeed], fun before hbefore => ?_, ?_⟩
      · rcases before with _ | ⟨d, before⟩
        · obtain ⟨hc, -⟩ := List.cons_prefix_cons.1 hbefore
          simpa [escapedAfter, hc] using hquote
        · obtain ⟨rfl, hmore⟩ := List.cons_prefix_cons.1 hbefore
          exact hescaped before hmore
      · split_ifs at hend ⊢ with hclosed
        · exact ⟨congrArg (· + 1) hend.1, hend.2⟩
        · exact ⟨congrArg (· + 1) hend.1, hend.2⟩

/-- A string goes on to the first quote that is not escaped, or to the end of its line. -/
lemma isToken_of_stringSpan {quote : Char} {closed : Bool} {cs rest : List Char}
    (hquote : isQuote quote) (h : stringSpan quote false (cs ++ rest) = (closed, cs.length)) :
    IsToken .string closed (quote :: cs) rest := by
  obtain ⟨body, more, hcut, hlines, hescaped, hend⟩ := stringSpan_spec h
  have hbody : QuotesEscaped quote body := fun before hbefore =>
    (escapedAfter_iff before).1 (hescaped before hbefore)
  cases closed with
  | true =>
    obtain ⟨hlength, hnext, hends⟩ := hend
    obtain ⟨later, rfl⟩ := List.head?_eq_some_iff.1 hnext
    rw [List.append_cons] at hcut
    obtain ⟨rfl, rfl⟩ := List.append_inj hcut (by simpa using hlength)
    exact .closedString hquote hlines hbody (fun h => hends ((escapedAfter_iff body).2 h)) _
  | false =>
    obtain ⟨hlength, hnext⟩ := hend
    obtain ⟨rfl, rfl⟩ := List.append_inj hcut hlength
    exact .openString hquote hlines hbody hnext

/-! ### Lexemes are such pieces -/

lemma isToken_of_fits {kind : TokenKind} {closed : Bool} {chars rest : List Char}
    (h : Fits (.token kind closed) chars rest) : IsToken kind closed chars rest := by
  obtain ⟨c, cs, rfl, hmeasure⟩ := h
  obtain ⟨hfeed, hblank, hslash, hkind⟩ := measure_eq_token.1 hmeasure
  cases kind with
  | name =>
    obtain ⟨hstart, rfl, hspan⟩ := hkind
    obtain ⟨hgo, hends⟩ := span_append_eq_length.1 hspan
    exact .name hstart hgo hends
  | number =>
    obtain ⟨-, hstart, rfl, hspan⟩ := hkind
    obtain ⟨hgo, hends⟩ := span_append_eq_length.1 hspan
    exact .number hstart hgo hends
  | string =>
    obtain ⟨-, -, hquote, hspan⟩ := hkind
    exact isToken_of_stringSpan hquote hspan
  | punctuation =>
    obtain ⟨hname, hdigit, hquote, rfl, hlength⟩ := hkind
    obtain rfl := List.length_eq_zero_iff.1 hlength
    exact .mark hblank ⟨hname, hdigit, hquote⟩ hslash

lemma isSkipped_of_fits {kind : LexemeKind} {chars rest : List Char} (h : Fits kind chars rest)
    (hkind : ∀ token closed, kind ≠ .token token closed) : IsSkipped kind chars rest := by
  obtain ⟨c, cs, rfl, hmeasure⟩ := h
  unfold measure at hmeasure
  split_ifs at hmeasure with hfeed hblank hline hblock
  · obtain ⟨rfl, hlength⟩ := Prod.mk.inj hmeasure
    obtain rfl := List.length_eq_zero_iff.1 hlength.symm
    exact hfeed ▸ .lineFeed rest
  · obtain ⟨rfl, hlength⟩ := Prod.mk.inj hmeasure
    obtain rfl := List.length_eq_zero_iff.1 hlength.symm
    exact .blank hblank hfeed rest
  · obtain ⟨rfl, hspan⟩ := Prod.mk.inj hmeasure
    obtain ⟨hgo, hends⟩ := span_append_eq_length.1 hspan
    have hends : ∀ d ∈ rest.head?, d = '\n' := by simpa using hends
    obtain ⟨rfl, hnext⟩ := hline
    cases cs with
    | nil => exact absurd (hends _ hnext) (by decide)
    | cons d body =>
      obtain rfl : d = '/' := Option.some.inj hnext
      have hlines : '\n' ∉ body := fun hmem => by simpa using hgo '\n' (List.mem_cons_of_mem _ hmem)
      exact .lineComment hlines hends
  · obtain ⟨rfl, hnext⟩ := hblock
    obtain ⟨rfl, hlength⟩ := Prod.mk.inj hmeasure
    cases cs with
    | nil => simp at hlength
    | cons d body =>
      obtain rfl : d = '*' := Option.some.inj hnext
      exact isSkipped_of_blockSpan (Prod.ext rfl (by simpa using hlength))
  all_goals exact absurd (Prod.mk.inj hmeasure).1.symm (hkind _ _)

/-! ### Gaps -/

/-- What is skipped in front of the rest of a text, by the kinds of its pieces. -/
inductive AreSkipped : List LexemeKind → List Char → List Char → Prop where
  | nil (rest : List Char) : AreSkipped [] [] rest
  | cons {kind : LexemeKind} {kinds : List LexemeKind} {chars gap rest : List Char}
      (isSkipped : IsSkipped kind chars (gap ++ rest)) (areSkipped : AreSkipped kinds gap rest) :
      AreSkipped (kind :: kinds) (chars ++ gap) rest

/-- A token behind these pieces is set off: the last of them is a blank or a comment. -/
def SetOff (kinds : List LexemeKind) : Prop := ∃ kind ∈ kinds.getLast?, kind ≠ .lineFeed

/-- One error for each comment that is left open, at the end of a text. -/
def openComments (text : List Char) (kinds : List LexemeKind) : List LexicalError :=
  (kinds.filter (· = .blockComment false)).map fun _ => .openComment (byteLength text)

variable {kind : LexemeKind} {kinds : List LexemeKind} {chars gap rest : List Char}

lemma AreSkipped.concat (h : AreSkipped kinds gap (chars ++ rest))
    (hskipped : IsSkipped kind chars rest) :
    AreSkipped (kinds ++ [kind]) (gap ++ chars) rest := by
  generalize hmore : chars ++ rest = more at h
  induction h with
  | nil =>
    have hlast := AreSkipped.cons (by rwa [List.nil_append]) (AreSkipped.nil rest)
    rwa [List.append_nil] at hlast
  | @cons first kinds cs gap more hfirst _ ih =>
    subst hmore
    rw [List.append_assoc]
    refine .cons ?_ (ih rfl)
    rwa [List.append_assoc]

lemma openComments_append (text : List Char) (kinds more : List LexemeKind) :
    openComments text (kinds ++ more) = openComments text kinds ++ openComments text more := by
  rw [openComments, List.filter_append, List.map_append]
  rfl

/-- Only at the end of a text a comment is left open. -/
lemma IsSkipped.openComments_eq_nil (h : IsSkipped kind chars rest) (hrest : rest ≠ [])
    (text : List Char) : openComments text [kind] = [] := by
  cases h with
  | openComment => exact absurd rfl hrest
  | _ => rfl

lemma AreSkipped.openComments_eq_nil (h : AreSkipped kinds gap rest) (hrest : rest ≠ [])
    (text : List Char) : openComments text kinds = [] := by
  induction h with
  | nil => rfl
  | cons hfirst _ ih =>
    rw [← List.singleton_append, openComments_append, ih hrest,
      hfirst.openComments_eq_nil (List.append_ne_nil_of_right_ne_nil _ hrest)]
    rfl

lemma IsSkipped.setsOff_iff (h : IsSkipped kind chars rest) :
    TextPlace.setsOff kind ↔ kind ≠ .lineFeed := by
  cases h <;> simp [TextPlace.setsOff]

lemma not_setOff_nil : (false : Bool) ↔ SetOff [] := by simp [SetOff]

lemma setOff_concat (kinds : List LexemeKind) (kind : LexemeKind) :
    SetOff (kinds ++ [kind]) ↔ kind ≠ .lineFeed := by simp [SetOff]

end Lexeme

/-! ### A text as gaps and tokens -/

namespace Token

/-- The place of a token is told by the text before it: its length in bytes, the number of its line
feeds, and the length of what comes after the last of them. -/
structure StandsAfter (t : Token) (before : List Char) : Prop where
  offset : t.offset = byteLength before
  line : t.line = before.count '\n'
  column : t.column = byteLength (lastPiece '\n' before)

end Token

open Lexeme in
/-- What is left of a text, after some of it, falls into gaps and tokens, with an error for each
string and each comment that is left open. -/
inductive Partitioned : List Char → List Char → List Token → List LexicalError → Prop where
  | last {before gap : List Char} {kinds : List LexemeKind} (skipped : AreSkipped kinds gap []) :
      Partitioned before gap [] (openComments (before ++ gap) kinds)
  | token {before gap rest : List Char} {kinds : List LexemeKind} {t : Token} {closed : Bool}
      {ts : List Token} {errors : List LexicalError}
      (skipped : AreSkipped kinds gap (t.chars ++ rest))
      (isToken : IsToken t.kind closed t.chars rest) (stands : t.StandsAfter (before ++ gap))
      (spaced : t.spaced ↔ SetOff kinds)
      (later : Partitioned (before ++ gap ++ t.chars) rest ts errors) :
      Partitioned before (gap ++ (t.chars ++ rest)) (t :: ts)
        ((if closed then [] else [.openString t.offset]) ++ errors)

/-- The lexer goes on behind what is skipped, with an error if it is a comment that was left open. -/
lemma lexed_of_isSkipped {kind : LexemeKind} {chars rest : List Char}
    (h : Lexeme.IsSkipped kind chars rest) (before : List Char) (spaced : Bool) (ls : List Lexeme) :
    let place := TextPlace.ofBefore (before ++ chars) (TextPlace.setsOff kind)
    tokensFrom (.ofBefore before spaced) (⟨kind, chars⟩ :: ls) = tokensFrom place ls ∧
      lexicalErrorsFrom (.ofBefore before spaced) (⟨kind, chars⟩ :: ls) =
        Lexeme.openComments (before ++ chars) [kind] ++ lexicalErrorsFrom place ls := by
  intro place
  rw [tokensFrom, lexicalErrorsFrom, TextPlace.after_ofBefore]
  cases h <;> exact ⟨rfl, rfl⟩

/-- It goes on behind a token, with an error if it is a string that was left open. -/
lemma lexed_of_isToken {kind : TokenKind} {closed : Bool} {chars rest : List Char}
    (h : Lexeme.IsToken kind closed chars rest) (before : List Char) (spaced : Bool)
    (ls : List Lexeme) :
    let place := TextPlace.ofBefore (before ++ chars) false
    let t : Token := ⟨kind, .ofList chars, byteLength before, before.count '\n',
      byteLength (lastPiece '\n' before), spaced⟩
    tokensFrom (.ofBefore before spaced) (⟨.token kind closed, chars⟩ :: ls) =
        t :: tokensFrom place ls ∧
      lexicalErrorsFrom (.ofBefore before spaced) (⟨.token kind closed, chars⟩ :: ls) =
        (if closed then [] else [.openString t.offset]) ++ lexicalErrorsFrom place ls := by
  intro place t
  rw [tokensFrom, lexicalErrorsFrom, TextPlace.after_ofBefore]
  cases h <;> exact ⟨rfl, rfl⟩

/-- What the lexer says of lexemes, behind a gap and some text before it. -/
lemma partitioned_of_lexemes {ls : List Lexeme} (h : lexemes (ls.flatMap (·.chars)) = ls)
    (before : List Char) {gap : List Char} {kinds : List LexemeKind} {spaced : Bool}
    (hgap : Lexeme.AreSkipped kinds gap (ls.flatMap (·.chars)))
    (hspaced : spaced ↔ Lexeme.SetOff kinds) :
    Partitioned before (gap ++ ls.flatMap (·.chars))
      (tokensFrom (.ofBefore (before ++ gap) spaced) ls)
      (Lexeme.openComments (before ++ gap) kinds ++
        lexicalErrorsFrom (.ofBefore (before ++ gap) spaced) ls) := by
  induction ls generalizing before gap kinds spaced with
  | nil =>
    rw [List.flatMap_nil, tokensFrom, lexicalErrorsFrom, List.append_nil, List.append_nil]
    exact .last hgap
  | cons l ls ih =>
    obtain ⟨hfits, hls⟩ := Lexeme.fits_of_lexemes_eq h
    obtain ⟨kind, chars⟩ := l
    rw [List.flatMap_cons] at hgap ⊢
    dsimp only at hfits hgap ⊢
    have hclosed := hgap.openComments_eq_nil (List.append_ne_nil_of_left_ne_nil hfits.ne_nil _)
    rw [hclosed, List.nil_append]
    by_cases htoken : ∃ token closed, kind = .token token closed
    -- a token ends the gap in front of it, and a new one begins behind it
    · obtain ⟨token, closed, rfl⟩ := htoken
      have htoken := Lexeme.isToken_of_fits hfits
      obtain ⟨htokens, herrors⟩ := lexed_of_isToken htoken (before ++ gap) spaced ls
      rw [htokens, herrors]
      have hlater := ih hls (before ++ gap ++ chars) (.nil _) Lexeme.not_setOff_nil
      rw [List.append_nil, List.nil_append] at hlater
      generalize ht : Token.mk token (.ofList chars) _ _ _ spaced = t
      have hchars : t.chars = chars := by rw [← ht, Token.chars, String.toList_ofList]
      have hstands : t.StandsAfter (before ++ gap) := by rw [← ht]; exact ⟨rfl, rfl, rfl⟩
      have hkind : t.kind = token := by rw [← ht]
      have hset : t.spaced ↔ Lexeme.SetOff kinds := by rw [← ht]; exact hspaced
      rw [← hchars] at hgap htoken hlater ⊢
      exact .token hgap (hkind ▸ htoken) hstands hset hlater
    -- anything else makes the gap longer
    · have hskipped := Lexeme.isSkipped_of_fits hfits fun token closed hkind =>
        htoken ⟨token, closed, hkind⟩
      obtain ⟨htokens, herrors⟩ := lexed_of_isSkipped hskipped (before ++ gap) spaced ls
      have hlater := ih hls before (hgap.concat hskipped)
        (hskipped.setsOff_iff.trans (Lexeme.setOff_concat kinds kind).symm)
      rw [Lexeme.openComments_append, hclosed, List.nil_append, List.append_assoc,
        ← List.append_assoc before] at hlater
      rwa [htokens, herrors]

/-- The lexer cuts every text into gaps and tokens. -/
lemma partitioned_lexed (text : List Char) :
    Partitioned [] text (tokens text) (lexicalErrors text) := by
  have hlexemes : lexemes ((lexemes text).flatMap (·.chars)) = lexemes text := by
    rw [flatMap_chars_lexemes]
  have hpartitioned := partitioned_of_lexemes hlexemes [] (.nil _) Lexeme.not_setOff_nil
  rwa [flatMap_chars_lexemes] at hpartitioned

/-- A token of a text stands behind what is before it in the text. -/
lemma exists_standsAfter {text : List Char} {t : Token} (h : t ∈ tokens text) :
    ∃ before rest, text = before ++ (t.chars ++ rest) ∧ t.StandsAfter before ∧ t.Reads rest := by
  rw [← map_token_sites] at h
  obtain ⟨s, hs, rfl⟩ := List.mem_map.1 h
  have hsound := sound_of_mem_sites hs
  exact ⟨s.before, s.rest, (append_of_mem_sites hs).symm,
    ⟨hsound.offset, hsound.line, hsound.column⟩, hsound.fits⟩

/-- Tokens do not overlap. -/
lemma pairwise_offset_tokens (text : List Char) :
    (tokens text).Pairwise fun a b => a.offset + byteLength a.chars ≤ b.offset := by
  rw [← map_token_sites, List.pairwise_map]
  refine (pairwise_before_sites text).imp_of_mem fun {s s'} hs hs' h => ?_
  obtain ⟨between, hfollows, -⟩ := h
  rw [(sound_of_mem_sites hs).offset, (sound_of_mem_sites hs').offset, hfollows.before,
    byteLength_append, byteLength_append]
  exact Nat.le_add_right _ _

/-- The lexer runs through every text. Its tokens and errors partition the text; the tokens come one
after another, and each is a piece of one line that stands at its place. -/
theorem tokens_partition {text : List Char} (hsize : byteLength text < UInt32.size) :
    Checked.tokens? text = some (tokens text, lexicalErrors text) ∧
      Partitioned [] text (tokens text) (lexicalErrors text) ∧
      ((tokens text).Pairwise fun a b => a.offset + byteLength a.chars ≤ b.offset) ∧
      ∀ t ∈ tokens text, t.chars ≠ [] ∧ '\n' ∉ t.chars ∧
        Checked.slice? t.offset (t.offset + byteLength t.chars) text = some t.chars ∧
        ∃ before rest, text = before ++ (t.chars ++ rest) ∧ t.StandsAfter before := by
  refine ⟨Checked.tokens?_eq hsize, partitioned_lexed text, pairwise_offset_tokens text,
    fun t ht => ?_⟩
  obtain ⟨before, rest, htext, hstands, closed, hfits⟩ := exists_standsAfter ht
  refine ⟨hfits.ne_nil, hfits.notMem_lineFeed, ?_, before, rest, htext, hstands⟩
  rw [hstands.offset, htext]
  exact Checked.slice?_append before t.chars rest

theorem tokens_partition_open :
    let text := "é // x\n'a\\'b /*\nf/*".toList
    Checked.tokens? text = some
        ([⟨.punctuation, "é", 0, 0, 0, false⟩, ⟨.string, "'a\\'b /*", 8, 1, 0, false⟩,
          ⟨.name, "f", 17, 2, 0, false⟩],
          [.openString 8, .openComment 20]) ∧
      Partitioned [] text
        [⟨.punctuation, "é", 0, 0, 0, false⟩, ⟨.string, "'a\\'b /*", 8, 1, 0, false⟩,
          ⟨.name, "f", 17, 2, 0, false⟩]
        [.openString 8, .openComment 20] := by
  intro text
  have htokens : tokens text =
      [⟨.punctuation, "é", 0, 0, 0, false⟩, ⟨.string, "'a\\'b /*", 8, 1, 0, false⟩,
        ⟨.name, "f", 17, 2, 0, false⟩] := by decide +kernel
  have herrors : lexicalErrors text = [.openString 8, .openComment 20] := by decide +kernel
  have hpartition := @tokens_partition text (by decide +kernel)
  rw [htokens, herrors] at hpartition
  exact ⟨hpartition.1, hpartition.2.1⟩

end Provenance
