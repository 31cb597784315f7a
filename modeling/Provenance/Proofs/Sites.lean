import Mathlib.Tactic.Common
import Mathlib.Data.List.Chain
import Provenance.Proofs.Lexing

/-!
# Where tokens stand

The place of a token is counted while its text is read, character by character. Here it is said of
the text itself: a `Site` is a token with all that stands before and after it, its line is the
number of line feeds before it and its column the length of what stands before it on its line.
Sites come one after another, and only blanks, comments and line feeds lie between them.
-/

namespace Provenance

/-! ### Pieces of a text -/

namespace Text

lemma split_ne_nil (separator : Char) (cs : List Char) : split separator cs ≠ [] := by
  cases cs with
  | nil => simp [split]
  | cons c cs =>
    simp only [split]
    split_ifs
    · simp
    · split <;> simp

lemma split_cons_of_ne {separator c : Char} (h : c ≠ separator) (cs : List Char) :
    split separator (c :: cs) =
      (c :: (split separator cs).head (split_ne_nil separator cs)) ::
        (split separator cs).tail := by
  obtain ⟨piece, pieces, hcs⟩ := List.exists_cons_of_ne_nil (split_ne_nil separator cs)
  simp [split, h, hcs]

/-- The last piece of a text begins after the last separator. -/
def lastPiece (separator : Char) (cs : List Char) : List Char :=
  (split separator cs).getLast (split_ne_nil separator cs)

/-- The pieces of two texts put together: the last piece of one goes on with the first of the
other. -/
lemma split_append (separator : Char) (cs ds : List Char) :
    split separator (cs ++ ds) =
      (split separator cs).dropLast ++
        (lastPiece separator cs ++ (split separator ds).head (split_ne_nil separator ds)) ::
          (split separator ds).tail := by
  induction cs with
  | nil => simp [split, lastPiece]
  | cons c cs ih =>
    have hne := split_ne_nil separator cs
    simp only [List.cons_append, split, lastPiece] at ih ⊢
    split_ifs with hc
    · simp [ih, List.dropLast_cons_of_ne_nil hne, List.getLast_cons hne]
    · rw [ih]
      obtain ⟨piece, pieces, h⟩ := List.exists_cons_of_ne_nil hne
      cases pieces <;> simp [h]

lemma length_split (separator : Char) (cs : List Char) :
    (split separator cs).length = cs.count separator + 1 := by
  induction cs with
  | nil => simp [split]
  | cons c cs ih =>
    obtain ⟨piece, pieces, h⟩ := List.exists_cons_of_ne_nil (split_ne_nil separator cs)
    simp only [split]
    split_ifs with hc
    · simp [hc, ih]
    · simpa [h, List.count_cons_of_ne hc] using ih

lemma split_of_notMem {separator : Char} {cs : List Char} (h : separator ∉ cs) :
    split separator cs = [cs] := by
  induction cs with
  | nil => rfl
  | cons c cs ih =>
    obtain ⟨hc, hcs⟩ := not_or.1 (mt List.mem_cons.2 h)
    simp [split, Ne.symm hc, ih hcs]

/-- A text without separators belongs to the first piece of what comes after it. -/
lemma split_append_of_notMem {separator : Char} {cs : List Char} (h : separator ∉ cs)
    {ds piece : List Char} {pieces : List (List Char)}
    (hds : split separator ds = piece :: pieces) :
    split separator (cs ++ ds) = (cs ++ piece) :: pieces := by
  rw [split_append]
  simp [lastPiece, split_of_notMem h, hds]

lemma split_replicate_append (separator : Char) (k : Nat) (cs : List Char) :
    split separator (List.replicate k separator ++ cs) =
      List.replicate k [] ++ split separator cs := by
  induction k with
  | zero => rfl
  | succ k ih => simp [List.replicate_succ, split, ih]

lemma lastPiece_append_of_notMem {separator : Char} {cs ds : List Char} (h : separator ∉ ds) :
    lastPiece separator (cs ++ ds) = lastPiece separator cs ++ ds := by
  simp only [lastPiece, split_append, split_of_notMem h]
  simp

@[simp] lemma lastPiece_concat (separator : Char) (cs : List Char) :
    lastPiece separator (cs ++ [separator]) = [] := by
  simp [lastPiece, split_append, split]

/-- The line of a text that goes on after some of it. -/
lemma getElem?_split_append (separator : Char) (cs ds : List Char) :
    (split separator (cs ++ ds))[cs.count separator]? =
      some (lastPiece separator cs ++ (split separator ds).head (split_ne_nil separator ds)) := by
  rw [split_append, List.getElem?_append_right] <;> simp [length_split]

lemma byteLength_lastPiece_le (separator : Char) (cs : List Char) :
    byteLength (lastPiece separator cs) ≤ byteLength cs := by
  induction cs with
  | nil => simp [lastPiece, split]
  | cons c cs ih =>
    obtain ⟨piece, pieces, h⟩ := List.exists_cons_of_ne_nil (split_ne_nil separator cs)
    simp only [lastPiece, split] at ih ⊢
    split_ifs
    · simp only [h, List.getLast_cons_cons, byteLength_cons] at ih ⊢
      omega
    · cases pieces with
      | nil => simpa [h] using ih
      | cons piece' pieces =>
        simp only [h, List.getLast_cons_cons] at ih ⊢
        simp only [byteLength_cons]
        omega

lemma length_le_byteLength (cs : List Char) : cs.length ≤ byteLength cs := by
  induction cs with
  | nil => simp
  | cons c cs ih =>
    have := c.utf8Size_pos
    simp only [List.length_cons, byteLength_cons]
    omega

lemma byteLength_toList (s : String) : byteLength s.toList = s.utf8ByteSize := by
  have h : ∀ cs : List Char, (String.ofList cs).utf8ByteSize = byteLength cs := by
    intro cs
    induction cs with
    | nil => rfl
    | cons c cs ih =>
      rw [← List.singleton_append, String.ofList_append, String.utf8ByteSize_append, ih,
        ← String.singleton_eq_ofList, String.utf8ByteSize_singleton]
      rfl
  rw [← h, String.ofList_toList]

lemma byteLength_pos {cs : List Char} (h : cs ≠ []) : 0 < byteLength cs := by
  cases cs with
  | nil => exact absurd rfl h
  | cons c cs => exact Nat.add_pos_left c.utf8Size_pos _

end Text

/-! ### Places of a text -/

namespace TextPlace

/-- The place after some text. -/
def ofBefore (before : List Char) (spaced : Bool) : TextPlace :=
  ⟨Text.byteLength before, before.count '\n', Text.byteLength (Text.lastPiece '\n' before), spaced⟩

lemma step_ofBefore (before : List Char) (spaced : Bool) (c : Char) :
    (ofBefore before spaced).step c = ofBefore (before ++ [c]) spaced := by
  by_cases hc : c = '\n'
  · subst hc
    simp [step, ofBefore]
    rfl
  · have : '\n' ∉ [c] := by simpa using Ne.symm hc
    simp [step, ofBefore, hc, Text.lastPiece_append_of_notMem this]

lemma foldl_step_ofBefore (before cs : List Char) (spaced : Bool) :
    cs.foldl step (ofBefore before spaced) = ofBefore (before ++ cs) spaced := by
  induction cs generalizing before with
  | nil => simp
  | cons c cs ih => rw [List.foldl_cons, step_ofBefore, ih, List.append_assoc, List.singleton_append]

lemma after_ofBefore (before : List Char) (spaced : Bool) (l : Lexeme) :
    (ofBefore before spaced).after l = ofBefore (before ++ l.chars) (setsOff l.kind) := by
  simp only [after, foldl_step_ofBefore]
  cases l.kind <;> rfl

end TextPlace

/-! ### Sites -/

/-- A token with the text before it and the text after it. -/
structure Site where
  before : List Char
  token : Token
  rest : List Char

/-- The characters of a token. -/
def Token.chars (t : Token) : List Char := t.text.toList

@[simp] lemma Token.ofList_chars (t : Token) : String.ofList t.chars = t.text :=
  String.ofList_toList

/-- The tokens among lexemes that stand after some text, with their surroundings. -/
def sitesFrom (before : List Char) (spaced : Bool) : List Lexeme → List Site
  | [] => []
  | l :: ls =>
    let later := sitesFrom (before ++ l.chars) (TextPlace.setsOff l.kind) ls
    match l.kind with
    | .token kind _ =>
      let p := TextPlace.ofBefore before spaced
      ⟨before, ⟨kind, .ofList l.chars, p.offset, p.line, p.column, p.spaced⟩,
        ls.flatMap (·.chars)⟩ :: later
    | _ => later

/-- The tokens of a text with their surroundings. -/
def sites (text : List Char) : List Site := sitesFrom [] false (lexemes text)

lemma map_token_sitesFrom (before : List Char) (spaced : Bool) (ls : List Lexeme) :
    (sitesFrom before spaced ls).map Site.token =
      tokensFrom (.ofBefore before spaced) ls := by
  induction ls generalizing before spaced with
  | nil => rfl
  | cons l ls ih =>
    rw [sitesFrom, tokensFrom, TextPlace.after_ofBefore, ← ih]
    cases h : l.kind <;> rfl

/-- The tokens of a text are those of its sites. -/
lemma map_token_sites (text : List Char) : (sites text).map Site.token = tokens text :=
  map_token_sitesFrom [] false (lexemes text)

/-- A site is a cut of its text. -/
lemma append_of_mem_sitesFrom {before : List Char} {spaced : Bool} {ls : List Lexeme} {s : Site}
    (h : s ∈ sitesFrom before spaced ls) :
    s.before ++ (s.token.chars ++ s.rest) = before ++ ls.flatMap (·.chars) := by
  induction ls generalizing before spaced with
  | nil => simp [sitesFrom] at h
  | cons l ls ih =>
    simp only [sitesFrom] at h
    split at h
    · rcases List.mem_cons.1 h with rfl | h
      · simp [Token.chars]
      · simpa using ih h
    · simpa using ih h

lemma append_of_mem_sites {text : List Char} {s : Site} (h : s ∈ sites text) :
    s.before ++ (s.token.chars ++ s.rest) = text := by
  simpa [flatMap_chars_lexemes] using append_of_mem_sitesFrom h

namespace Site

/-- A token stands where the text before it ends, and it is one in front of the text after it. -/
structure Sound (s : Site) : Prop where
  fits : ∃ closed, Lexeme.Fits (.token s.token.kind closed) s.token.chars s.rest
  offset : s.token.offset = Text.byteLength s.before
  line : s.token.line = s.before.count '\n'
  column : s.token.column = Text.byteLength (Text.lastPiece '\n' s.before)

/-- A site comes after some text of which `between` does not belong to it, in front of `rest`. -/
structure Follows (before between rest : List Char) (s : Site) : Prop where
  before : s.before = before ++ between
  rest : rest = between ++ s.token.chars ++ s.rest

/-- What lies in front of a token shows whether the token is set off. Where there is nothing, it is
so as it was before; without blanks and comments there are only line feeds. -/
def Gap (spaced : Bool) (between : List Char) (t : Token) : Prop :=
  if between = [] then t.spaced = spaced else t.spaced = true ∨ '\n' ∈ between

/-- The second site is the next one after the first. -/
def Next (s s' : Site) : Prop :=
  ∃ between, Follows (s.before ++ s.token.chars) between s.rest s' ∧ Gap false between s'.token

/-- What comes after a site and its gap comes before all later sites. -/
lemma Follows.of_between {before between rest : List Char} {s : Site} {cs : List Char}
    (h : Follows (before ++ cs) between rest s) : Follows before (cs ++ between) (cs ++ rest) s :=
  ⟨by rw [h.before, List.append_assoc], by simp [h.rest]⟩

end Site

/-- Where the sites among lexemes stand, when the lexemes are those of a text. The first one is
told apart: what lies in front of it may have begun earlier. -/
lemma sitesFrom_spec {ls : List Lexeme} (h : lexemes (ls.flatMap (·.chars)) = ls)
    (before : List Char) (spaced : Bool) :
    (∀ s ∈ sitesFrom before spaced ls, s.Sound) ∧
      (sitesFrom before spaced ls).IsChain Site.Next ∧
      ∀ s ∈ (sitesFrom before spaced ls).head?, ∃ between,
        Site.Follows before between (ls.flatMap (·.chars)) s ∧ Site.Gap spaced between s.token := by
  induction ls generalizing before spaced with
  | nil => simp [sitesFrom]
  | cons l ls ih =>
    obtain ⟨hfits, hls⟩ := Lexeme.fits_of_lexemes_eq h
    obtain ⟨hsound, hchain, hhead⟩ := ih hls (before ++ l.chars) (TextPlace.setsOff l.kind)
    by_cases htoken : ∃ kind closed, l.kind = .token kind closed
    · obtain ⟨kind, closed, hkind⟩ := htoken
      rw [hkind] at hfits
      simp only [sitesFrom, hkind, List.forall_mem_cons, List.isChain_cons, List.head?_cons,
        Option.mem_some_iff, forall_eq']
      refine ⟨⟨⟨⟨closed, ?_⟩, rfl, rfl, rfl⟩, ?_⟩, ⟨?_, ?_⟩, [], ⟨?_, ?_⟩, ?_⟩
      · simpa [Token.chars] using hfits
      · simpa [hkind] using hsound
      · intro s hs
        rw [hkind] at hhead
        simpa [Site.Next, Token.chars, TextPlace.setsOff] using hhead s hs
      · simpa [hkind] using hchain
      · simp
      · simp [Token.chars]
      · simp [Site.Gap, TextPlace.ofBefore]
    · have hsites : sitesFrom before spaced (l :: ls) =
          sitesFrom (before ++ l.chars) (TextPlace.setsOff l.kind) ls := by
        rw [sitesFrom]
        split <;> simp_all
      rw [hsites]
      refine ⟨hsound, hchain, fun s hs => ?_⟩
      obtain ⟨between, hfollows, hgap⟩ := hhead s hs
      refine ⟨l.chars ++ between, by simpa using hfollows.of_between, ?_⟩
      rw [Site.Gap, if_neg (by simp [hfits.ne_nil]), List.mem_append]
      -- only a line feed sets nothing off, and then it lies in the gap
      by_cases hfeed : l.kind = .lineFeed
      · rw [hfeed] at hfits
        exact .inr (.inl (by simp [hfits.eq_lineFeed]))
      · have hsets : TextPlace.setsOff l.kind = true := by
          cases hkind : l.kind <;> simp_all [TextPlace.setsOff]
        rw [Site.Gap, hsets] at hgap
        split_ifs at hgap with hnil
        · exact .inl hgap
        · exact hgap.imp_right .inr

/-! ### The tokens of a text -/

section

variable {text : List Char} {s s' : Site}

lemma sound_of_mem_sites (h : s ∈ sites text) : s.Sound :=
  (sitesFrom_spec (by rw [flatMap_chars_lexemes]) [] false).1 s h

lemma isChain_next_sites (text : List Char) : (sites text).IsChain Site.Next :=
  (sitesFrom_spec (by rw [flatMap_chars_lexemes]) [] false).2.1

namespace Site

/-- A site comes before another one of the same text. -/
def Before (s s' : Site) : Prop :=
  ∃ between, Follows (s.before ++ s.token.chars) between s.rest s' ∧
    (s'.token.spaced → between ≠ [])

lemma Next.before (h : s.Next s') : s.Before s' := by
  obtain ⟨between, hfollows, hgap⟩ := h
  refine ⟨between, hfollows, fun hspaced hnil => ?_⟩
  rw [Gap, if_pos hnil, hspaced] at hgap
  exact absurd hgap (by decide)

instance : Trans Before Before Before where
  trans := by
    rintro s s' s'' ⟨between, h, -⟩ ⟨between', h', hspaced⟩
    refine ⟨between ++ s'.token.chars ++ between', ⟨?_, ?_⟩, fun hs hnil => hspaced hs ?_⟩
    · rw [h'.before, h.before]
      simp
    · rw [h.rest, h'.rest]
      simp
    · simpa using (List.append_eq_nil_iff.1 hnil).2

/-- A site that comes later on the same line stands to the right, with no line feed between. -/
lemma Before.sameLine (h : s.Before s') (hs : s.Sound) (hs' : s'.Sound)
    (hline : s.token.line = s'.token.line) :
    ∃ between, Follows (s.before ++ s.token.chars) between s.rest s' ∧ '\n' ∉ between ∧
      (s'.token.spaced → between ≠ []) ∧
      s'.token.column =
        s.token.column + Text.byteLength s.token.chars + Text.byteLength between := by
  obtain ⟨between, hfollows, hspaced⟩ := h
  obtain ⟨closed, hfits⟩ := hs.fits
  have hchars := hfits.notMem_lineFeed
  have hbetween : '\n' ∉ between := by
    rw [hs.line, hs'.line, hfollows.before, List.count_append, List.count_append] at hline
    exact List.count_eq_zero.1 (by omega)
  refine ⟨between, hfollows, hbetween, hspaced, ?_⟩
  rw [hs.column, hs'.column, hfollows.before, Text.lastPiece_append_of_notMem hbetween,
    Text.lastPiece_append_of_notMem hchars, Text.byteLength_append, Text.byteLength_append]

end Site

/-- Tokens are within the size of their text. -/
lemma place_le_of_mem_tokens {t : Token} (h : t ∈ tokens text) :
    t.line ≤ Text.byteLength text ∧ t.column + Text.byteLength t.chars ≤ Text.byteLength text := by
  rw [← map_token_sites] at h
  obtain ⟨s, hs, rfl⟩ := List.mem_map.1 h
  have hsound := sound_of_mem_sites hs
  have heq := congrArg Text.byteLength (append_of_mem_sites hs)
  rw [Text.byteLength_append, Text.byteLength_append] at heq
  rw [hsound.line, hsound.column]
  have hcount := s.before.count_le_length (a := '\n')
  have hlength := Text.length_le_byteLength s.before
  have hlast := Text.byteLength_lastPiece_le '\n' s.before
  omega

lemma pairwise_before_sites (text : List Char) : (sites text).Pairwise Site.Before :=
  List.isChain_iff_pairwise.1 ((isChain_next_sites text).imp fun _ _ h => h.before)

end

namespace Token

/-- A token stands before another one: on an earlier line, or to its left with room for the space
that sets the other one off. -/
def Before (a b : Token) : Prop :=
  a.line < b.line ∨ a.line = b.line ∧
    a.column + Text.byteLength a.chars + (if b.spaced then 1 else 0) ≤ b.column

/-- The token would be read as it is in front of a text. -/
def Reads (t : Token) (rest : List Char) : Prop :=
  ∃ closed, Lexeme.Fits (.token t.kind closed) t.chars rest

/-- The token is no string that was left open. -/
def Closed (t : Token) : Prop := ∃ rest, Lexeme.Fits (.token t.kind true) t.chars rest

end Token

lemma closed_of_lexicalErrorsFrom {ls : List Lexeme} (hls : lexemes (ls.flatMap (·.chars)) = ls)
    {p : TextPlace} (h : lexicalErrorsFrom p ls = []) {t : Token} (ht : t ∈ tokensFrom p ls) :
    t.Closed := by
  induction ls generalizing p with
  | nil => simp [tokensFrom] at ht
  | cons l ls ih =>
    obtain ⟨hfits, hls⟩ := Lexeme.fits_of_lexemes_eq hls
    have herrors : lexicalErrorsFrom (p.after l) ls = [] := by
      rw [lexicalErrorsFrom] at h
      split at h
      · simp at h
      · simp at h
      · exact h
    simp only [tokensFrom] at ht
    split at ht
    · next kind closed hkind =>
      rcases List.mem_cons.1 ht with rfl | ht
      · rw [hkind] at hfits
        refine ⟨ls.flatMap (·.chars), ?_⟩
        have hclosed : closed = true := by
          by_cases hstring : kind = .string
          · subst hstring
            cases closed with
            | true => rfl
            | false => simp [lexicalErrorsFrom, hkind] at h
          · exact hfits.closed hstring
        simpa [Token.chars, ← hclosed] using hfits
      · exact ih hls herrors ht
    · exact ih hls herrors ht

/-- Without lexical errors no string is left open. -/
lemma closed_of_lexicalErrors {text : List Char} (h : lexicalErrors text = []) {t : Token}
    (ht : t ∈ tokens text) : t.Closed :=
  closed_of_lexicalErrorsFrom (by rw [flatMap_chars_lexemes]) h ht

lemma Site.Before.token {s s' : Site} (h : s.Before s') (hs : s.Sound) (hs' : s'.Sound) :
    s.token.Before s'.token := by
  have hle : s.token.line ≤ s'.token.line := by
    obtain ⟨between, hfollows, -⟩ := h
    rw [hs.line, hs'.line, hfollows.before, List.count_append, List.count_append]
    omega
  rcases Nat.lt_or_eq_of_le hle with hlt | hline
  · exact .inl hlt
  · obtain ⟨between, -, -, hspaced, hcolumn⟩ := h.sameLine hs hs' hline
    refine .inr ⟨hline, ?_⟩
    split_ifs with hsp
    · have := Text.byteLength_pos (hspaced hsp)
      omega
    · omega

end Provenance
