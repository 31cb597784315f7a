import Mathlib.Data.List.SplitBy
import Mathlib.Data.List.TakeWhile
import Mathlib.Tactic.Common
import Provenance.Intermediate
import Provenance.Proofs.ErasedSpans
import Provenance.Proofs.Nearest
import Provenance.Proofs.Sites

/-!
# Printed tokens are read back

The tokens of intermediate code are the kept tokens of its source, each with its kind and text, and
each stands where the map says. Tokens that are printed without a space between them stood so in
the source, or one of them is a mark that ends a statement or a type; either way they do not run
together. Tokens never move to the right and lines never move down, so all places fit in words.
-/

namespace Provenance

/-! ### Kept neighbours -/

namespace Token

/-- A token that is kept, and the next one that is kept: they stand one after the other, and on one
line the first is still read when only the gap of the second lies between them. -/
def Joins (a b : Token) : Prop :=
  a.Before b ∧ (a.line = b.line → ∀ cs, a.Reads (Printed.gap false b ++ b.chars ++ cs))

lemma Reads.ne_nil {t : Token} {rest : List Char} (h : t.Reads rest) : t.chars ≠ [] := by
  obtain ⟨closed, hfits⟩ := h
  exact hfits.ne_nil

/-- A line can end after any token. -/
lemma Reads.lineFeed {t : Token} {rest : List Char} (h : t.Reads rest) (cs : List Char) :
    t.Reads ('\n' :: cs) := by
  obtain ⟨closed, hfits⟩ := h
  obtain ⟨c, cs', hchars, -⟩ := hfits.head
  rw [hchars] at hfits
  exact ⟨closed, hchars ▸ hfits.before (Lexeme.mayFollow_lineFeed _ _ _)⟩

end Token

namespace Erasure

/-- A token that ends a type is a delimiter. -/
lemma delimits_of_endsType {t : Token} (h : endsType t) :
    ∃ d, t.chars = [d] ∧ Lexeme.Delimits d := by
  have htext : t.text ∈ ["=", ";", ",", "\x7b", ")", "]", "\x7d", ">"] := by
    simp only [endsType, isCloser, List.contains_iff_mem, Bool.or_eq_true, List.mem_cons,
      List.not_mem_nil, or_false] at h ⊢
    tauto
  simp only [List.mem_cons, List.not_mem_nil, or_false] at htext
  rcases htext with h | h | h | h | h | h | h | h <;> rw [Token.chars, h] <;>
    exact ⟨_, rfl, by decide, by decide, by decide⟩

/-- Anything may follow a token that ends a statement. -/
lemma mayFollow_of_endsStatement {t : Token} {closed : Bool} {c : Char} {cs rest : List Char}
    (h : endsStatement t) (hchars : t.chars = c :: cs)
    (hfits : Lexeme.Fits (.token t.kind closed) t.chars rest) (next : Option Char) :
    Lexeme.MayFollow t.kind closed c next := by
  have hc : c = ';' ∨ c = '\x7b' ∨ c = '\x7d' := by
    simp only [endsStatement, List.contains_iff_mem, List.mem_cons, List.not_mem_nil,
      or_false] at h
    rw [Token.chars] at hchars
    rcases h with h | h | h <;> rw [h] at hchars <;> simp_all [eq_comm]
  obtain ⟨c', cs', heq, hm⟩ := hfits
  obtain ⟨rfl, rfl⟩ := List.cons.inj (hchars.symm.trans heq)
  obtain ⟨-, -, -, hm⟩ := Lexeme.measure_eq_token.1 hm
  cases hkind : t.kind with
  | punctuation => rintro rfl; simp at hc
  | name => rw [hkind] at hm; rcases hc with rfl | rfl | rfl <;> exact absurd hm.1 (by decide)
  | number => rw [hkind] at hm; rcases hc with rfl | rfl | rfl <;> exact absurd hm.2.1 (by decide)
  | string =>
    rw [hkind] at hm; rcases hc with rfl | rfl | rfl <;> exact absurd hm.2.2.1 (by decide)

end Erasure

lemma Site.joins {s s' : Site} (hs : s.Sound) (hs' : s'.Sound) (h : s.Before s')
    (hnear : s.Next s' ∨ Erasure.endsStatement s.token ∨ Erasure.endsType s'.token) :
    s.token.Joins s'.token := by
  refine ⟨h.token hs hs', fun hline cs => ?_⟩
  obtain ⟨between, hfollows, hbetween, -⟩ := h.sameLine hs hs' hline
  obtain ⟨closed, hfits⟩ := hs.fits
  obtain ⟨c, cs', hchars, -⟩ := hfits.head
  obtain ⟨closed', hfits'⟩ := hs'.fits
  obtain ⟨d, ds, hchars', hd, -⟩ := hfits'.head
  have hfollow : Lexeme.MayFollow s.token.kind closed c s.rest.head? := by
    rw [hchars] at hfits
    exact hfits.mayFollow
  obtain ⟨e, hrest, he⟩ : ∃ e, s.rest.head? = some e ∧ e ≠ '\n' := by
    rw [hfollows.rest, hchars']
    cases between with
    | nil => exact ⟨d, rfl, hd⟩
    | cons e es => exact ⟨e, rfl, fun he => hbetween (he ▸ List.mem_cons_self)⟩
  suffices hnext : Lexeme.MayFollow s.token.kind closed c
      (Printed.gap false s'.token ++ s'.token.chars ++ cs).head? by
    rw [hchars] at hfits
    exact ⟨closed, hchars ▸ hfits.before hnext⟩
  rw [hrest] at hfollow
  by_cases hspaced : s'.token.spaced
  · simpa [Printed.gap, hspaced] using hfollow.delimiter he (d := ' ') (by decide)
  simp only [Printed.gap, hspaced, Bool.and_false, Bool.false_eq_true, if_false, List.nil_append]
  rcases hnear with ⟨between', hfollows', hgap⟩ | hends | hends
  · -- without a gap the two tokens stood next to each other
    obtain rfl : between = between' :=
      List.append_cancel_left (hfollows.before.symm.trans hfollows'.before)
    have hnil : between = [] := by
      by_contra hne
      rw [Site.Gap, if_neg hne] at hgap
      exact hgap.elim hspaced hbetween
    rw [hfollows.rest, hnil, hchars'] at hrest
    rw [hchars']
    exact Option.some.inj hrest ▸ hfollow
  · exact Erasure.mayFollow_of_endsStatement hends hchars hfits _
  · obtain ⟨d', hd', hdelimits⟩ := Erasure.delimits_of_endsType hends
    rw [hd']
    exact hfollow.delimiter he hdelimits

section

variable {text : List Char}

/-- The site of a token by its number. -/
lemma exists_site {t : Token} {i : Nat} (h : (tokens text)[i]? = some t) :
    ∃ s, (sites text)[i]? = some s ∧ s.token = t ∧ s.Sound := by
  rw [← map_token_sites, List.getElem?_map] at h
  obtain ⟨s, hs, rfl⟩ := Option.map_eq_some_iff.1 h
  exact ⟨s, hs, rfl, sound_of_mem_sites (List.mem_of_getElem? hs)⟩

lemma keptTokens_sublist (ts : List Token) : (keptTokens ts).Sublist ts := by
  have h := (List.filter_sublist (p := fun a : Token × Nat => isKept (erasedSpans ts) a.2)
    (l := ts.zipIdx)).map Prod.fst
  rwa [List.zipIdx_map_fst] at h

/-- Kept tokens come in the order of their numbers. -/
lemma pairwise_numberedKept (spans : List TokenSpan) (ts : List Token) :
    (Erasure.numberedKept spans 0 ts).Pairwise fun a b => a.2 < b.2 := by
  refine List.Pairwise.filter _ ?_
  rw [List.pairwise_iff_getElem]
  intro i j hi hj hij
  simpa using hij

lemma joins_of_neighbours (text : List Char) {a b : Token × Nat}
    (h : Erasure.Neighbours a b) (hlt : a.2 < b.2)
    (ha : (tokens text)[a.2]? = some a.1) (hb : (tokens text)[b.2]? = some b.1) :
    a.1.Joins b.1 := by
  obtain ⟨s, hs, hsa, hsound⟩ := exists_site ha
  obtain ⟨s', hs', hsb, hsound'⟩ := exists_site hb
  obtain ⟨hi, rfl⟩ := List.getElem?_eq_some_iff.1 hs
  obtain ⟨hj, rfl⟩ := List.getElem?_eq_some_iff.1 hs'
  have hbefore := List.pairwise_iff_getElem.1 (pairwise_before_sites text) _ _ hi hj hlt
  rw [← hsa, ← hsb]
  refine Site.joins hsound hsound' hbefore ?_
  rw [hsa, hsb]
  refine h.imp_left fun hnext => ?_
  have := List.isChain_iff_getElem.1 (isChain_next_sites text) a.2 (by omega)
  simpa only [hnext] using this

/-- The kept tokens of a text join. -/
lemma isChain_joins_keptTokens (text : List Char) :
    (keptTokens (tokens text)).IsChain Token.Joins := by
  rw [Erasure.keptTokens_eq, List.isChain_map, List.isChain_iff_getElem]
  intro i hi
  refine joins_of_neighbours text ?_ ?_ ?_ ?_
  · exact List.isChain_iff_getElem.1 (Erasure.isChain_spansFrom 0 true (tokens text)).1 i hi
  · exact List.pairwise_iff_getElem.1 (pairwise_numberedKept _ _) i (i + 1) (by omega) hi (by omega)
  · exact (Erasure.mem_numberedKept (List.getElem_mem (Nat.lt_of_succ_lt hi))).2
  · exact (Erasure.mem_numberedKept (List.getElem_mem hi)).2

lemma reads_of_mem_tokens {t : Token} (h : t ∈ tokens text) : ∃ rest, t.Reads rest := by
  rw [← map_token_sites] at h
  obtain ⟨s, hs, rfl⟩ := List.mem_map.1 h
  exact ⟨s.rest, (sound_of_mem_sites hs).fits⟩

end

/-! ### Reading what is printed -/

/-- A token as it is found in a text: its kind and text, its line and its column. -/
abbrev Reading := TokenKind × String × Nat × Nat

def Token.reading (t : Token) : Reading := (t.kind, t.text, t.line, t.column)

/-- What is found in a text that begins at a place. -/
def readings (line column : Nat) (text : List Char) : List Reading :=
  (tokensFrom ⟨0, line, column, false⟩ (lexemes text)).map Token.reading

lemma foldl_step_congr {p q : TextPlace} (hline : p.line = q.line) (hcolumn : p.column = q.column)
    (cs : List Char) :
    (cs.foldl TextPlace.step p).line = (cs.foldl TextPlace.step q).line ∧
      (cs.foldl TextPlace.step p).column = (cs.foldl TextPlace.step q).column := by
  induction cs generalizing p q with
  | nil => exact ⟨hline, hcolumn⟩
  | cons c cs ih =>
    apply ih <;> simp only [TextPlace.step] <;> split_ifs <;> simp [hline, hcolumn]

/-- What is found does not depend on what was counted besides lines and columns. -/
lemma map_reading_tokensFrom {p q : TextPlace} (hline : p.line = q.line)
    (hcolumn : p.column = q.column) (ls : List Lexeme) :
    (tokensFrom p ls).map Token.reading = (tokensFrom q ls).map Token.reading := by
  induction ls generalizing p q with
  | nil => rfl
  | cons l ls ih =>
    obtain ⟨hline', hcolumn'⟩ := foldl_step_congr hline hcolumn l.chars
    have := ih (p := p.after l) (q := q.after l) hline' hcolumn'
    simp only [tokensFrom]
    split <;> simp [this, Token.reading, hline, hcolumn]

lemma map_reading_eq (p : TextPlace) (cs : List Char) :
    (tokensFrom p (lexemes cs)).map Token.reading = readings p.line p.column cs := by
  rw [readings]
  apply map_reading_tokensFrom <;> rfl

lemma map_reading_tokens (text : List Char) :
    (tokens text).map Token.reading = readings 0 0 text := rfl

@[simp] lemma readings_nil (line column : Nat) : readings line column [] = [] := by
  simp [readings, lexemes, tokensFrom]

lemma readings_lineFeed (line column : Nat) (cs : List Char) :
    readings line column ('\n' :: cs) = readings (line + 1) 0 cs := by
  have h := (Lexeme.fits_lineFeed cs).lexemes
  rw [List.singleton_append] at h
  rw [readings, h]
  exact map_reading_eq ((⟨0, line, column, false⟩ : TextPlace).after ⟨.lineFeed, ['\n']⟩) cs

lemma readings_blank {c : Char} (hb : isBlank c) (hn : c ≠ '\n') (line column : Nat)
    (cs : List Char) :
    readings line column (c :: cs) = readings line (column + c.utf8Size) cs := by
  have h := (Lexeme.fits_blank hb hn cs).lexemes
  rw [List.singleton_append] at h
  rw [readings, h]
  simp only [tokensFrom, map_reading_eq]
  simp [TextPlace.after, TextPlace.step, hn]

/-- Spaces in front of a text move what is found in it. -/
lemma readings_blanks {bs : List Char} (h : ∀ c ∈ bs, isBlank c ∧ c ≠ '\n') (line column : Nat)
    (cs : List Char) :
    readings line column (bs ++ cs) = readings line (column + Text.byteLength bs) cs := by
  induction bs generalizing column with
  | nil => simp
  | cons b bs ih =>
    obtain ⟨⟨hb, hn⟩, hbs⟩ := List.forall_mem_cons.1 h
    rw [List.cons_append, readings_blank hb hn, ih hbs, Text.byteLength_cons, Nat.add_assoc]

lemma foldl_step_of_notMem {cs : List Char} (h : '\n' ∉ cs) (p : TextPlace) :
    (cs.foldl TextPlace.step p).line = p.line ∧
      (cs.foldl TextPlace.step p).column = p.column + Text.byteLength cs := by
  induction cs generalizing p with
  | nil => simp
  | cons c cs ih =>
    obtain ⟨hc, hcs⟩ := not_or.1 (mt List.mem_cons.2 h)
    obtain ⟨hline, hcolumn⟩ := ih hcs (p.step c)
    rw [List.foldl_cons, hline, hcolumn]
    simp [TextPlace.step, Ne.symm hc, Nat.add_assoc]

/-- A token in front of a text that leaves it alone is found as it is. -/
lemma readings_token {t : Token} {cs : List Char} (h : t.Reads cs) (line column : Nat) :
    readings line column (t.chars ++ cs) =
      (t.kind, t.text, line, column) ::
        readings line (column + Text.byteLength t.chars) cs := by
  obtain ⟨closed, hfits⟩ := h
  obtain ⟨hline, hcolumn⟩ := foldl_step_of_notMem hfits.notMem_lineFeed ⟨0, line, column, false⟩
  rw [readings, hfits.lexemes]
  simp only [tokensFrom, List.map_cons, map_reading_eq]
  simp [Token.reading, TextPlace.after, hline, hcolumn]

/-! ### Printed rows -/

/-- A printed token as it is to be found on a line. -/
def Printed.reading (line : Nat) (q : Printed) : Reading :=
  (q.token.kind, q.token.text, line, q.column)

/-- A row of tokens is found as it is printed. -/
lemma readings_lineChars {row : List Token} (hends : ∀ t ∈ row, ∀ cs, t.Reads ('\n' :: cs))
    (hjoins : row.IsChain fun a b => ∀ cs, a.Reads (Printed.gap false b ++ b.chars ++ cs))
    (leading : Bool) (line column : Nat) (cs : List Char) :
    readings line column (Printed.lineChars leading row ++ '\n' :: cs) =
      (Printed.lineFrom column leading row).map (Printed.reading line) ++
        readings (line + 1) 0 cs := by
  induction row generalizing leading column with
  | nil => exact readings_lineFeed line column cs
  | cons t row ih =>
    obtain ⟨hend, hends⟩ := List.forall_mem_cons.1 hends
    obtain ⟨hhead, hjoins⟩ := List.isChain_cons.1 hjoins
    have hgap : ∀ c ∈ Printed.gap leading t, isBlank c ∧ c ≠ '\n' := by
      intro c hc
      simp only [Printed.gap] at hc
      split_ifs at hc
      · rw [List.mem_singleton.1 hc]
        decide
      · simp at hc
    have hreads : t.Reads (Printed.lineChars false row ++ '\n' :: cs) := by
      cases row with
      | nil => exact hend cs
      | cons u row =>
        simpa [Printed.lineChars, Token.chars] using
          hhead u rfl (Printed.lineChars false row ++ '\n' :: cs)
    have hchars : Printed.lineChars leading (t :: row) ++ '\n' :: cs =
        Printed.gap leading t ++ (t.chars ++ (Printed.lineChars false row ++ '\n' :: cs)) := by
      simp [Printed.lineChars, Token.chars]
    rw [hchars, readings_blanks hgap, readings_token hreads, ih hends hjoins]
    rfl

namespace Intermediate

lemma blank_of_mem_rowIndent {sourceLines : List (List Char)} {row : List Token} {c : Char}
    (h : c ∈ rowIndent sourceLines row) : isBlank c ∧ c ≠ '\n' := by
  unfold rowIndent at h
  split at h
  · simp at h
  · have := List.mem_takeWhile_imp h
    simp only [Bool.or_eq_true, decide_eq_true_eq] at this
    rcases this with rfl | rfl <;> decide

/-- What is needed to read a row back. -/
def Readable (row : List Token) : Prop :=
  (∀ t ∈ row, ∀ cs, t.Reads ('\n' :: cs)) ∧
    row.IsChain fun a b => ∀ cs, a.Reads (Printed.gap false b ++ b.chars ++ cs)

/-- Rows are found line by line as they are printed. -/
lemma readings_rows {sourceLines : List (List Char)} {rows : List (List Token)}
    (h : ∀ row ∈ rows, Readable row) (line : Nat) :
    readings line 0 (rows.flatMap (rowChars sourceLines)) =
      (rows.zipIdx line).flatMap fun (row, i) =>
        (rowPrinted sourceLines row).map (Printed.reading i) := by
  induction rows generalizing line with
  | nil => simp
  | cons row rows ih =>
    obtain ⟨⟨hends, hjoins⟩, hrows⟩ := List.forall_mem_cons.1 h
    have hchars : (row :: rows).flatMap (rowChars sourceLines) =
        rowIndent sourceLines row ++
          (Printed.lineChars true row ++ '\n' :: rows.flatMap (rowChars sourceLines)) := by
      simp [rowChars]
    rw [hchars, readings_blanks fun c hc => blank_of_mem_rowIndent hc,
      readings_lineChars hends hjoins, ih hrows, Nat.zero_add]
    rfl

end Intermediate

/-! ### Rows of kept tokens -/

namespace Intermediate

section

variable {kept row : List Token}

lemma flatten_rows (kept : List Token) : (rows kept).flatten = kept := List.flatten_splitBy _ _

lemma nil_notMem_rows (kept : List Token) : [] ∉ rows kept := List.nil_notMem_splitBy _ _

/-- The tokens of a row stand on one line. -/
lemma line_eq_of_mem_rows (h : row ∈ rows kept) {a b : Token} (ha : a ∈ row) (hb : b ∈ row) :
    a.line = b.line := by
  have hchain := List.isChain_of_mem_splitBy h
  have : Trans (fun a b : Token => (a.line == b.line) = true)
      (fun a b : Token => (a.line == b.line) = true) fun a b => (a.line == b.line) = true :=
    ⟨fun hab hbc => by simp_all⟩
  rcases eq_or_of_pairwise (List.isChain_iff_pairwise.1 hchain) ha hb with rfl | h | h
  · rfl
  all_goals simp_all

lemma isChain_of_mem_rows {R : Token → Token → Prop} (hkept : kept.IsChain R)
    (h : row ∈ rows kept) : row.IsChain R := by
  rw [← flatten_rows kept] at hkept
  exact ((List.isChain_flatten (nil_notMem_rows kept)).1 hkept).1 row h

/-- A row lies above another one that is not empty. -/
def Above (row row' : List Token) : Prop :=
  row' ≠ [] ∧ ∀ a ∈ row, ∀ b ∈ row', a.line < b.line

instance : Trans Above Above Above where
  trans := by
    rintro row row' row'' ⟨hne, h⟩ ⟨hne', h'⟩
    obtain ⟨b, hb⟩ := List.exists_mem_of_ne_nil row' hne
    exact ⟨hne', fun a ha c hc => Nat.lt_trans (h a ha b hb) (h' b hb c hc)⟩

/-- Each row lies above the rows after it. -/
lemma pairwise_above_rows (hkept : kept.IsChain Token.Joins) : (rows kept).Pairwise Above := by
  have hnear := hkept
  rw [← flatten_rows kept, List.isChain_flatten (nil_notMem_rows kept)] at hnear
  refine List.isChain_iff_pairwise.1 (List.isChain_iff_getElem.2 fun i hi => ?_)
  have hjoins := List.isChain_iff_getElem.1 hnear.2 i hi
  obtain ⟨hne, hne', hbreak⟩ :=
    List.isChain_iff_getElem.1 (List.isChain_getLast_head_splitBy _ kept) i hi
  have hlast := List.getLast_mem hne
  have hfirst := List.head_mem hne'
  have hlt : ((rows kept)[i].getLast hne).line < ((rows kept)[i + 1].head hne').line := by
    have hbefore := (hjoins _ (List.getLast?_eq_some_getLast hne) _
      (List.head?_eq_some_head hne')).1
    rcases hbefore with hlt | ⟨hline, -⟩
    · exact hlt
    · exact absurd hline (by simpa using hbreak)
  refine ⟨hne', fun a ha b hb => ?_⟩
  rw [line_eq_of_mem_rows (List.getElem_mem _) ha hlast,
    line_eq_of_mem_rows (List.getElem_mem _) hb hfirst]
  exact hlt

/-- Lines never move down: before a row there are no more rows than lines. -/
lemma le_line_of_mem_zipIdx {rows : List (List Token)} {i n : Nat} (habove : rows.Pairwise Above)
    (hn : ∀ row ∈ rows, ∀ t ∈ row, n ≤ t.line) (hne : [] ∉ rows)
    (h : (row, i) ∈ rows.zipIdx n) {t : Token} (ht : t ∈ row) : i ≤ t.line := by
  induction rows generalizing n with
  | nil => simp at h
  | cons first rows ih =>
    obtain ⟨hfirst, hrows⟩ := List.forall_mem_cons.1 hn
    obtain ⟨habove, hpairwise⟩ := List.pairwise_cons.1 habove
    rw [List.zipIdx_cons, List.mem_cons] at h
    rcases h with h | h
    · obtain ⟨rfl, rfl⟩ := Prod.mk.inj h
      exact hfirst t ht
    · refine ih hpairwise (fun row' hrow' u hu => ?_) (fun hmem => hne (.tail _ hmem)) h
      obtain ⟨a, ha⟩ := List.exists_mem_of_ne_nil first fun hnil => hne (hnil ▸ List.mem_cons_self)
      have := hfirst a ha
      have := (habove row' hrow').2 a ha u hu
      omega

/-! ### Places of printed tokens -/

/-- Tokens that join on one line. -/
def JoinsOnLine (a b : Token) : Prop := a.Joins b ∧ a.line = b.line

lemma isChain_joinsOnLine (hkept : kept.IsChain Token.Joins) (h : row ∈ rows kept) :
    row.IsChain JoinsOnLine := by
  refine List.IsChain.imp_of_mem_imp (fun a b ha hb hjoins => ⟨hjoins, ?_⟩)
    (isChain_of_mem_rows hkept h)
  exact line_eq_of_mem_rows h ha hb

/-- Tokens never move to the right, if the first one of their line does not. -/
lemma column_le_of_mem_lineFrom {column : Nat} {leading : Bool} (hrow : row.IsChain JoinsOnLine)
    (hfirst : ∀ t ∈ row.head?, column + Text.byteLength (Printed.gap leading t) ≤ t.column)
    {q : Printed} (hq : q ∈ Printed.lineFrom column leading row) : q.column ≤ q.token.column := by
  induction row generalizing column leading with
  | nil => simp [Printed.lineFrom] at hq
  | cons t row ih =>
    obtain ⟨hnext, hrow⟩ := List.isChain_cons.1 hrow
    have hstart := hfirst t rfl
    rcases List.mem_cons.1 hq with rfl | hq
    · exact hstart
    · refine ih hrow (fun u hu => ?_) hq
      obtain ⟨⟨hbefore, -⟩, hline⟩ := hnext u hu
      have hgap : Text.byteLength (Printed.gap false u) = if u.spaced then 1 else 0 := by
        unfold Printed.gap
        cases u.spaced <;> rfl
      rcases hbefore with hlt | ⟨-, hle⟩
      · omega
      · rw [hgap]
        change _ ≤ _ at hstart
        rw [Token.chars] at hle
        omega

lemma map_token_lineFrom (column : Nat) (leading : Bool) (row : List Token) :
    (Printed.lineFrom column leading row).map Printed.token = row := by
  induction row generalizing column leading with
  | nil => rfl
  | cons t row ih => rw [Printed.lineFrom, List.map_cons, ih]

end

lemma byteLength_takeWhile_append_le {test : Char → Bool} {cs : List Char} {d : Char}
    (hd : test d = false) (ds : List Char) :
    Text.byteLength ((cs ++ d :: ds).takeWhile test) ≤ Text.byteLength cs := by
  induction cs with
  | nil => simp [hd]
  | cons c cs ih =>
    by_cases hc : test c
    · simpa [hc] using ih
    · simp [hc]

/-- A token begins after the indentation of its line. -/
lemma byteLength_indentOf_le {text : List Char} {t : Token} (h : t ∈ tokens text) :
    Text.byteLength (indentOf (Text.split '\n' text) t.line) ≤ t.column := by
  rw [← map_token_sites] at h
  obtain ⟨s, hs, rfl⟩ := List.mem_map.1 h
  have hsound := sound_of_mem_sites hs
  obtain ⟨closed, hfits⟩ := hsound.fits
  obtain ⟨c, cs, hchars, hn, hb⟩ := hfits.head
  have hindent : (decide (c = ' ') || decide (c = '\t')) = false := by
    by_contra hc
    simp only [Bool.not_eq_false, Bool.or_eq_true, decide_eq_true_eq] at hc
    rcases hc with rfl | rfl <;> exact absurd hb (by decide)
  have hline := Text.getElem?_split_append '\n' s.before (s.token.chars ++ s.rest)
  rw [append_of_mem_sites hs, ← hsound.line] at hline
  simp only [hchars, List.cons_append, Text.split_cons_of_ne hn, List.head_cons] at hline
  rw [indentOf, List.getD_eq_getElem?_getD, hline, Option.getD_some, hsound.column]
  exact byteLength_takeWhile_append_le hindent _

end Intermediate

end Provenance
