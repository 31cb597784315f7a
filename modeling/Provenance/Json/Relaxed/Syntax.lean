import Provenance.Json.Number
import Provenance.Json.Reader
import Provenance.Text.CharClass
import Provenance.Text.Hex

/-!
# The syntax of relaxed JSON

Configuration files are written in JSON5: with comments, trailing commas, names as keys, either
kind of quote, and more ways to write numbers. `Relaxed.ofText?` reads the form of a document; the
values of its strings and numbers are found afterwards, since a document with a fault in its form
is reported as such whatever its values are.
-/

namespace Provenance

/-- A piece of a string or a name, as written. -/
inductive StringPiece where
  | literal (c : Char)
  /-- A backslash and a character that is not one of the escapes below. -/
  | escape (c : Char)
  | nul
  | byte (digits : List Char)
  | unit (digits : List Char)
deriving DecidableEq, Repr

/-- The sign written before a number. -/
inductive NumberSign where
  | plus
  | minus
deriving DecidableEq, Repr

/-- A number without its sign, as written. -/
inductive NumberForm where
  | hex (digits : List Char)
  | decimal (whole : List Char) (fraction : Option (List Char)) (exponent : Option (Bool × List Char))
  | infinity
  | nan
deriving DecidableEq, Repr

/-- The form of a document. -/
inductive Relaxed where
  | null
  | bool (b : Bool)
  | number (sign : Option NumberSign) (form : NumberForm)
  | string (pieces : List StringPiece)
  | array (items : List Relaxed)
  | object (fields : List (List StringPiece × Relaxed))
deriving Inhabited

namespace Relaxed

open Json (Reading)

/-! ### Blanks and comments -/

def isLineEnd (c : Char) : Bool := c = '\n' || c = '\r' || c = '\u2028' || c = '\u2029'

def isSpace (c : Char) : Bool :=
  c = '\t' || c = '\x0b' || c = '\x0c' || c = '\ufeff' || isLineEnd c ||
    CharClass.spaceSeparator.contains c

/-- The text after the end of a block comment. -/
def afterBlock : List Char → Option (List Char)
  | [] => none
  | '*' :: '/' :: rest => some rest
  | _ :: rest => afterBlock rest

theorem length_lt_of_afterBlock {s r : List Char} (h : afterBlock s = some r) :
    r.length < s.length := by
  fun_induction afterBlock s <;> grind

/-- The text after blanks and comments. A block comment that does not end is no comment. -/
def skip (s : List Char) : List Char :=
  match s with
  | [] => []
  | c :: cs =>
    if isSpace c then skip cs
    else if c = '/' then
      match cs with
      | '/' :: line => skip (line.dropWhile fun c => !isLineEnd c)
      | '*' :: block =>
        match _h : afterBlock block with
        | some rest => skip rest
        | none => s
      | _ => s
    else s
termination_by s.length
decreasing_by
  · simp
  · have := (List.dropWhile_suffix (l := line) fun c => !isLineEnd c).length_le
    simp only [List.length_cons]
    omega
  · have := length_lt_of_afterBlock _h
    simp only [List.length_cons]
    omega

theorem length_skip_le (s : List Char) : (skip s).length ≤ s.length := by
  fun_induction skip s with
  | case1 => simp
  | case2 c cs _ ih => simp only [List.length_cons]; omega
  | case3 line _ ih =>
    have := (List.dropWhile_suffix (l := line) fun c => !isLineEnd c).length_le
    simp only [List.length_cons]
    omega
  | case4 block rest h _ ih =>
    have := length_lt_of_afterBlock h
    simp only [List.length_cons]
    omega
  | case5 => simp
  | case6 => simp
  | case7 => simp

/-! ### Strings -/

/-- The rest of a string up to its closing quote, and the text after it. -/
def pieces (quote : Char) : List Char → Option (List StringPiece × List Char)
  | [] => none
  | '\\' :: '\r' :: '\n' :: rest => pieces quote rest
  | '\\' :: 'x' :: a :: b :: rest =>
    if Hex.isDigit a && Hex.isDigit b then prepend (.byte [a, b]) (pieces quote rest) else none
  | '\\' :: 'u' :: a :: b :: c :: d :: rest =>
    if [a, b, c, d].all Hex.isDigit then prepend (.unit [a, b, c, d]) (pieces quote rest) else none
  | '\\' :: c :: rest =>
    if isLineEnd c then pieces quote rest
    else if c = '0' then prepend .nul (pieces quote rest)
    else if Json.Number.isDigit c || c = 'x' || c = 'u' then none
    else prepend (.escape c) (pieces quote rest)
  | c :: rest =>
    if c = quote then some ([], rest)
    else if c = '\\' || isLineEnd c then none
    else prepend (.literal c) (pieces quote rest)
where
  prepend (p : StringPiece) : Option (List StringPiece × List Char) →
      Option (List StringPiece × List Char)
    | none => none
    | some (ps, rest) => some (p :: ps, rest)

theorem pieces.prepend_eq_some {p : StringPiece} {o : Option (List StringPiece × List Char)}
    {ps : List StringPiece} {rest : List Char} (h : pieces.prepend p o = some (ps, rest)) :
    ∃ ps', o = some (ps', rest) ∧ ps = p :: ps' := by
  cases o with
  | none => simp [prepend] at h
  | some q =>
    obtain ⟨ps', rest'⟩ := q
    simp only [prepend, Option.some.injEq, Prod.mk.injEq] at h
    exact ⟨ps', by rw [h.2], h.1.symm⟩

theorem length_lt_of_pieces {quote : Char} {s rest : List Char} {ps : List StringPiece}
    (h : pieces quote s = some (ps, rest)) : rest.length < s.length := by
  fun_induction pieces quote s generalizing ps <;>
    simp only [List.length_cons, List.length_nil] <;>
    grind [→ pieces.prepend_eq_some]

/-- A string in either kind of quotes. -/
def string? (s : List Char) : Option (Reading (List StringPiece) s) :=
  match s with
  | [] => none
  | quote :: r =>
    if quote = '"' ∨ quote = '\x27' then
      match h : pieces quote r with
      | some (ps, rest) =>
        some ⟨ps, rest, by have := length_lt_of_pieces h; simp only [List.length_cons]; omega⟩
      | none => none
    else none

/-! ### Names -/

def isNameStart (c : Char) : Bool := c = '$' || c = '_' || CharClass.letter.contains c

def isNamePart (c : Char) : Bool :=
  isNameStart c || c = '\u200c' || c = '\u200d' || CharClass.nameContinuation.contains c

/-- The first piece of a name whose literal characters pass a test, and the text after it. -/
def namePiece? (test : Char → Bool) (s : List Char) : Option (Reading StringPiece s) :=
  match s with
  | '\\' :: 'u' :: a :: b :: c :: d :: rest =>
    if [a, b, c, d].all Hex.isDigit then
      some ⟨.unit [a, b, c, d], rest, by simp only [List.length_cons]; omega⟩
    else none
  | c :: rest => if test c then some ⟨.literal c, rest, by simp⟩ else none
  | [] => none

/-- The pieces that go on with a name, and the text after them. -/
def nameRest (s : List Char) : List StringPiece × { r : List Char // r.length ≤ s.length } :=
  match namePiece? isNamePart s with
  | none => ([], ⟨s, Nat.le_refl _⟩)
  | some ⟨p, rest, h⟩ =>
    let (ps, ⟨r, hr⟩) := nameRest rest
    (p :: ps, ⟨r, by omega⟩)
termination_by s.length

/-- A key: a name or a string. -/
def key? (s : List Char) : Option (Reading (List StringPiece) s) :=
  match namePiece? isNameStart s with
  | some ⟨p, rest, h⟩ =>
    let (ps, ⟨r, hr⟩) := nameRest rest
    some ⟨p :: ps, r, by omega⟩
  | none => string? s

/-! ### Numbers -/

/-- The digits before a point: a zero alone, or digits that begin with another. -/
def whole (s : List Char) : List Char × List Char :=
  match s with
  | '0' :: rest => (['0'], rest)
  | s => (s.takeWhile Json.Number.isDigit, s.dropWhile Json.Number.isDigit)

theorem length_whole (s : List Char) : (whole s).1.length + (whole s).2.length = s.length := by
  unfold whole
  split
  · simp [Nat.add_comm]
  · rw [← List.length_append, List.takeWhile_append_dropWhile]

/-- An exponent, if a whole one stands here. -/
def exponent (s : List Char) : Option (Bool × List Char) × List Char :=
  match Json.Number.exponent? s with
  | some found => found
  | none => (none, s)

theorem length_exponent_le (s : List Char) : (exponent s).2.length ≤ s.length := by
  unfold exponent
  split
  · next h => exact Json.Number.length_le_of_exponent? h
  · exact Nat.le_refl _

/-- A number without sign and without hexadecimal digits. -/
def decimal? (s : List Char) : Option (NumberForm × List Char) :=
  match whole s with
  | (ds, '.' :: t) =>
    let fs := t.takeWhile Json.Number.isDigit
    let after := exponent (t.dropWhile Json.Number.isDigit)
    if ds.isEmpty && fs.isEmpty then none else some (.decimal ds (some fs) after.1, after.2)
  | (ds, r) =>
    if ds.isEmpty then none else some (.decimal ds none (exponent r).1, (exponent r).2)

theorem length_lt_of_decimal? {s rest : List Char} {form : NumberForm}
    (h : decimal? s = some (form, rest)) : rest.length < s.length := by
  have hs := length_whole s
  unfold decimal? at h
  split at h
  · next ds t hw =>
    have ht := (List.dropWhile_suffix (l := t) Json.Number.isDigit).length_le
    have he := length_exponent_le (t.dropWhile Json.Number.isDigit)
    rw [hw, List.length_cons] at hs
    simp only at h
    split at h
    · simp at h
    · simp only [Option.some.injEq, Prod.mk.injEq] at h
      rw [← h.2]
      omega
  · next ds r _ hw =>
    have he := length_exponent_le r
    rw [hw] at hs
    split at h
    · simp at h
    · next hd =>
      have := List.length_pos_iff.2 fun hn => hd (List.isEmpty_iff.2 hn)
      simp only [Option.some.injEq, Prod.mk.injEq] at h
      rw [← h.2]
      simp only at hs
      omega

/-- A number without sign. -/
def form? (s : List Char) : Option (NumberForm × List Char) :=
  match s with
  | '0' :: x :: c :: rest =>
    if (x = 'x' ∨ x = 'X') ∧ Hex.isDigit c then
      some (.hex (c :: rest.takeWhile Hex.isDigit), rest.dropWhile Hex.isDigit)
    else decimal? s
  | 'I' :: 'n' :: 'f' :: 'i' :: 'n' :: 'i' :: 't' :: 'y' :: rest => some (.infinity, rest)
  | 'N' :: 'a' :: 'N' :: rest => some (.nan, rest)
  | s => decimal? s

/-- A number has at least one character. -/
theorem length_lt_of_form? {s rest : List Char} {form : NumberForm}
    (h : form? s = some (form, rest)) : rest.length < s.length := by
  unfold form? at h
  split at h
  · next x c r =>
    split at h
    · have := (List.dropWhile_suffix (l := r) Hex.isDigit).length_le
      simp only [Option.some.injEq, Prod.mk.injEq] at h
      simp only [← h.2, List.length_cons]
      omega
    · exact length_lt_of_decimal? h
  · simp only [Option.some.injEq, Prod.mk.injEq] at h
    simp only [h.2, List.length_cons]
    omega
  · simp only [Option.some.injEq, Prod.mk.injEq] at h
    simp only [h.2, List.length_cons]
    omega
  · exact length_lt_of_decimal? h

/-- The sign before a number, if one stands here, and the rest. -/
def numberSign (s : List Char) : Option NumberSign × List Char :=
  match s with
  | '+' :: r => (some .plus, r)
  | '-' :: r => (some .minus, r)
  | s => (none, s)

theorem length_numberSign_le (s : List Char) : (numberSign s).2.length ≤ s.length := by
  unfold numberSign
  split <;> simp

/-- A number with its sign, if one stands here. -/
def number? (s : List Char) : Option (Reading Relaxed s) :=
  match h : form? (numberSign s).2 with
  | none => none
  | some (form, rest) =>
    some ⟨.number (numberSign s).1 form, rest,
      Nat.lt_of_lt_of_le (length_lt_of_form? h) (length_numberSign_le s)⟩

/-! ### Values -/

mutual
/-- The value that starts the text. -/
def value? (s : List Char) : Option (Reading Relaxed s) :=
  match s with
  | 'n' :: 'u' :: 'l' :: 'l' :: rest => some ⟨.null, rest, by simp; omega⟩
  | 't' :: 'r' :: 'u' :: 'e' :: rest => some ⟨.bool true, rest, by simp; omega⟩
  | 'f' :: 'a' :: 'l' :: 's' :: 'e' :: rest => some ⟨.bool false, rest, by simp; omega⟩
  | '[' :: r =>
    have hr := length_skip_le r
    (items? (skip r)).map fun ⟨vs, rest, h⟩ =>
      ⟨.array vs, rest, by simp only [List.length_cons]; omega⟩
  | '{' :: r =>
    have hr := length_skip_le r
    (fields? (skip r)).map fun ⟨fs, rest, h⟩ =>
      ⟨.object fs, rest, by simp only [List.length_cons]; omega⟩
  | s =>
    match string? s with
    | some ⟨ps, rest, h⟩ => some ⟨.string ps, rest, h⟩
    | none => number? s
termination_by 2 * s.length
decreasing_by all_goals (simp_wf; omega)

/-- The elements up to the closing bracket; a comma may follow the last. -/
def items? (s : List Char) : Option (Reading (List Relaxed) s) :=
  match s with
  | ']' :: rest => some ⟨[], rest, by simp⟩
  | s =>
    match value? s with
    | none => none
    | some ⟨v, r, h⟩ =>
      have hr := length_skip_le r
      match hs : skip r with
      | ']' :: rest => some ⟨[v], rest, by simp [hs] at hr; omega⟩
      | ',' :: t =>
        have ht := length_skip_le t
        (items? (skip t)).map fun ⟨vs, rest, h'⟩ =>
          ⟨v :: vs, rest, by simp [hs] at hr; omega⟩
      | _ => none
termination_by 2 * s.length + 1
decreasing_by
  all_goals (try simp [hs] at hr)
  all_goals omega

/-- The fields up to the closing brace; a comma may follow the last. -/
def fields? (s : List Char) : Option (Reading (List (List StringPiece × Relaxed)) s) :=
  match s with
  | '}' :: rest => some ⟨[], rest, by simp⟩
  | s =>
    match key? s with
    | none => none
    | some ⟨key, r, hk⟩ =>
      have hr := length_skip_le r
      match hs : skip r with
      | ':' :: t =>
        have ht := length_skip_le t
        match value? (skip t) with
        | none => none
        | some ⟨v, q, hv⟩ =>
          have hq := length_skip_le q
          match hs' : skip q with
          | '}' :: rest => some ⟨[(key, v)], rest, by simp [hs, hs'] at hr hq ⊢; omega⟩
          | ',' :: u =>
            have hu := length_skip_le u
            (fields? (skip u)).map fun ⟨fs, rest, h⟩ =>
              ⟨(key, v) :: fs, rest, by simp [hs, hs'] at hr hq ⊢; omega⟩
          | _ => none
      | _ => none
termination_by 2 * s.length + 1
decreasing_by
  all_goals (try simp [hs] at hr)
  all_goals (try simp [hs'] at hq)
  all_goals omega
end

/-- The form of a text that is one document. -/
def ofText? (text : String) : Option Relaxed :=
  match value? (skip text.toList) with
  | none => none
  | some ⟨v, rest, _⟩ => if skip rest = [] then some v else none

end Relaxed

end Provenance
