import Provenance.Text.Hex

/-!
# Quoted strings

The text of a JSON string between its quotes. `encode` escapes only what must be escaped: the
quote, the backslash and the control characters. Reading takes two steps: `pieces?` reads any
legal spelling up to the closing quote, and `join?` makes characters of the pieces, of a pair of
surrogate escapes one. Main statements: `pieces?` recovers the characters that `encode` wrote, and
`join?` keeps characters as they are.
-/

namespace Provenance.Json.Quoted

/-- One character as it stands between quotes. -/
def encodeChar (c : Char) : List Char :=
  if c = '"' then ['\\', '"']
  else if c = '\\' then ['\\', '\\']
  else if c = '\x08' then ['\\', 'b']
  else if c = '\x0c' then ['\\', 'f']
  else if c = '\n' then ['\\', 'n']
  else if c = '\r' then ['\\', 'r']
  else if c = '\t' then ['\\', 't']
  else if c.toNat < 0x20 then '\\' :: 'u' :: Hex.quad c.toNat
  else [c]

/-- A string as it stands between quotes. -/
def encode (cs : List Char) : List Char := cs.flatMap encodeChar

/-- A string with its quotes. -/
def quote (s : String) : List Char := '"' :: encode s.toList ++ ['"']

/-- The value of a sixteen-bit escape. -/
def unit? (a b c d : Char) : Option Nat := Hex.ofDigits? [a, b, c, d]

def isLeadUnit (n : Nat) : Bool := 0xD800 ≤ n && n < 0xDC00

def isTrailUnit (n : Nat) : Bool := 0xDC00 ≤ n && n < 0xE000

/-- The character of a surrogate pair. -/
def pairChar (lead trail : Nat) : Char :=
  .ofNat (0x10000 + (lead - 0xD800) * 0x400 + (trail - 0xDC00))

/-- The character that a one-letter escape stands for. -/
def simpleEscape? (c : Char) : Option Char :=
  if c = '"' then some '"'
  else if c = '\\' then some '\\'
  else if c = '/' then some '/'
  else if c = 'b' then some '\x08'
  else if c = 'f' then some '\x0c'
  else if c = 'n' then some '\n'
  else if c = 'r' then some '\r'
  else if c = 't' then some '\t'
  else none

/-- A piece of a string: a character, or half of one that is written as two escapes. -/
inductive Piece where
  | char (c : Char)
  | surrogate (unit : Nat)
deriving DecidableEq, Repr

/-- The piece that a sixteen-bit escape stands for. -/
def unitPiece (n : Nat) : Piece :=
  if isLeadUnit n || isTrailUnit n then .surrogate n else .char (.ofNat n)

/-- The pieces up to the closing quote, and the rest after the quote. A control character and an
unknown escape are refused. -/
def pieces? : List Char → Option (List Piece × List Char)
  | [] => none
  | '"' :: rest => some ([], rest)
  | '\\' :: 'u' :: a :: b :: c :: d :: rest =>
    match unit? a b c d with
    | none => none
    | some n => prepend (unitPiece n) (pieces? rest)
  | '\\' :: c :: rest =>
    match simpleEscape? c with
    | none => none
    | some c => prepend (.char c) (pieces? rest)
  | c :: rest => if c = '\\' ∨ c.toNat < 0x20 then none else prepend (.char c) (pieces? rest)
where
  prepend (p : Piece) : Option (List Piece × List Char) → Option (List Piece × List Char)
    | none => none
    | some (ps, rest) => some (p :: ps, rest)

/-- The characters of pieces. Each surrogate must have its partner. -/
def join? : List Piece → Option (List Char)
  | [] => some []
  | .char c :: rest => (join? rest).map (c :: ·)
  | .surrogate lead :: .surrogate trail :: rest =>
    if isLeadUnit lead && isTrailUnit trail then (join? rest).map (pairChar lead trail :: ·)
    else none
  | .surrogate _ :: _ => none

theorem pieces?.prepend_eq_some {p : Piece} {o : Option (List Piece × List Char)}
    {ps : List Piece} {rest : List Char} (h : pieces?.prepend p o = some (ps, rest)) :
    ∃ ps', o = some (ps', rest) ∧ ps = p :: ps' := by
  cases o with
  | none => simp [prepend] at h
  | some q =>
    obtain ⟨ps', rest'⟩ := q
    simp only [prepend, Option.some.injEq, Prod.mk.injEq] at h
    exact ⟨ps', by rw [h.2], h.1.symm⟩

theorem length_lt_of_pieces? {s rest : List Char} {ps : List Piece}
    (h : pieces? s = some (ps, rest)) : rest.length < s.length := by
  fun_induction pieces? s generalizing ps <;>
    simp only [List.length_cons, List.length_nil] <;>
    grind [→ pieces?.prepend_eq_some]

/-! ### Reading what was written -/

@[simp] theorem join?_map_char (cs : List Char) : join? (cs.map .char) = some cs := by
  induction cs with
  | nil => rfl
  | cons c cs ih => simp [join?, ih]

private theorem pieces?_escaped {n : Nat} (hn : n < 0x20) (rest : List Char) :
    pieces? ('\\' :: 'u' :: Hex.quad n ++ rest) =
      pieces?.prepend (.char (.ofNat n)) (pieces? rest) := by
  have : ∀ m : Fin 0x20, unit? '0' '0' (Hex.lower (m.val / 16)) (Hex.lower m.val) = some m.val := by
    decide
  have h := this ⟨n, hn⟩
  have h0 : Hex.lower (n / 4096) = '0' := by rw [Nat.div_eq_of_lt (by omega)]; rfl
  have h1 : Hex.lower (n / 256) = '0' := by rw [Nat.div_eq_of_lt (by omega)]; rfl
  have hl : isLeadUnit n = false := by simp [isLeadUnit]; omega
  have ht : isTrailUnit n = false := by simp [isTrailUnit]; omega
  simp only [Hex.quad, h0, h1, List.cons_append, List.nil_append]
  rw [pieces?]
  simp only [h, unitPiece, hl, ht, Bool.or_self, Bool.false_eq_true, if_false]

private theorem pieces?_encodeChar (c : Char) (rest : List Char) :
    pieces? (encodeChar c ++ rest) = pieces?.prepend (.char c) (pieces? rest) := by
  unfold encodeChar
  split
  · next h => subst h; rfl
  split
  · next h => subst h; rfl
  split
  · next h => subst h; rfl
  split
  · next h => subst h; rfl
  split
  · next h => subst h; rfl
  split
  · next h => subst h; rfl
  split
  · next h => subst h; rfl
  split
  · next h =>
    rw [pieces?_escaped h]
    simp
  · next hq hb _ _ _ _ _ hc =>
    rw [List.cons_append, List.nil_append, pieces?]
    · simp [hb, hc]
    · simp [hq]
    · simp [hb]
    · simp [hb]

/-- What was written between quotes is read back, up to the closing quote. -/
theorem pieces?_encode (cs rest : List Char) :
    pieces? (encode cs ++ '"' :: rest) = some (cs.map .char, rest) := by
  induction cs with
  | nil => rfl
  | cons c cs ih =>
    have : encode (c :: cs) = encodeChar c ++ encode cs := rfl
    rw [this, List.append_assoc, pieces?_encodeChar, ih]
    rfl

end Provenance.Json.Quoted
