import Provenance.Token

/-!
# Erasing types

Type syntax is erased by dropping tokens: `interface` and `type` declarations, the annotations of
`const`, `let` and `var` bindings, and those of `function` parameters and results. `erasedSpans`
lists what is dropped as ranges of token numbers, in order; `keptTokens` are the others.

Where a type ends is found by counting brackets of all kinds alike, the angle ones too, up to a
token of a given stop set outside of all of them.
-/

namespace Provenance

/-- A range of token numbers: from `start` up to but not including `stop`. -/
structure TokenSpan where
  start : Nat
  stop : Nat
deriving DecidableEq, Repr

def TokenSpan.contains (s : TokenSpan) (i : Nat) : Bool := s.start ≤ i && i < s.stop

namespace Erasure

/-! ### Scanning a type -/

def isOpener (t : Token) : Bool := ["(", "[", "\x7b", "<"].contains t.text

def isCloser (t : Token) : Bool := [")", "]", "\x7d", ">"].contains t.text

/-- The number of tokens up to one of the stops outside of brackets, or up to a closing bracket
that matches none; all tokens, if there is neither. -/
def scan (stops : List String) (depth : Nat) : List Token → Nat
  | [] => 0
  | t :: ts =>
    if depth = 0 ∧ stops.contains t.text then 0
    else if isOpener t then scan stops (depth + 1) ts + 1
    else if isCloser t then if depth = 0 then 0 else scan stops (depth - 1) ts + 1
    else scan stops depth ts + 1

theorem scan_le (stops : List String) (depth : Nat) (ts : List Token) :
    scan stops depth ts ≤ ts.length := by
  induction ts generalizing depth with
  | nil => simp [scan]
  | cons t ts ih =>
    simp only [scan, List.length_cons]
    split
    · omega
    split
    · exact Nat.succ_le_succ (ih _)
    split
    · split
      · omega
      · exact Nat.succ_le_succ (ih _)
    · exact Nat.succ_le_succ (ih _)

/-! ### Declarations -/

def isName (t : Token) : Bool := t.kind = .name

/-- The number of tokens of a type-only declaration that begins here: through the brace that
closes an interface, through the semicolon of a type, or to the end. -/
def declarationLength? : List Token → Option Nat
  | keyword :: name :: mark :: rest =>
    if !isName name then none
    else if keyword.text = "interface" ∧ mark.text = "\x7b" then
      some (min (scan [] 0 rest + 4) (rest.length + 3))
    else if keyword.text = "type" ∧ (mark.text = "=" ∨ mark.text = "<") then
      some (min (scan [";"] 0 (mark :: rest) + 3) (rest.length + 3))
    else none
  | _ => none

/-! ### Bindings -/

def isBindingKeyword (t : Token) : Bool := ["const", "let", "var"].contains t.text

/-- The number of tokens of a binding up to the end of its annotation, if it has one: the keyword,
the name, the colon and the type. -/
def annotatedBindingLength? : List Token → Option Nat
  | keyword :: name :: colon :: rest =>
    if isBindingKeyword keyword && isName name && colon.text = ":" then
      some (scan ["=", ";", ","] 0 rest + 3)
    else none
  | _ => none

/-! ### Functions -/

/-- Where the annotation of a parameter begins and ends, counted from the parameter's name. -/
def annotation? : List Token → Option (Nat × Nat)
  | name :: mark :: rest =>
    if !isName name then none
    else if mark.text = ":" then some (1, scan [",", ")", "="] 0 rest + 2)
    else match rest with
      | colon :: rest =>
        if mark.text = "?" ∧ colon.text = ":" then some (1, scan [",", ")", "="] 0 rest + 3)
        else none
      | [] => none
  | _ => none

/-- The number of tokens of a parameter with its default value: up to the comma after it or the
end of the list. -/
def parameterLength (ts : List Token) : Nat :=
  let m := match annotation? ts with
    | some (_, stop) => stop
    | none => 0
  scan [",", ")"] 0 (ts.drop m) + m

/-- The annotation of a parameter whose name is token number `k`. -/
def parameterSpans (k : Nat) (ts : List Token) : List TokenSpan :=
  match annotation? ts with
  | some (start, stop) => [⟨k + start, k + stop⟩]
  | none => []

/-- The annotations in a parameter list whose tokens begin with number `k`, and the number of
tokens up to the end of the list. -/
def parameters (k : Nat) (ts : List Token) : List TokenSpan × Nat :=
  match ts with
  | [] => ([], 0)
  | t :: rest =>
    if t.text = ")" then ([], 0)
    else
      let n := parameterLength (t :: rest)
      match _h : (t :: rest).drop n with
      | [] => (parameterSpans k (t :: rest), n)
      | comma :: more =>
        if comma.text = "," then
          let (spans, m) := parameters (k + n + 1) more
          (parameterSpans k (t :: rest) ++ spans, n + 1 + m)
        else (parameterSpans k (t :: rest), n)
termination_by ts.length
decreasing_by
  have := congrArg List.length _h
  simp only [List.length_drop, List.length_cons] at this ⊢
  omega

/-- The annotations in a parameter list and of the result after it, and the number of tokens up
to where erasing goes on: the body's brace, or what follows the list. -/
def signature (k : Nat) (ts : List Token) : List TokenSpan × Nat :=
  let (spans, n) := parameters k ts
  match ts.drop n with
  | close :: rest =>
    if close.text ≠ ")" then (spans, n)
    else match rest with
      | colon :: rest =>
        if colon.text = ":" then
          let m := scan ["\x7b"] 0 rest
          (spans ++ [⟨k + n + 1, k + n + 2 + m⟩], n + 2 + m)
        else (spans, n + 1)
      | [] => (spans, n + 1)
  | [] => (spans, n)

/-- The number of tokens through the parenthesis that opens the parameters of a function. -/
def functionHeadLength? : List Token → Option Nat
  | keyword :: t :: rest =>
    if keyword.text ≠ "function" then none
    else if isName t then
      if (rest.head?.map (·.text)) = some "(" then some 3 else none
    else if t.text = "(" then some 2 else none
  | _ => none

/-! ### The text as a whole -/

/-- A declaration may begin at the start, after a semicolon and after a brace. -/
def endsStatement (t : Token) : Bool := [";", "\x7b", "\x7d"].contains t.text

/-- What one step finds at a token: the spans to drop, how many tokens beyond this one it covers,
and whether a declaration may begin after them. -/
structure Found where
  spans : List TokenSpan
  more : Nat
  atStart : Bool

/-- One step at token number `k`. -/
def step (k : Nat) (atStart : Bool) (t : Token) (rest : List Token) : Found :=
  match if atStart then declarationLength? (t :: rest) else none with
  | some n => ⟨[⟨k, k + n⟩], n - 1, true⟩
  | none =>
    match annotatedBindingLength? (t :: rest) with
    | some n => ⟨[⟨k + 2, k + n⟩], n - 1, false⟩
    | none =>
      match functionHeadLength? (t :: rest) with
      | some n =>
        let (spans, m) := signature (k + n) ((t :: rest).drop n)
        ⟨spans, n + m - 1, false⟩
      | none => ⟨[], 0, endsStatement t⟩

/-- The spans to drop among tokens that begin with number `k`. -/
def spansFrom (k : Nat) (atStart : Bool) (ts : List Token) : List TokenSpan :=
  match ts with
  | [] => []
  | t :: rest =>
    let found := step k atStart t rest
    found.spans ++ spansFrom (k + 1 + found.more) found.atStart (rest.drop found.more)
termination_by ts.length
decreasing_by
  simp only [List.length_drop, List.length_cons]
  omega

end Erasure

/-- The ranges of tokens that are type syntax. -/
def erasedSpans (ts : List Token) : List TokenSpan := Erasure.spansFrom 0 true ts

/-- Whether a token is kept, by its number. -/
def isKept (spans : List TokenSpan) (i : Nat) : Bool := !spans.any (·.contains i)

/-- The tokens that are not type syntax, in order. -/
def keptTokens (ts : List Token) : List Token :=
  let spans := erasedSpans ts
  (ts.zipIdx.filter fun (_, i) => isKept spans i).map (·.1)

end Provenance
