import Provenance.Checked.Access
import Provenance.Erasure

/-!
# Erasing types by token numbers

A program that erases types walks over its tokens by number and clears ranges of a list that says
which of them are kept. `strip?` is that program, with every index, every range and every
subtraction checked. Its scans may run off the end of the tokens or stop at a closing bracket that
matches none; the number they give is in any case inside of the list.

Every loop comes to its end: a scan that begins inside of the list does not go back, so the walk
does not either.
-/

namespace Provenance.Checked

open Erasure (isName isOpener isCloser isBindingKeyword endsStatement scan)

/-! ### Tokens by number -/

/-- The text of a token by number, empty where there is none. -/
def textAt (ts : List Token) (k : Nat) : String := (ts[k]?.map (·.text)).getD ""

@[simp] lemma textAt_nil (k : Nat) : textAt [] k = "" := rfl

@[simp] lemma textAt_zero (t : Token) (ts : List Token) : textAt (t :: ts) 0 = t.text := rfl

@[simp] lemma textAt_succ (t : Token) (ts : List Token) (k : Nat) :
    textAt (t :: ts) (k + 1) = textAt ts k := rfl

/-- Whether a token by number is there and is a name. -/
def isNameAt (ts : List Token) (k : Nat) : Bool := (ts[k]?.map isName).getD false

@[simp] lemma isNameAt_nil (k : Nat) : isNameAt [] k = false := rfl

@[simp] lemma isNameAt_zero (t : Token) (ts : List Token) : isNameAt (t :: ts) 0 = isName t := rfl

@[simp] lemma isNameAt_succ (t : Token) (ts : List Token) (k : Nat) :
    isNameAt (t :: ts) (k + 1) = isNameAt ts k := rfl

/-- The number of the first token from some number on that is one of the stops outside of brackets,
or a closing bracket that matches none; the number of all tokens, if there is neither. -/
def scanFrom? (stops : List String) (count depth k : Nat) : List Token → Option Nat
  | [] => some count
  | t :: ts =>
    if depth = 0 ∧ stops.contains t.text then some k
    else if isOpener t then scanFrom? stops count (depth + 1) (k + 1) ts
    else if isCloser t then
      if depth = 0 then some k
      else (sub? depth 1).bind fun depth => scanFrom? stops count depth (k + 1) ts
    else scanFrom? stops count depth (k + 1) ts

def scan? (stops : List String) (ts : List Token) (start : Nat) : Option Nat :=
  scanFrom? stops ts.length 0 start (ts.drop start)

/-! ### Numbers and what stands there -/

variable {ts rest : List Token} {t : Token} {k : Nat}

lemma textAt_add (h : ts.drop k = rest) (i : Nat) : textAt ts (k + i) = textAt rest i := by
  rw [textAt, textAt, ← h, List.getElem?_drop]

lemma isNameAt_add (h : ts.drop k = rest) (i : Nat) : isNameAt ts (k + i) = isNameAt rest i := by
  rw [isNameAt, isNameAt, ← h, List.getElem?_drop]

lemma length_eq_of_drop (h : ts.drop k = rest) (hk : k ≤ ts.length) :
    ts.length = k + rest.length := by
  rw [← h, List.length_drop]
  omega

lemma lt_length_of_drop (h : ts.drop k = t :: rest) : k < ts.length := by
  have hlength := congrArg List.length h
  rw [List.length_drop, List.length_cons] at hlength
  omega

lemma getElem?_of_drop (h : ts.drop k = t :: rest) : ts[k]? = some t := by
  have hget := congrArg (·[0]?) h
  simpa using hget

lemma drop_add_of_drop (h : ts.drop k = rest) (n : Nat) : ts.drop (k + n) = rest.drop n := by
  rw [← h, List.drop_drop]

lemma scanFrom?_eq (stops : List String) (depth k : Nat) (us : List Token) :
    scanFrom? stops (k + us.length) depth k us = some (k + scan stops depth us) := by
  induction us generalizing depth k with
  | nil => rfl
  | cons t us ih =>
    have hnext : ∀ depth, scanFrom? stops (k + (us.length + 1)) depth (k + 1) us =
        some (k + (scan stops depth us + 1)) := fun depth => by
      have heq := ih depth (k + 1)
      rwa [Nat.add_right_comm, Nat.add_assoc, Nat.add_right_comm, Nat.add_assoc] at heq
    rw [scanFrom?, scan, List.length_cons]
    by_cases hstop : depth = 0 ∧ stops.contains t.text
    · rw [if_pos hstop, if_pos hstop]
      rfl
    rw [if_neg hstop, if_neg hstop]
    by_cases hopen : isOpener t
    · rw [if_pos hopen, if_pos hopen, hnext]
    rw [if_neg hopen, if_neg hopen]
    by_cases hclose : isCloser t
    · rw [if_pos hclose, if_pos hclose]
      by_cases hzero : depth = 0
      · rw [if_pos hzero, if_pos hzero]
        rfl
      · rw [if_neg hzero, if_neg hzero, sub?_of_le (Nat.one_le_iff_ne_zero.mpr hzero)]
        exact hnext (depth - 1)
    · rw [if_neg hclose, if_neg hclose, hnext]

/-- A scan that begins inside of the list ends there, where the list goes on as it says. -/
lemma scan?_eq (stops : List String) (h : ts.drop k = rest) (hk : k ≤ ts.length) :
    scan? stops ts k = some (k + scan stops 0 rest) := by
  rw [scan?, h, length_eq_of_drop h hk]
  exact scanFrom?_eq stops 0 k rest

lemma lt_length_of_textAt {i : Nat} {text : String} (h : textAt ts i = text) (hne : text ≠ "") :
    i < ts.length := by
  by_contra hle
  rw [textAt, List.getElem?_eq_none (Nat.not_lt.mp hle)] at h
  exact hne h.symm

/-- A scan that begins inside of the list does not go back and ends there. -/
lemma scan?_bounds {stops : List String} {n : Nat} (hk : k ≤ ts.length)
    (h : scan? stops ts k = some n) : k ≤ n ∧ n ≤ ts.length := by
  have hle := Erasure.scan_le stops 0 (ts.drop k)
  rw [scan?_eq stops rfl hk] at h
  cases h
  rw [List.length_drop] at hle
  omega

/-! ### Erasing -/

/-- The number of the last token of a type-only declaration that begins at a number, if one does. -/
def declarationEnd? (ts : List Token) (k : Nat) : Option (Option Nat) := do
  if !isNameAt ts (k + 1) then return none
  else
    let t ← ts[k]?
    if t.text = "interface" ∧ textAt ts (k + 2) = "\x7b" then
      return some (min (← scan? [] ts (k + 3)) (← sub? ts.length 1))
    else if t.text = "type" ∧ (textAt ts (k + 2) = "=" ∨ textAt ts (k + 2) = "<") then
      return some (min (← scan? [";"] ts (k + 2)) (← sub? ts.length 1))
    else return none

/-- A declaration does not end before it begins. -/
lemma declarationEnd?_le {last : Nat} (hk : k < ts.length)
    (h : declarationEnd? ts k = some (some last)) : k ≤ last := by
  have hlast : ∀ {stops : List String} {start : Nat}, k ≤ start → start ≤ ts.length →
      (do return some (min (← scan? stops ts start) (← sub? ts.length 1)) : Option (Option Nat)) =
        some (some last) → k ≤ last := by
    intro stops start hstart hle h
    obtain ⟨stop, hstop, h⟩ := Option.bind_eq_some_iff.mp h
    obtain ⟨n, hn, h⟩ := Option.bind_eq_some_iff.mp h
    rw [sub?_of_le (by omega)] at hn
    cases hn
    cases h
    have hbounds := scan?_bounds hle hstop
    omega
  unfold declarationEnd? at h
  split_ifs at h with hname
  · cases h
  obtain ⟨t, -, h⟩ := Option.bind_eq_some_iff.mp h
  split_ifs at h with hinterface htype
  · have hlt := lt_length_of_textAt hinterface.2 (by decide)
    exact hlast (Nat.le_add_right k 3) hlt h
  · have hlt : k + 2 < ts.length := by
      rcases htype.2 with htext | htext <;> exact lt_length_of_textAt htext (by decide)
    exact hlast (Nat.le_add_right k 2) (Nat.le_of_lt hlt) h
  · cases h

/-- Where the annotation of the parameter at a number begins, and where its type does. -/
def colonAt? (ts : List Token) (k : Nat) : Option (Nat × Nat) :=
  if textAt ts (k + 1) = ":" then some (k + 1, k + 2)
  else if textAt ts (k + 1) = "?" ∧ textAt ts (k + 2) = ":" then some (k + 1, k + 3)
  else none

/-- A type begins inside of the list, after the name that it is of. -/
lemma typeStart_le {start typeStart : Nat}
    (h : (if isNameAt ts k then colonAt? ts k else none) = some (start, typeStart)) :
    start = k + 1 ∧ start < typeStart ∧ typeStart ≤ ts.length := by
  obtain ⟨-, h⟩ := Option.ite_none_right_eq_some.mp h
  unfold colonAt? at h
  split_ifs at h with hcolon hquestion
  · obtain ⟨rfl, rfl⟩ := Prod.mk.inj (Option.some.inj h)
    exact ⟨rfl, Nat.lt_succ_self _, lt_length_of_textAt hcolon (by decide)⟩
  · obtain ⟨rfl, rfl⟩ := Prod.mk.inj (Option.some.inj h)
    exact ⟨rfl, by omega, lt_length_of_textAt hquestion.2 (by decide)⟩

/-- The annotation of the parameter at a number cleared, and the number after it. -/
def stripAnnotation? (ts : List Token) (k : Nat) (keep : List Bool) : Option (Nat × List Bool) := do
  match if isNameAt ts k then colonAt? ts k else none with
  | none => return (k, keep)
  | some (start, typeStart) =>
    let stop ← scan? [",", ")", "="] ts typeStart
    return (stop, ← clear? start stop keep)

lemma stripAnnotation?_bounds {next : Nat} {keep keep' : List Bool} (hk : k ≤ ts.length)
    (h : stripAnnotation? ts k keep = some (next, keep')) : k ≤ next ∧ next ≤ ts.length := by
  unfold stripAnnotation? at h
  cases hfound : (if isNameAt ts k then colonAt? ts k else none) with
  | none =>
    rw [hfound] at h
    cases h
    exact ⟨Nat.le_refl _, hk⟩
  | some found =>
    obtain ⟨start, typeStart⟩ := found
    obtain ⟨rfl, hlt, hle⟩ := typeStart_le hfound
    rw [hfound] at h
    obtain ⟨stop, hstop, h⟩ := Option.bind_eq_some_iff.mp h
    obtain ⟨cleared, -, h⟩ := Option.bind_eq_some_iff.mp h
    cases h
    have hbounds := scan?_bounds hle hstop
    omega

/-- The annotation of the parameter at a number cleared, and the number at which the parameter
ends. -/
def stripParameter? (ts : List Token) (k : Nat) (keep : List Bool) : Option (Nat × List Bool) := do
  let (next, keep) ← stripAnnotation? ts k keep
  return (← scan? [",", ")"] ts next, keep)

lemma stripParameter?_bounds {stop : Nat} {keep keep' : List Bool} (hk : k ≤ ts.length)
    (h : stripParameter? ts k keep = some (stop, keep')) : k ≤ stop ∧ stop ≤ ts.length := by
  obtain ⟨⟨next, cleared⟩, hnext, h⟩ := Option.bind_eq_some_iff.mp h
  obtain ⟨stop, hstop, h⟩ := Option.bind_eq_some_iff.mp h
  cases h
  have hbounds := stripAnnotation?_bounds hk hnext
  have hbounds' := scan?_bounds hbounds.2 hstop
  omega

/-- The annotations in a parameter list cleared from a number on, and the number at its end. -/
def stripParameters? (ts : List Token) (k : Nat) (keep : List Bool) :
    Option (Nat × List Bool) := do
  if k < ts.length then
    let t ← ts[k]?
    if t.text = ")" then return (k, keep)
    else
      match _ : stripParameter? ts k keep with
      | none => none
      | some (stop, keep) =>
        if textAt ts stop = "," then stripParameters? ts (stop + 1) keep
        else return (stop, keep)
  else return (k, keep)
termination_by ts.length - k
decreasing_by
  have hbounds := stripParameter?_bounds (Nat.le_of_lt ‹k < ts.length›) ‹stripParameter? ts k _ = _›
  omega

lemma stripParameters?_le {stop : Nat} {keep keep' : List Bool} (hk : k ≤ ts.length)
    (h : stripParameters? ts k keep = some (stop, keep')) : k ≤ stop := by
  fun_induction stripParameters? ts k keep with
  | case1 k keep hlt ih =>
    obtain ⟨t, -, h⟩ := Option.bind_eq_some_iff.mp h
    split_ifs at h with hclose
    · cases h
      exact Nat.le_refl _
    split at h
    · cases h
    · next stop' keep hparameter =>
      have hbounds := stripParameter?_bounds hk hparameter
      split_ifs at h with hcomma
      · have hle := ih stop' keep hparameter (lt_length_of_textAt hcomma (by decide)) h
        omega
      · cases h
        exact hbounds.1
  | case2 k keep hle =>
    cases h
    exact Nat.le_refl _

/-- The annotations of a function's parameters and of its result cleared, from the number of the
first parameter on, and the number at which erasing goes on. -/
def stripSignature? (ts : List Token) (k : Nat) (keep : List Bool) : Option (Nat × List Bool) := do
  let (close, keep) ← stripParameters? ts k keep
  if textAt ts close ≠ ")" then return (close, keep)
  else if textAt ts (close + 1) = ":" then
    let stop ← scan? ["\x7b"] ts (close + 2)
    return (stop, ← clear? (close + 1) stop keep)
  else return (close + 1, keep)

lemma stripSignature?_le {next : Nat} {keep keep' : List Bool} (hk : k ≤ ts.length)
    (h : stripSignature? ts k keep = some (next, keep')) : k ≤ next := by
  obtain ⟨⟨close, cleared⟩, hclose, h⟩ := Option.bind_eq_some_iff.mp h
  have hle := stripParameters?_le hk hclose
  dsimp only at h
  split_ifs at h with hparen hcolon
  · cases h
    exact hle
  · obtain ⟨stop, hstop, h⟩ := Option.bind_eq_some_iff.mp h
    obtain ⟨cleared', -, h⟩ := Option.bind_eq_some_iff.mp h
    cases h
    have hbounds := scan?_bounds (lt_length_of_textAt hcolon (by decide)) hstop
    omega
  · cases h
    omega

/-- The number of the last token of a declaration, if one may begin at a number and does. -/
def declarationAt? (ts : List Token) (atStart : Bool) (k : Nat) : Option (Option Nat) :=
  if atStart then declarationEnd? ts k else some none

/-- What is found at a number cleared: whether a declaration may begin after it, and the number at
which the walk goes on. -/
def stripAt? (ts : List Token) (atStart : Bool) (k : Nat) (keep : List Bool) :
    Option (Bool × Nat × List Bool) := do
  match ← declarationAt? ts atStart k with
  | some last => return (true, last + 1, ← clear? k (last + 1) keep)
  | none =>
    let t ← ts[k]?
    if isBindingKeyword t && isNameAt ts (k + 1) && textAt ts (k + 2) = ":" then
      let stop ← scan? ["=", ";", ","] ts (k + 3)
      return (false, stop, ← clear? (k + 2) stop keep)
    else
      let opening := if isNameAt ts (k + 1) then k + 2 else k + 1
      if t.text = "function" ∧ textAt ts opening = "(" then
        let (next, keep) ← stripSignature? ts (opening + 1) keep
        return (false, next, keep)
      else return (endsStatement t, k + 1, keep)

/-- Each round of the walk goes on. -/
lemma lt_stripAt? {atStart atStart' : Bool} {next : Nat} {keep keep' : List Bool}
    (hk : k < ts.length) (h : stripAt? ts atStart k keep = some (atStart', next, keep')) :
    k < next := by
  obtain ⟨declaration, hdeclaration, h⟩ := Option.bind_eq_some_iff.mp h
  cases declaration with
  | some last =>
    obtain ⟨cleared, -, h⟩ := Option.bind_eq_some_iff.mp h
    cases h
    unfold declarationAt? at hdeclaration
    split_ifs at hdeclaration
    · exact Nat.lt_succ_of_le (declarationEnd?_le hk hdeclaration)
    · cases hdeclaration
  | none =>
    obtain ⟨t, -, h⟩ := Option.bind_eq_some_iff.mp h
    by_cases hbinding : (isBindingKeyword t && isNameAt ts (k + 1) &&
        decide (textAt ts (k + 2) = ":")) = true
    · rw [if_pos hbinding] at h
      simp only [Bool.and_eq_true, decide_eq_true_eq] at hbinding
      obtain ⟨stop, hstop, h⟩ := Option.bind_eq_some_iff.mp h
      obtain ⟨cleared, -, h⟩ := Option.bind_eq_some_iff.mp h
      cases h
      have hbounds := scan?_bounds (lt_length_of_textAt hbinding.2 (by decide)) hstop
      omega
    · have hopening : k < if isNameAt ts (k + 1) then k + 2 else k + 1 := by
        split_ifs <;> omega
      rw [if_neg hbinding] at h
      generalize (if isNameAt ts (k + 1) then k + 2 else k + 1) = opening at h hopening
      dsimp only at h
      split_ifs at h with hfunction
      · obtain ⟨⟨stop, cleared⟩, hstop, h⟩ := Option.bind_eq_some_iff.mp h
        cases h
        have hle := stripSignature?_le (lt_length_of_textAt hfunction.2 (by decide)) hstop
        omega
      · cases h
        exact Nat.lt_succ_self k

/-- All type syntax cleared from a number on. -/
def stripFrom? (ts : List Token) (atStart : Bool) (k : Nat) (keep : List Bool) :
    Option (List Bool) :=
  if k < ts.length then
    match _ : stripAt? ts atStart k keep with
    | none => none
    | some (atStart, next, keep) => stripFrom? ts atStart next keep
  else some keep
termination_by ts.length - k
decreasing_by
  have hlt := lt_stripAt? ‹k < ts.length› ‹_›
  omega

/-- Which tokens are kept. -/
def strip? (ts : List Token) : Option (List Bool) :=
  stripFrom? ts true 0 (List.replicate ts.length true)

end Provenance.Checked
