import Provenance.Checked.Erasure
import Provenance.Proofs.CheckedAccess
import Provenance.Proofs.ErasedSpans

/-!
# Erasing by token numbers never faults

No index of the checked eraser is outside of its list and no range is out of order, and the ranges
that it clears are the spans erased.
-/

namespace Provenance.Checked

open Erasure (isName isOpener isCloser isBindingKeyword endsStatement scan)

/-! ### What is erased -/

variable {ts rest : List Token} {t : Token} {k : Nat}

lemma declarationEnd?_eq (h : ts.drop k = t :: rest) :
    declarationEnd? ts k =
      some ((Erasure.declarationLength? (t :: rest)).map fun n => k + n - 1) := by
  have hk := (lt_length_of_drop h).le
  have hlength := length_eq_of_drop h hk
  rw [declarationEnd?, isNameAt_add h 1, textAt_add h 2, getElem?_of_drop h]
  match rest with
  | [] => rfl
  | [name] => cases hname : isName name <;> simp [Erasure.declarationLength?, hname]
  | name :: mark :: rest =>
    have hscan := scan?_eq [] (drop_add_of_drop h 3) (by simp [hlength])
    have hscan' := scan?_eq [";"] (drop_add_of_drop h 2) (by simp [hlength])
    have hlast : sub? ts.length 1 = some (k + rest.length + 2) := by
      rw [hlength]
      exact sub?_of_le (Nat.le_add_left 1 _)
    have hat : isNameAt (t :: name :: mark :: rest) 1 = isName name := rfl
    have hmark : textAt (t :: name :: mark :: rest) 2 = mark.text := rfl
    simp only [hat, hmark, hscan, hscan', hlast, Erasure.declarationLength?, bind, Option.bind]
    split_ifs
    · rfl
    · simp only [List.drop_succ_cons, List.drop_zero, Option.map_some]
      congr 2
      omega
    · simp only [List.drop_succ_cons, List.drop_zero, Option.map_some]
      congr 2
      omega
    · rfl

/-- A scan finds its end, and the range from a number before it up to that end can be cleared. -/
lemma scan_and_clear (stops : List String) (spans : List TokenSpan) {start : Nat}
    (h : ts.drop k = rest) (hk : k ≤ ts.length) (hstart : start ≤ k) :
    scan? stops ts k = some (k + scan stops 0 rest) ∧
      clear? start (k + scan stops 0 rest) (kept ts.length spans) =
        some (kept ts.length (spans ++ [⟨start, k + scan stops 0 rest⟩])) := by
  have hlength := length_eq_of_drop h hk
  have hle := Erasure.scan_le stops 0 rest
  exact ⟨scan?_eq stops h hk, clear?_kept spans (by omega) (by omega)⟩

/-- Where the annotation of a parameter is found by numbers, it is the one found in the list. -/
lemma annotation?_eq (h : ts.drop k = t :: rest) :
    Erasure.annotation? (t :: rest) =
      (if isNameAt ts k then colonAt? ts k else none).map fun found =>
        (1, found.2 - k + scan [",", ")", "="] 0 (ts.drop found.2)) := by
  have hname : isNameAt ts k = isName t := by
    rw [isNameAt, getElem?_of_drop h]
    rfl
  have htwo : ts.drop (k + 2) = rest.drop 1 := drop_add_of_drop h 2
  have hthree : ts.drop (k + 3) = rest.drop 2 := drop_add_of_drop h 3
  rw [colonAt?, hname, textAt_add h 1, textAt_add h 2]
  cases hn : isName t with
  | false => cases rest <;> simp [Erasure.annotation?, hn]
  | true =>
    rcases rest with _ | ⟨mark, _ | ⟨colon, rest⟩⟩
    · simp [Erasure.annotation?]
    · by_cases hcolon : mark.text = ":" <;>
        simp [Erasure.annotation?, hn, hcolon, htwo, Nat.add_comm]
    · by_cases hcolon : mark.text = ":"
      · simp [Erasure.annotation?, hn, hcolon, htwo, Nat.add_comm]
      · by_cases hquestion : mark.text = "?" ∧ colon.text = ":" <;>
          simp [Erasure.annotation?, hn, hcolon, hquestion, hthree, Nat.add_comm]

lemma stripAnnotation?_eq (spans : List TokenSpan) (h : ts.drop k = t :: rest) :
    stripAnnotation? ts k (kept ts.length spans) =
      some (k + ((Erasure.annotation? (t :: rest)).map (·.2)).getD 0,
        kept ts.length (spans ++ Erasure.parameterSpans k (t :: rest))) := by
  rw [stripAnnotation?, Erasure.parameterSpans, annotation?_eq h]
  cases hfound : (if isNameAt ts k then colonAt? ts k else none) with
  | none => simp
  | some found =>
    obtain ⟨start, typeStart⟩ := found
    obtain ⟨rfl, hlt, hle⟩ := typeStart_le hfound
    obtain ⟨hscan, hclear⟩ := scan_and_clear [",", ")", "="] spans rfl hle hlt.le
    have hend : k + (typeStart - k + scan [",", ")", "="] 0 (ts.drop typeStart)) =
        typeStart + scan [",", ")", "="] 0 (ts.drop typeStart) := by omega
    simp only [Option.map_some, Option.getD_some, hend, bind, Option.bind, hscan, hclear]
    rfl

/-- A parameter ends where the scan after its annotation does. -/
lemma scan?_parameterLength (h : ts.drop k = rest) (hk : k ≤ ts.length) :
    scan? [",", ")"] ts (k + ((Erasure.annotation? rest).map (·.2)).getD 0) =
      some (k + Erasure.parameterLength rest) := by
  have hlength := length_eq_of_drop h hk
  cases hfound : Erasure.annotation? rest with
  | none =>
    rw [Erasure.parameterLength, hfound]
    exact scan?_eq _ h hk
  | some found =>
    obtain ⟨start, stop⟩ := found
    have hstop := (Erasure.annotation?_eq_some (k := 0) hfound).stop_le
    have hle : k + stop ≤ ts.length := by
      simp only [Nat.zero_add] at hstop
      omega
    rw [Option.map_some, Option.getD_some, scan?_eq _ (drop_add_of_drop h stop) hle,
      Erasure.parameterLength, hfound, Nat.add_assoc, Nat.add_comm stop]

lemma stripParameter?_eq (spans : List TokenSpan) (h : ts.drop k = t :: rest) :
    stripParameter? ts k (kept ts.length spans) =
      some (k + Erasure.parameterLength (t :: rest),
        kept ts.length (spans ++ Erasure.parameterSpans k (t :: rest))) := by
  simp only [stripParameter?, bind, Option.bind, stripAnnotation?_eq spans h,
    scan?_parameterLength h (lt_length_of_drop h).le]
  rfl

/-- One round of the walk over a parameter list passes one parameter. -/
lemma stripParameters?_cons (spans : List TokenSpan) (h : ts.drop k = t :: rest)
    (hclose : t.text ≠ ")") :
    stripParameters? ts k (kept ts.length spans) =
      if textAt ts (k + Erasure.parameterLength (t :: rest)) = "," then
        stripParameters? ts (k + Erasure.parameterLength (t :: rest) + 1)
          (kept ts.length (spans ++ Erasure.parameterSpans k (t :: rest)))
      else some (k + Erasure.parameterLength (t :: rest),
        kept ts.length (spans ++ Erasure.parameterSpans k (t :: rest))) := by
  have hk := lt_length_of_drop h
  rw [stripParameters?, if_pos hk, getElem?_of_drop h]
  simp only [bind, Option.bind, if_neg hclose]
  rw [stripParameter?_eq spans h]
  rfl

/-- The annotations of a parameter list are cleared, up to its end. -/
lemma stripParameters?_eq (spans : List TokenSpan) (h : ts.drop k = rest) (hk : k ≤ ts.length) :
    stripParameters? ts k (kept ts.length spans) =
      some (k + (Erasure.parameters k rest).2,
        kept ts.length (spans ++ (Erasure.parameters k rest).1)) := by
  fun_induction Erasure.parameters k rest generalizing spans with
  | case1 k =>
    have hle : ¬ k < ts.length := Nat.not_lt.mpr (List.drop_eq_nil_iff.mp h)
    rw [stripParameters?, if_neg hle, List.append_nil]
    rfl
  | case2 k t rest hclose =>
    rw [stripParameters?, if_pos (lt_length_of_drop h), getElem?_of_drop h, List.append_nil]
    exact if_pos hclose
  | case3 k t rest hclose n hdrop =>
    have hend : textAt ts (k + n) = "" := textAt_add ((drop_add_of_drop h n).trans hdrop) 0
    rw [stripParameters?_cons spans h hclose, if_neg (by rw [hend]; decide)]
  | case4 k t rest hclose n comma more hdrop hcomma spans' m heq ih =>
    have hstop := (drop_add_of_drop h n).trans hdrop
    have htext : textAt ts (k + n) = "," := (textAt_add hstop 0).trans hcomma
    have hsum : k + n + 1 + m = k + (n + 1 + m) := by omega
    rw [stripParameters?_cons spans h hclose, if_pos htext,
      ih _ (drop_add_of_drop hstop 1) (lt_length_of_drop hstop), heq]
    simp only [hsum, List.append_assoc]
  | case5 k t rest hclose n comma more hdrop hcomma =>
    have hstop := (drop_add_of_drop h n).trans hdrop
    have htext : textAt ts (k + n) = comma.text := textAt_add hstop 0
    rw [stripParameters?_cons spans h hclose, if_neg (by rwa [htext])]

/-- The list of kept tokens after the annotations of a function are cleared, and where erasing goes
on. -/
lemma stripSignature?_eq (spans : List TokenSpan) (h : ts.drop k = rest) (hk : k ≤ ts.length) :
    stripSignature? ts k (kept ts.length spans) =
      some (k + (Erasure.signature k rest).2,
        kept ts.length (spans ++ (Erasure.signature k rest).1)) := by
  have hend := (Erasure.annotations_parameters k rest).1
  rw [stripSignature?, stripParameters?_eq spans h hk]
  unfold Erasure.signature
  generalize Erasure.parameters k rest = found at hend ⊢
  obtain ⟨more, n⟩ := found
  have hn := drop_add_of_drop h n
  simp only [bind, Option.bind]
  cases hrest : rest.drop n with
  | nil =>
    have hclose : textAt ts (k + n) = "" := textAt_add (hn.trans hrest) 0
    simp [hclose]
  | cons close after =>
    rw [hrest] at hn
    have hclose : textAt ts (k + n) = close.text := textAt_add hn 0
    have hcolon : textAt ts (k + n + 1) = textAt after 0 := textAt_add hn 1
    simp only [hclose, hcolon]
    by_cases htext : close.text = ")"
    · simp only [htext, ne_eq, not_true_eq_false, if_false]
      cases after with
      | nil => rfl
      | cons colon after =>
        by_cases hannotated : colon.text = ":"
        · have hbody := drop_add_of_drop hn 2
          have hle := lt_length_of_drop (drop_add_of_drop hn 1)
          obtain ⟨hscan, hclear⟩ :=
            scan_and_clear ["\x7b"] (spans ++ more) hbody hle (Nat.le_succ (k + n + 1))
          simp only [textAt_zero, hannotated, if_true, hscan, hclear]
          simp [Nat.add_assoc]
        · simp [hannotated]
          rfl
    · simp [htext]

lemma annotatedBindingLength?_cons (t : Token) (rest : List Token) :
    Erasure.annotatedBindingLength? (t :: rest) =
      if isBindingKeyword t && isNameAt rest 0 && textAt rest 1 = ":" then
        some (scan ["=", ";", ","] 0 (rest.drop 2) + 3)
      else none := by
  match rest with
  | [] => simp [Erasure.annotatedBindingLength?]
  | [name] => simp [Erasure.annotatedBindingLength?]
  | name :: colon :: rest => rfl

lemma functionHeadLength?_cons (t : Token) (rest : List Token) :
    Erasure.functionHeadLength? (t :: rest) =
      if t.text = "function" ∧ textAt rest (if isNameAt rest 0 then 1 else 0) = "(" then
        some ((if isNameAt rest 0 then 1 else 0) + 2)
      else none := by
  match rest with
  | [] => simp [Erasure.functionHeadLength?]
  | [u] =>
    by_cases hname : isName u <;> by_cases htext : t.text = "function" <;>
      simp [Erasure.functionHeadLength?, hname, htext]
  | u :: v :: rest =>
    by_cases hname : isName u <;> by_cases htext : t.text = "function" <;>
      simp [Erasure.functionHeadLength?, hname, htext]

/-- The annotation of a binding is found and cleared. -/
lemma binding_cleared (spans : List TokenSpan) (h : ts.drop k = t :: rest)
    (hcolon : textAt rest 1 = ":") :
    scan? ["=", ";", ","] ts (k + 3) =
        some (k + (scan ["=", ";", ","] 0 (rest.drop 2) + 3)) ∧
      clear? (k + 2) (k + (scan ["=", ";", ","] 0 (rest.drop 2) + 3)) (kept ts.length spans) =
        some (kept ts.length
          (spans ++ [⟨k + 2, k + (scan ["=", ";", ","] 0 (rest.drop 2) + 3)⟩])) := by
  have hlt : 1 < rest.length := lt_length_of_textAt hcolon (by decide)
  have hle : k + 3 ≤ ts.length := by
    rw [length_eq_of_drop h (lt_length_of_drop h).le, List.length_cons]
    omega
  have hcleared := scan_and_clear ["=", ";", ","] spans (drop_add_of_drop h 3) hle
    (Nat.le_succ (k + 2))
  have hstop : ∀ n, k + 3 + n = k + (n + 3) := fun n => by omega
  rw [hstop] at hcleared
  exact hcleared

/-- The annotations of a function are cleared from its parenthesis on. -/
lemma stripSignature?_of_paren (spans : List TokenSpan) (h : ts.drop k = t :: rest) {i : Nat}
    (hparen : textAt rest i = "(") :
    stripSignature? ts (k + 1 + i + 1) (kept ts.length spans) =
      some (k + (i + 2) + (Erasure.signature (k + (i + 2)) ((t :: rest).drop (i + 2))).2,
        kept ts.length
          (spans ++ (Erasure.signature (k + (i + 2)) ((t :: rest).drop (i + 2))).1)) := by
  have hlt : i < rest.length := lt_length_of_textAt hparen (by decide)
  have hle : k + (i + 2) ≤ ts.length := by
    rw [length_eq_of_drop h (lt_length_of_drop h).le, List.length_cons]
    omega
  have hsum : k + 1 + i + 1 = k + (i + 2) := by omega
  rw [hsum]
  exact stripSignature?_eq spans (drop_add_of_drop h (i + 2)) hle

/-- One round of the walk clears what one step of erasing finds. -/
lemma stripAt?_eq (spans : List TokenSpan) (atStart : Bool) (h : ts.drop k = t :: rest) :
    stripAt? ts atStart k (kept ts.length spans) =
      some ((Erasure.step k atStart t rest).atStart,
        k + 1 + (Erasure.step k atStart t rest).more,
        kept ts.length (spans ++ (Erasure.step k atStart t rest).spans)) := by
  have hlength := length_eq_of_drop h (lt_length_of_drop h).le
  have hdeclaration : declarationAt? ts atStart k =
      some ((if atStart then Erasure.declarationLength? (t :: rest) else none).map
        fun n => k + n - 1) := by
    cases atStart with
    | false => rfl
    | true => exact declarationEnd?_eq h
  rw [stripAt?, hdeclaration, getElem?_of_drop h]
  unfold Erasure.step
  cases hfound : (if atStart then Erasure.declarationLength? (t :: rest) else none) with
  | some n =>
    obtain ⟨hpos, hle⟩ :=
      Erasure.declarationLength?_eq_some (Option.ite_none_right_eq_some.mp hfound).2
    have hlast : k + n - 1 + 1 = k + n := by omega
    have hnext : k + 1 + (n - 1) = k + n := by omega
    have hclear : clear? k (k + n) (kept ts.length spans) =
        some (kept ts.length (spans ++ [⟨k, k + n⟩])) :=
      clear?_kept spans (Nat.le_add_right k n) (by omega)
    simp only [bind, Option.bind, Option.map_some, hlast, hnext, hclear]
    rfl
  | none =>
    have hrest : ts.drop (k + 1) = rest := drop_add_of_drop h 1
    have hname : isNameAt ts (k + 1) = isNameAt rest 0 := isNameAt_add hrest 0
    have hcolon : textAt ts (k + 2) = textAt rest 1 := textAt_add hrest 1
    simp only [bind, Option.bind, Option.map_none, annotatedBindingLength?_cons,
      functionHeadLength?_cons, hname, hcolon]
    by_cases hbinding :
        (isBindingKeyword t && isNameAt rest 0 && decide (textAt rest 1 = ":")) = true
    · simp only [if_pos hbinding]
      simp only [Bool.and_eq_true, decide_eq_true_eq] at hbinding
      obtain ⟨hscan, hclear⟩ := binding_cleared spans h hbinding.2
      generalize scan ["=", ";", ","] 0 (rest.drop 2) = n at hscan hclear ⊢
      have hnext : k + 1 + (n + 3 - 1) = k + (n + 3) := by omega
      simp only [hscan, hclear, hnext]
      rfl
    -- the parenthesis of a function follows its name, if it has one
    generalize hi : (if isNameAt rest 0 then 1 else 0) = i
    have hopening : (if isNameAt rest 0 then k + 2 else k + 1) = k + 1 + i := by
      rw [← hi]
      split <;> rfl
    have hparen : textAt ts (k + 1 + i) = textAt rest i := textAt_add hrest i
    simp only [if_neg hbinding, hopening, hparen]
    by_cases hfunction : t.text = "function" ∧ textAt rest i = "("
    · simp only [if_pos hfunction, stripSignature?_of_paren spans h hfunction.2]
      generalize Erasure.signature (k + (i + 2)) ((t :: rest).drop (i + 2)) = found
      have hnext : k + 1 + (i + 2 + found.2 - 1) = k + (i + 2) + found.2 := by omega
      rw [hnext]
      rfl
    · simp only [if_neg hfunction, List.append_nil]
      rfl

/-- The walk clears all spans that are erased. -/
lemma stripFrom?_eq (spans : List TokenSpan) (atStart : Bool) (h : ts.drop k = rest) :
    stripFrom? ts atStart k (kept ts.length spans) =
      some (kept ts.length (spans ++ Erasure.spansFrom k atStart rest)) := by
  fun_induction Erasure.spansFrom k atStart rest generalizing spans with
  | case1 k atStart =>
    have hle : ¬ k < ts.length := Nat.not_lt.mpr (List.drop_eq_nil_iff.mp h)
    rw [stripFrom?, if_neg hle, List.append_nil]
  | case2 k atStart t rest found ih =>
    have hnext : ts.drop (k + 1 + found.more) = rest.drop found.more :=
      drop_add_of_drop (drop_add_of_drop h 1) found.more
    rw [stripFrom?, if_pos (lt_length_of_drop h), stripAt?_eq spans atStart h]
    exact (ih _ hnext).trans (by rw [List.append_assoc])

/-- The walk comes to its end, and the tokens that it keeps are those that are not erased. -/
theorem strip?_eq (ts : List Token) : strip? ts = some (kept ts.length (erasedSpans ts)) := by
  rw [strip?, ← kept_nil]
  exact stripFrom?_eq [] true rfl

end Provenance.Checked
