import Mathlib.Logic.Relation
import Provenance.Proofs.PrintedAgain

/-!
# Annotations with balanced types

A type ends at a stop outside of its brackets. What a scan finds there is told here by the tokens
alone: tokens are balanced if no bracket among them is closed before it is opened and none stays
open, all kinds of brackets being counted alike, and a scan goes over balanced tokens to the first
stop behind them. So where the walk over the tokens of a text comes to a binding or to the head of a
function whose types are balanced, it drops the annotations and nothing else, and goes on behind
them.
-/

namespace Provenance.Erasure

variable {stops : List String} {k m n : Nat} {t u name : Token}
  {ts us rest type value marks : List Token} {spans more : List TokenSpan}

/-! ### Balanced tokens -/

/-- What a token adds to the number of open brackets. -/
def weight (t : Token) : Int := if isOpener t then 1 else if isCloser t then -1 else 0

/-- The number of brackets that are open after tokens. -/
def openAfter : List Token → Int
  | [] => 0
  | t :: ts => weight t + openAfter ts

@[simp] lemma openAfter_nil : openAfter [] = 0 := rfl

@[simp] lemma openAfter_cons (t : Token) (ts : List Token) :
    openAfter (t :: ts) = weight t + openAfter ts := rfl

/-- Brackets of all kinds taken alike, none is closed before one is opened, and none stays open. -/
def Balanced (ts : List Token) : Prop :=
  (∀ i ≤ ts.length, 0 ≤ openAfter (ts.take i)) ∧ openAfter ts = 0

/-- Balanced tokens without a stop outside of their brackets. -/
def BalancedUpTo (stops : List String) (ts : List Token) : Prop :=
  Balanced ts ∧ ∀ i, (hi : i < ts.length) → openAfter (ts.take i) = 0 → ts[i].text ∉ stops

instance (ts : List Token) : Decidable (Balanced ts) := inferInstanceAs (Decidable (_ ∧ _))

instance (stops : List String) (ts : List Token) : Decidable (BalancedUpTo stops ts) :=
  inferInstanceAs (Decidable (_ ∧ _))

/-- A scan goes on over a token that is no stop and closes nothing that was not opened. -/
lemma scan_of_weight {depth : Nat} (hstop : depth = 0 → t.text ∉ stops)
    (hdepth : 0 ≤ depth + weight t) (ts : List Token) :
    scan stops depth (t :: ts) = scan stops (depth + weight t).toNat ts + 1 := by
  have hgo : ¬ (depth = 0 ∧ stops.contains t.text) := fun h =>
    hstop h.1 (List.contains_iff_mem.1 h.2)
  rw [scan, if_neg hgo]
  unfold weight at hdepth ⊢
  split_ifs at hdepth ⊢ with hopener hcloser hzero
  · rfl
  · omega
  · rw [show (depth + -1 : Int).toNat = depth - 1 by omega]
  · rw [Int.add_zero, Int.toNat_natCast]

/-- A scan goes over tokens among which it finds no stop, and reads on at the depth they leave. -/
lemma scan_append {depth : Nat} (hdepth : ∀ i ≤ ts.length, 0 ≤ depth + openAfter (ts.take i))
    (hstops : ∀ i, (hi : i < ts.length) → depth + openAfter (ts.take i) = 0 → ts[i].text ∉ stops)
    (us : List Token) :
    scan stops depth (ts ++ us) = ts.length + scan stops (depth + openAfter ts).toNat us := by
  induction ts generalizing depth with
  | nil => simp
  | cons t ts ih =>
    have hweight : 0 ≤ depth + weight t := by simpa using hdepth 1 (by simp)
    have hcast : ((depth + weight t).toNat : Int) = depth + weight t := Int.toNat_of_nonneg hweight
    have hfirst : depth = 0 → t.text ∉ stops := fun h => hstops 0 (by simp) (by simp [h])
    rw [List.cons_append, scan_of_weight hfirst hweight, ih, hcast, openAfter_cons, Int.add_assoc,
      List.length_cons, Nat.add_right_comm]
    · intro i hi
      rw [hcast, Int.add_assoc]
      exact hdepth (i + 1) (Nat.succ_le_succ hi)
    · intro i hi
      rw [hcast, Int.add_assoc]
      exact hstops (i + 1) (Nat.succ_lt_succ hi)

/-- A scan goes over balanced tokens. -/
lemma BalancedUpTo.scan_append (h : BalancedUpTo stops ts) (us : List Token) :
    scan stops 0 (ts ++ us) = ts.length + scan stops 0 us := by
  obtain ⟨⟨hdepth, hclosed⟩, hstops⟩ := h
  rw [Erasure.scan_append (by simpa using hdepth) (by simpa using hstops), hclosed]
  rfl

/-- A scan stops behind balanced tokens that are followed by a stop. -/
lemma BalancedUpTo.scan_eq (h : BalancedUpTo stops ts) (ht : t.text ∈ stops) (rest : List Token) :
    scan stops 0 (ts ++ t :: rest) = ts.length := by
  rw [h.scan_append]
  simp [scan, ht]

/-! ### Bindings and heads of functions -/

/-- Tokens, each with whether it is left when types are erased. -/
abbrev Marked := List (Token × Bool)

def allLeft (ts : List Token) : Marked := ts.map (·, true)

def allDropped (ts : List Token) : Marked := ts.map (·, false)

@[simp] lemma allLeft_nil : allLeft [] = [] := rfl

@[simp] lemma allLeft_cons (t : Token) (ts : List Token) :
    allLeft (t :: ts) = (t, true) :: allLeft ts := rfl

@[simp] lemma allDropped_nil : allDropped [] = [] := rfl

@[simp] lemma length_allLeft (ts : List Token) : (allLeft ts).length = ts.length := List.length_map _

@[simp] lemma length_allDropped (ts : List Token) : (allDropped ts).length = ts.length :=
  List.length_map _

@[simp] lemma map_fst_allLeft (ts : List Token) : (allLeft ts).map Prod.fst = ts := by
  simp [allLeft, Function.comp_def]

@[simp] lemma map_fst_allDropped (ts : List Token) : (allDropped ts).map Prod.fst = ts := by
  simp [allDropped, Function.comp_def]

/-- The annotation of a binding or of a result: a colon and a type that goes on to a stop. -/
inductive IsTyped (stops : List String) : List Token → Prop where
  | mk {colon : Token} {type : List Token} (isColon : colon.text = ":")
      (isType : BalancedUpTo stops type) : IsTyped stops (colon :: type)

/-- The annotation of a parameter, with a question mark if the parameter may be left out. -/
inductive IsAnnotation : List Token → Prop where
  | required {typed : List Token} (isTyped : IsTyped [",", ")", "="] typed) : IsAnnotation typed
  | optional {mark : Token} {typed : List Token} (isMark : mark.text = "?")
      (isTyped : IsTyped [",", ")", "="] typed) : IsAnnotation (mark :: typed)

/-- The default value of a parameter, with its equals sign. -/
inductive IsDefault : List Token → Prop where
  | mk {equals : Token} {value : List Token} (isEquals : equals.text = "=")
      (isValue : BalancedUpTo [",", ")"] value) : IsDefault (equals :: value)

/-- A name, with an annotation or without, and with a default value or without. -/
inductive IsParameter : Marked → Prop where
  | mk {name : Token} {marks value : List Token} (named : isName name)
      (annotated : marks = [] ∨ IsAnnotation marks)
      (defaulted : value = [] ∨ IsDefault value) :
      IsParameter (allLeft [name] ++ (allDropped marks ++ allLeft value))

/-- Any number of parameters with commas between them. A comma behind the last one does no harm. -/
inductive AreParameters : Marked → Prop where
  | none : AreParameters []
  | last {parameter : Marked} (isParameter : IsParameter parameter) : AreParameters parameter
  | more {parameter parameters : Marked} {comma : Token} (isParameter : IsParameter parameter)
      (isComma : comma.text = ",") (areParameters : AreParameters parameters) :
      AreParameters (parameter ++ (comma, true) :: parameters)

/-- The head of a function, up to the brace of its body. -/
inductive IsHead : Marked → Prop where
  | mk {keyword opening closing : Token} {name result : List Token} {parameters : Marked}
      (isKeyword : keyword.text = "function") (named : name = [] ∨ ∃ t, name = [t] ∧ isName t)
      (opens : opening.text = "(") (areParameters : AreParameters parameters)
      (closes : closing.text = ")") (typed : result = [] ∨ IsTyped ["\x7b"] result) :
      IsHead (allLeft (keyword :: (name ++ [opening])) ++
        (parameters ++ (allLeft [closing] ++ allDropped result)))

/-- A binding with its annotation. -/
inductive IsBinding : Marked → Prop where
  | mk {keyword name : Token} {typed : List Token} (isKeyword : isBindingKeyword keyword)
      (named : isName name) (isTyped : IsTyped ["=", ";", ","] typed) :
      IsBinding (allLeft [keyword, name] ++ allDropped typed)

/-! ### What spans drop -/

/-- Among the tokens from number `k` on, the spans drop those that are marked so and no others. -/
structure Drops (spans : List TokenSpan) (k : Nat) (marked : Marked) : Prop where
  within : ∀ s ∈ spans, k ≤ s.start ∧ s.stop ≤ k + marked.length
  kept : ∀ i, (hi : i < marked.length) → isKept spans (k + i) = marked[i].2

lemma drops_allLeft (k : Nat) (ts : List Token) : Drops [] k (allLeft ts) :=
  ⟨fun _ hs => absurd hs List.not_mem_nil, fun i hi => by simp [isKept, allLeft]⟩

lemma drops_allDropped (k : Nat) (ts : List Token) :
    Drops [⟨k, k + ts.length⟩] k (allDropped ts) := by
  refine ⟨fun s hs => ?_, fun i hi => ?_⟩
  · obtain rfl := List.mem_singleton.1 hs
    simp
  · rw [length_allDropped] at hi
    simp [isKept, TokenSpan.contains, allDropped, hi]

lemma Drops.append {marked later : Marked} (h : Drops spans k marked)
    (h' : Drops more (k + marked.length) later) : Drops (spans ++ more) k (marked ++ later) := by
  refine ⟨fun s hs => ?_, fun i hi => ?_⟩
  · rw [List.length_append]
    rcases List.mem_append.1 hs with hs | hs
    · have := h.within s hs
      omega
    · have := h'.within s hs
      omega
  · rw [isKept_append]
    by_cases hlt : i < marked.length
    · have hmore : isKept more (k + i) := isKept_iff.2 fun s hs => .inl (by
        have := (h'.within s hs).1
        omega)
      rw [h.kept i hlt, hmore, Bool.and_true, List.getElem_append_left hlt]
    · have hspans : isKept spans (k + i) := isKept_iff.2 fun s hs => .inr (by
        have := (h.within s hs).2
        omega)
      have hnext := h'.kept (i - marked.length) (by rw [List.length_append] at hi; omega)
      rw [show k + marked.length + (i - marked.length) = k + i by omega] at hnext
      rw [hspans, Bool.true_and, hnext, List.getElem_append_right (Nat.not_lt.1 hlt)]

/-! ### Parameters -/

lemma IsTyped.scan_eq {typed : List Token} (h : IsTyped stops typed) (ht : t.text ∈ stops)
    (rest : List Token) :
    ∃ colon type, typed = colon :: type ∧ colon.text = ":" ∧
      scan stops 0 (type ++ t :: rest) = type.length := by
  obtain ⟨hcolon, htype⟩ := h
  exact ⟨_, _, rfl, hcolon, htype.scan_eq ht rest⟩

/-- The annotation of a parameter is found whole. -/
lemma IsAnnotation.found (h : IsAnnotation marks) (hname : isName name)
    (ht : t.text ∈ [",", ")", "="]) (rest : List Token) :
    annotation? (name :: (marks ++ t :: rest)) = some (1, marks.length + 1) := by
  cases h with
  | required htyped =>
    obtain ⟨colon, type, rfl, hcolon, hscan⟩ := htyped.scan_eq ht rest
    simp [annotation?, hname, hcolon, hscan]
  | optional hmark htyped =>
    obtain ⟨colon, type, rfl, hcolon, hscan⟩ := htyped.scan_eq ht rest
    simp [annotation?, hname, hmark, hcolon, hscan]

/-- What may stand behind a parameter's annotation: a default value or the end of the parameter. -/
lemma IsDefault.scan_eq (h : value = [] ∨ IsDefault value) (hu : u.text ∈ [",", ")"])
    (rest : List Token) :
    scan [",", ")"] 0 (value ++ u :: rest) = value.length ∧
      ∃ t more, value ++ u :: rest = t :: more ∧ t.text ∈ [",", ")", "="] := by
  rcases h with rfl | @⟨equals, value, hequals, hvalue⟩
  · have hends : u.text ∈ [",", ")", "="] := List.mem_append_left ["="] hu
    exact ⟨by simp [scan, hu], u, rest, rfl, hends⟩
  · have hweight : weight equals = 0 := by simp [weight, isOpener, isCloser, hequals]
    refine ⟨?_, equals, _, rfl, by simp [hequals]⟩
    rw [List.cons_append, scan_of_weight (by simp [hequals]) (by simp [hweight]), hweight]
    exact congrArg (· + 1) (hvalue.scan_eq hu rest)

/-- A parameter ends where the tokens say, and its annotation is dropped from it. -/
lemma IsParameter.spec {parameter : Marked} (h : IsParameter parameter)
    (hnamed : Named (parameter.map Prod.fst)) (hu : u.text ∈ [",", ")"]) (rest : List Token)
    (k : Nat) :
    parameterLength (parameter.map Prod.fst ++ u :: rest) = parameter.length ∧
      Drops (parameterSpans k (parameter.map Prod.fst ++ u :: rest)) k parameter := by
  obtain @⟨name, marks, value, hname, hannotated, hdefaulted⟩ := h
  obtain ⟨hvalue, t, more, hmore, ht⟩ := IsDefault.scan_eq hdefaulted hu rest
  have htokens : (allLeft [name] ++ (allDropped marks ++ allLeft value)).map Prod.fst ++
      u :: rest = name :: (marks ++ t :: more) := by simp [← hmore]
  have hfree : endsType name = false ∧ isOpener name = false :=
    hnamed name (by simp) hname
  rw [htokens]
  rcases hannotated with rfl | hmarks
  · have hends : EndsAt (t :: more) := by
      rintro _ ⟨⟩
      simp only [List.mem_cons, List.not_mem_nil, or_false] at ht
      rcases ht with ht | ht | ht <;> simp [endsType, isCloser, ht]
    have hnone := annotation?_of_endsAt hends name
    constructor
    · rw [List.nil_append, parameterLength_of_none hnone, scan_name (by decide) hfree.1 hfree.2,
        ← hmore, hvalue]
      simp
    · simpa [parameterSpans, hnone] using drops_allLeft k (name :: value)
  · have hsome := hmarks.found hname ht more
    constructor
    · rw [parameterLength_of_some hsome, List.drop_succ_cons, List.drop_left, ← hmore, hvalue]
      simp
      omega
    · have hdrops := (drops_allLeft k [name]).append
        ((drops_allDropped (k + 1) marks).append (drops_allLeft _ value))
      simpa [parameterSpans, hsome, Nat.add_assoc, Nat.add_comm 1] using hdrops

/-- A parameter begins with its name, which does not end the list. -/
lemma IsParameter.text_ne {parameter : Marked} (h : IsParameter parameter)
    (hnamed : Named (parameter.map Prod.fst)) (ts : List Token) :
    ∀ t ∈ (parameter.map Prod.fst ++ ts).head?, t.text ≠ ")" := by
  obtain @⟨name, marks, value, hname, -, -⟩ := h
  intro t ht hclose
  obtain rfl : name = t := by simpa using ht
  have hends := (hnamed name (by simp) hname).1
  simp [endsType, isCloser, hclose] at hends

/-- The list of parameters is found whole, and the annotations are dropped from it. -/
lemma AreParameters.parameters_eq {marked : Marked} (h : AreParameters marked)
    (hnamed : Named (marked.map Prod.fst)) (hclose : t.text = ")") (rest : List Token) (k : Nat) :
    ∃ spans, parameters k (marked.map Prod.fst ++ t :: rest) = (spans, marked.length) ∧
      Drops spans k marked := by
  induction h generalizing k with
  | none => exact ⟨[], by simp [parameters, hclose], drops_allLeft k []⟩
  | last hparameter =>
    obtain ⟨hlength, hdrops⟩ := hparameter.spec hnamed (u := t) (by simp [hclose]) rest k
    refine ⟨_, ?_, hdrops⟩
    rw [parameters_of_last (hparameter.text_ne hnamed _), hlength]
    rw [hlength, List.drop_left' (List.length_map _)]
    rintro _ ⟨⟩ hcomma
    rw [hclose] at hcomma
    exact absurd hcomma (by decide)
  | @more parameter others comma hparameter hcomma _ ih =>
    rw [List.map_append, List.map_cons] at hnamed
    have hfirst := hnamed.mono (List.subset_append_left _ _)
    have hothers := (hnamed.mono (List.subset_append_right _ _)).cons
    rw [List.map_append, List.map_cons, List.append_assoc, List.cons_append]
    obtain ⟨hlength, hdrops⟩ := hparameter.spec hfirst (u := comma) (by simp [hcomma])
      (others.map Prod.fst ++ t :: rest) k
    obtain ⟨spans, hfound, hdrops'⟩ := ih hothers (k + parameter.length + 1)
    have hcommaLeft := drops_allLeft (k + parameter.length) [comma]
    refine ⟨_, ?_, hdrops.append (hcommaLeft.append hdrops')⟩
    rw [parameters_of_comma (hparameter.text_ne hfirst _)
      (by rw [hlength, List.drop_left' (List.length_map _)]) hcomma, hlength, hfound,
      List.length_append, List.length_cons, Nat.add_assoc, Nat.add_comm 1]
    rfl

/-! ### Steps -/

/-- The signature ends with the annotation of the result, if there is one, and with the list of
parameters otherwise. -/
lemma AreParameters.signature_eq {marked : Marked} {close : Token} {result : List Token}
    (h : AreParameters marked) (hnamed : Named (marked.map Prod.fst)) (hclose : close.text = ")")
    (htyped : result = [] ∨ IsTyped ["\x7b"] result) (ht : t.text = "\x7b") (rest : List Token)
    (k : Nat) :
    ∃ spans, signature k (marked.map Prod.fst ++ close :: (result ++ t :: rest)) =
        (spans, marked.length + (result.length + 1)) ∧
      Drops spans k (marked ++ (allLeft [close] ++ allDropped result)) := by
  obtain ⟨spans, hfound, hdrops⟩ := h.parameters_eq hnamed hclose (result ++ t :: rest) k
  have hdrop : (marked.map Prod.fst ++ close :: (result ++ t :: rest)).drop marked.length =
      close :: (result ++ t :: rest) := List.drop_left' (List.length_map _)
  have hcloseLeft := drops_allLeft (k + marked.length) [close]
  rcases htyped with rfl | htyped
  · have hcolon : ∀ u ∈ (t :: rest).head?, u.text ≠ ":" := by
      rintro _ ⟨⟩ hcolon
      rw [ht] at hcolon
      exact absurd hcolon (by decide)
    exact ⟨spans, signature_of_closed hfound hdrop hclose hcolon,
      by simpa using hdrops.append hcloseLeft⟩
  · obtain ⟨colon, type, rfl, hcolon, hscan⟩ := htyped.scan_eq (t := t) (by simp [ht]) rest
    have hresult := drops_allDropped (k + marked.length + 1) (colon :: type)
    have hstop : k + marked.length + 1 + (colon :: type).length =
        k + marked.length + 2 + type.length := by
      rw [List.length_cons]
      omega
    rw [hstop] at hresult
    refine ⟨_, ?_, hdrops.append (hcloseLeft.append hresult)⟩
    rw [List.cons_append] at hfound hdrop ⊢
    rw [signature_of_annotated hfound hdrop hclose hcolon, hscan, List.length_cons,
      Nat.add_assoc marked.length, Nat.add_comm 2]
    rfl

/-- A step covers marked tokens: it drops those that are marked so, and the walk goes on behind
all of them, where no declaration may begin. -/
def StepsOver (k : Nat) (atStart : Bool) (marked : Marked) (after : List Token) : Prop :=
  ∃ t rest, marked.map Prod.fst ++ after = t :: rest ∧
    (step k atStart t rest).more + 1 = marked.length ∧
    (step k atStart t rest).atStart = false ∧
    Drops (step k atStart t rest).spans k marked

/-- The head of a function is told by the tokens through its parenthesis. -/
lemma functionHeadLength?_eq {keyword opening : Token} {name : List Token}
    (hkeyword : keyword.text = "function") (hname : name = [] ∨ ∃ t, name = [t] ∧ isName t)
    (hopening : opening.text = "(") (hnamed : Named [opening]) (ts : List Token) :
    functionHeadLength? (keyword :: (name ++ opening :: ts)) = some (name.length + 2) := by
  have hparen : ¬ isName opening := fun h => by
    have := (hnamed opening List.mem_cons_self h).2
    simp [isOpener, hopening] at this
  rcases hname with rfl | ⟨t, rfl, ht⟩
  · simp [functionHeadLength?, hkeyword, hopening, hparen]
  · simp [functionHeadLength?, hkeyword, hopening, ht]

lemma IsHead.stepsOver {marked : Marked} (h : IsHead marked) (hnamed : Named (marked.map Prod.fst))
    (ht : t.text = "\x7b") (k : Nat) (atStart : Bool) (rest : List Token) :
    StepsOver k atStart marked (t :: rest) := by
  obtain @⟨keyword, opening, close, name, result, parameters, hkeyword, hname, hopening,
    hparameters, hclose, htyped⟩ := h
  have htokens : (allLeft (keyword :: (name ++ [opening])) ++
      (parameters ++ (allLeft [close] ++ allDropped result))).map Prod.fst ++ t :: rest =
        keyword :: (name ++ opening ::
          (parameters.map Prod.fst ++ close :: (result ++ t :: rest))) := by simp
  have hlist : Named (parameters.map Prod.fst) := hnamed.mono fun u hu => by
    simp only [List.map_append, List.mem_append]
    tauto
  have hparen : Named [opening] := hnamed.mono (by simp)
  have hhead := functionHeadLength?_eq hkeyword hname hopening hparen
    (parameters.map Prod.fst ++ close :: (result ++ t :: rest))
  have hdrop : (keyword :: (name ++ opening ::
      (parameters.map Prod.fst ++ close :: (result ++ t :: rest)))).drop (name.length + 2) =
        parameters.map Prod.fst ++ close :: (result ++ t :: rest) := by simp
  obtain ⟨spans, hfound, hdrops⟩ := hparameters.signature_eq hlist hclose htyped ht rest
    (k + (name.length + 2))
  refine ⟨_, _, htokens, ?_⟩
  rw [step_of_function hhead, hdrop, hfound]
  refine ⟨by simp, rfl, ?_⟩
  have hlength : (allLeft (keyword :: (name ++ [opening]))).length = name.length + 2 := by simp
  rw [← hlength] at hdrops
  exact (drops_allLeft k (keyword :: (name ++ [opening]))).append hdrops

lemma step_of_binding (h : annotatedBindingLength? (t :: rest) = some n) (k : Nat)
    (atStart : Bool) : step k atStart t rest = ⟨[⟨k + 2, k + n⟩], n - 1, false⟩ := by
  have hkeyword := (binding_spec h).1
  rcases step_cases k atStart t rest with ⟨m, -, hm, -⟩ | ⟨m, hm, hstep⟩ | ⟨m, hm, -⟩ | ⟨hnone, -⟩
  · rcases text_of_declaration hm with htext | htext <;>
      simp [isBindingKeyword, htext] at hkeyword
  · obtain rfl := Option.some.inj (h.symm.trans hm)
    exact hstep
  · simp [isBindingKeyword, (functionHead_spec hm).1] at hkeyword
  · rw [hnone.binding] at h
    cases h

lemma IsBinding.stepsOver {marked : Marked} (h : IsBinding marked) (ht : t.text ∈ ["=", ";", ","])
    (k : Nat) (atStart : Bool) (rest : List Token) :
    StepsOver k atStart marked (t :: rest) := by
  obtain @⟨keyword, name, typed, hkeyword, hname, htyped⟩ := h
  obtain ⟨colon, type, rfl, hcolon, hscan⟩ := htyped.scan_eq ht rest
  have hlength : annotatedBindingLength? (keyword :: name :: colon :: (type ++ t :: rest)) =
      some (type.length + 3) := by
    simp [annotatedBindingLength?, hkeyword, hname, hcolon, hscan]
  refine ⟨keyword, name :: colon :: (type ++ t :: rest), by simp, ?_⟩
  rw [step_of_binding hlength]
  refine ⟨by simp, rfl, ?_⟩
  have hdropped := (drops_allLeft k [keyword, name]).append
    (drops_allDropped (k + 2) (colon :: type))
  simpa [Nat.add_comm, Nat.add_left_comm] using hdropped

/-! ### The walk over the tokens -/

/-- The walk goes on from a token behind the tokens that the step there covers. -/
inductive GoesOn (ts : List Token) : Nat × Bool → Nat × Bool → Prop where
  | mk {k : Nat} {atStart : Bool} {t : Token} {rest : List Token} (found : ts.drop k = t :: rest) :
      GoesOn ts (k, atStart)
        (k + 1 + (step k atStart t rest).more, (step k atStart t rest).atStart)

/-- The walk comes to a token by its number, and a declaration may begin there or not. -/
def Arrives (ts : List Token) : Nat × Bool → Prop := Relation.ReflTransGen (GoesOn ts) (0, true)

/-- Where the walk comes to, what it dropped lies behind it, and the spans it has yet to find are
those of the tokens in front of it. -/
lemma Arrives.erasedSpans_eq {place : Nat × Bool} (h : Arrives ts place) :
    ∃ before, erasedSpans ts = before ++ spansFrom place.1 place.2 (ts.drop place.1) ∧
      ∀ s ∈ before, s.stop ≤ place.1 := by
  induction h with
  | refl => exact ⟨[], rfl, by simp⟩
  | tail _ hstep ih =>
    obtain @⟨k, atStart, t, rest, hfound⟩ := hstep
    obtain ⟨before, hspans, hbefore⟩ := ih
    dsimp only at hspans hbefore ⊢
    have hrest : rest = ts.drop (k + 1) := (length_lt_of_drop_eq_cons hfound).2
    refine ⟨before ++ (step k atStart t rest).spans, ?_, fun s hs => ?_⟩
    · rw [hspans, hfound, spansFrom_cons, List.append_assoc, ← List.drop_drop, ← hrest]
    · rcases List.mem_append.1 hs with hs | hs
      · have := hbefore s hs
        omega
      · have := (step_within hs).2.2
        omega

/-- Of the tokens that a step covers, the whole walk drops what the step drops. -/
lemma StepsOver.kept {marked : Marked} {atStart : Bool} {after : List Token}
    (h : StepsOver k atStart marked after) (harrives : Arrives ts (k, atStart))
    (hdrop : ts.drop k = marked.map Prod.fst ++ after) :
    (∀ i, (hi : i < marked.length) → isKept (erasedSpans ts) (k + i) = marked[i].2) ∧
      GoesOn ts (k, atStart) (k + marked.length, false) := by
  obtain ⟨t, rest, hcons, hlength, hstart, hdrops⟩ := h
  obtain ⟨before, hspans, hbefore⟩ := harrives.erasedSpans_eq
  dsimp only at hspans hbefore
  have hfound := hdrop.trans hcons
  rw [hfound, spansFrom_cons] at hspans
  refine ⟨fun i hi => ?_, ?_⟩
  · have hearlier : isKept before (k + i) := isKept_iff.2 fun s hs => .inr (by
      have := hbefore s hs
      omega)
    have hlater : isKept (spansFrom (k + 1 + (step k atStart t rest).more)
        (step k atStart t rest).atStart (rest.drop (step k atStart t rest).more)) (k + i) :=
      isKept_iff.2 fun s hs => .inl (by
        have := (spansFrom_within hs).1
        omega)
    rw [hspans, isKept_append, isKept_append, hearlier, hlater, Bool.true_and, Bool.and_true,
      hdrops.kept i hi]
  · have hgo : GoesOn ts (k, atStart) _ := .mk hfound
    rwa [hstart, Nat.add_assoc, Nat.add_comm 1, hlength] at hgo

/-- Annotations are erased exactly. Where the walk over the tokens of a text comes to an annotated
binding in front of what ends its type, or to the head of a function in front of the brace of its
body, and the types and the default values are balanced, the annotations are dropped, the other
tokens are left, and the walk goes on behind the annotations. -/
theorem annotations_erased {text : List Char} {atStart : Bool} {marked : Marked}
    (harrives : Arrives (tokens text) (k, atStart))
    (hdrop : (tokens text).drop k = marked.map Prod.fst ++ t :: rest)
    (hmarked : IsBinding marked ∧ t.text ∈ ["=", ";", ","] ∨ IsHead marked ∧ t.text = "\x7b") :
    (∀ i, (hi : i < marked.length) → isKept (erasedSpans (tokens text)) (k + i) = marked[i].2) ∧
      GoesOn (tokens text) (k, atStart) (k + marked.length, false) := by
  rcases hmarked with ⟨hbinding, ht⟩ | ⟨hhead, ht⟩
  · exact (hbinding.stepsOver ht k atStart rest).kept harrives hdrop
  · have hnamed := (Intermediate.named_tokens text).drop k
    rw [hdrop] at hnamed
    exact (hhead.stepsOver (hnamed.mono (List.subset_append_left _ _)) ht k atStart rest).kept
      harrives hdrop

/-- A name or a mark on the first line of a text. -/
private def sampleToken (kind : TokenKind) (text : String) (column : Nat) (spaced : Bool) : Token :=
  ⟨kind, text, column, 0, column, spaced⟩

theorem annotations_erased_after_type :
    let text := "type T = U; function f(a?: B<C, D> = [1], b): E[] \x7b".toList
    let name := sampleToken .name
    let mark := sampleToken .punctuation
    let optional := [mark "?" 24 false, mark ":" 25 false, name "B" 27 true, mark "<" 28 false,
      name "C" 29 false, mark "," 30 false, name "D" 32 true, mark ">" 33 false]
    let value := [mark "=" 35 true, mark "[" 37 true, sampleToken .number "1" 38 false,
      mark "]" 39 false]
    let result := [mark ":" 44 false, name "E" 46 true, mark "[" 47 false, mark "]" 48 false]
    let parameters : Marked :=
      allLeft [name "a" 23 false] ++ (allDropped optional ++ allLeft value) ++
        (mark "," 40 false, true) :: (allLeft [name "b" 42 true] ++ (allDropped [] ++ allLeft []))
    let marked := allLeft (name "function" 12 true :: ([name "f" 21 true] ++ [mark "(" 22 false])) ++
      (parameters ++ (allLeft [mark ")" 43 false] ++ allDropped result))
    Arrives (tokens text) (5, true) ∧
      (tokens text).drop 5 = marked.map Prod.fst ++ [mark "\x7b" 50 true] ∧ IsHead marked ∧
      (∀ i, (hi : i < marked.length) → isKept (erasedSpans (tokens text)) (5 + i) = marked[i].2) ∧
      GoesOn (tokens text) (5, true) (28, false) := by
  intro text name mark optional value result parameters marked
  have hfound : (tokens text).drop 0 = name "type" 0 false :: (tokens text).drop 1 := by
    decide +kernel
  have hstep : (step 0 true (name "type" 0 false) ((tokens text).drop 1)).more = 4 ∧
      (step 0 true (name "type" 0 false) ((tokens text).drop 1)).atStart = true := by
    decide +kernel
  have harrives : Arrives (tokens text) (5, true) := by
    have hgo : GoesOn (tokens text) (0, true) _ := .mk hfound
    rw [hstep.1, hstep.2] at hgo
    exact Relation.ReflTransGen.single hgo
  have hdrop : (tokens text).drop 5 = marked.map Prod.fst ++ [mark "\x7b" 50 true] := by
    decide +kernel
  have hfirst : IsParameter
      (allLeft [name "a" 23 false] ++ (allDropped optional ++ allLeft value)) :=
    ⟨by decide, .inr (.optional rfl ⟨rfl, by decide⟩), .inr ⟨rfl, by decide⟩⟩
  have hhead : IsHead marked :=
    ⟨rfl, .inr ⟨_, rfl, by decide⟩, rfl,
      .more hfirst rfl (.last ⟨by decide, .inl rfl, .inl rfl⟩), rfl, .inr ⟨rfl, by decide⟩⟩
  have herased := annotations_erased harrives hdrop (.inr ⟨hhead, rfl⟩)
  exact ⟨harrives, hdrop, hhead, herased⟩

end Provenance.Erasure
