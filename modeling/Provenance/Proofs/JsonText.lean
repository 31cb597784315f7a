import Mathlib.Data.List.TakeWhile
import Mathlib.Tactic.Common
import Provenance.Json.Printer
import Provenance.Json.Reader

/-!
# JSON is read as it is written

The compact text of a value is read as the form that spells it, and the form has the value. Numbers
are natural ones that fit a 64-bit word: those that documents of maps are written with.
-/

namespace Provenance.Json

/-! ### Values and their forms -/

mutual
/-- Whether the numbers of a value are natural and fit a 64-bit word. -/
def isPlain : Json → Bool
  | .int n => 0 ≤ n && n < UInt64.size
  | .float _ => false
  | .array items => arePlain items
  | .object fields => arePlainFields fields
  | _ => true

def arePlain : List Json → Bool
  | [] => true
  | v :: vs => isPlain v && arePlain vs

def arePlainFields : List (String × Json) → Bool
  | [] => true
  | (_, v) :: fs => isPlain v && arePlainFields fs
end

/-- The pieces of a string that is written without surrogates. -/
def pieces (s : String) : List Quoted.Piece := s.toList.map .char

mutual
/-- The form in which a value is written. -/
def written : Json → Written
  | .null => .null
  | .bool b => .bool b
  | .int n => .number ⟨false, (toString n).toList, none, none⟩
  | .float _ => .null
  | .string s => .string (pieces s)
  | .array items => .array (writtenItems items)
  | .object fields => .object (writtenFields fields)

def writtenItems : List Json → List Written
  | [] => []
  | v :: vs => written v :: writtenItems vs

def writtenFields : List (String × Json) → List (List Quoted.Piece × Written)
  | [] => []
  | (k, v) :: fs => (pieces k, written v) :: writtenFields fs
end

/-! ### Numbers -/

namespace Number

lemma digit_digitChar : ∀ n < 10, digit (Nat.digitChar n) = n := by decide

lemma isDigit_of_mem_toDigits {n : Nat} {c : Char} (h : c ∈ Nat.toDigits 10 n) : isDigit c := by
  have := Nat.isDigit_of_mem_toDigits (by decide) (by decide) h
  simpa [Char.isDigit, isDigit, Char.le_def, ge_iff_le] using this

/-- The number that digits spell after one that is already read. -/
def valueFrom (word : Nat) (ds : List Char) : Nat := ds.foldl (fun n c => n * 10 + digit c) word

lemma le_valueFrom (word : Nat) (ds : List Char) : word ≤ valueFrom word ds := by
  induction ds generalizing word with
  | nil => exact Nat.le_refl _
  | cons c cs ih =>
    have := ih (word * 10 + digit c)
    simp only [valueFrom, List.foldl_cons] at this ⊢
    omega

lemma valueFrom_toDigits (n : Nat) : valueFrom 0 (Nat.toDigits 10 n) = n := by
  induction n using Nat.strongRecOn with
  | ind n ih =>
    by_cases hn : n < 10
    · simp [Nat.toDigits_of_lt_base hn, valueFrom, digit_digitChar n hn]
    · rw [Nat.toDigits_of_base_le (by decide) (by omega)]
      have hdiv := ih (n / 10) (by omega)
      have hmod := digit_digitChar (n % 10) (by omega)
      simp only [valueFrom, List.foldl_append, List.foldl_cons, List.foldl_nil] at hdiv ⊢
      rw [hdiv, hmod]
      omega

/-- No zero leads other digits. -/
lemma toDigits_eq_zero_cons {n : Nat} {rest : List Char}
    (h : Nat.toDigits 10 n = '0' :: rest) : rest = [] := by
  induction n using Nat.strongRecOn generalizing rest with
  | ind n ih =>
    by_cases hn : n < 10
    · rw [Nat.toDigits_of_lt_base hn] at h
      exact (List.cons.inj h).2.symm
    · rw [Nat.toDigits_of_base_le (by decide) (by omega)] at h
      have hne : Nat.toDigits 10 (n / 10) ≠ [] := Nat.toDigits_ne_nil
      obtain ⟨c, cs, hcs⟩ := List.exists_cons_of_ne_nil hne
      rw [hcs, List.cons_append] at h
      obtain ⟨rfl, -⟩ := List.cons.inj h
      -- a quotient with a leading zero would be zero
      have hzero := valueFrom_toDigits (n / 10)
      rw [hcs, ih (n / 10) (by omega) hcs] at hzero
      simp only [valueFrom, List.foldl_cons, List.foldl_nil, digit] at hzero
      omega

lemma accumulate_eq (word : Nat) (ds : List Char) (h : valueFrom word ds < UInt64.size) :
    accumulate word ds = (valueFrom word ds, ds.length, 0) := by
  induction ds generalizing word with
  | nil => rfl
  | cons c cs ih =>
    have hle := le_valueFrom (word * 10 + digit c) cs
    have hlt : word * 10 + digit c < UInt64.size := by
      simp only [valueFrom, List.foldl_cons] at h hle
      omega
    rw [accumulate, if_pos hlt, ih _ h]
    rfl

lemma takeWhile_append_of_all {test : Char → Bool} {ds rest : List Char}
    (hds : ∀ c ∈ ds, test c) (hrest : ∀ c ∈ rest.head?, test c = false) :
    (ds ++ rest).takeWhile test = ds ∧ (ds ++ rest).dropWhile test = rest := by
  rw [List.takeWhile_append_of_pos hds, List.dropWhile_append_of_pos hds]
  cases rest with
  | nil => simp
  | cons c cs => simp [hrest c rfl]

end Number

/-- A text in front of which a number ends. -/
def EndsNumber (rest : List Char) : Prop :=
  ∀ c ∈ rest.head?, Number.isDigit c = false ∧ c ≠ '.' ∧ c ≠ 'e' ∧ c ≠ 'E'

namespace Number

lemma literal?_toDigits (n : Nat) {rest : List Char} (h : EndsNumber rest) :
    literal? (Nat.toDigits 10 n ++ rest) =
      some (⟨false, Nat.toDigits 10 n, none, none⟩, rest) := by
  obtain ⟨c, cs, hcs⟩ := List.exists_cons_of_ne_nil (Nat.toDigits_ne_nil (n := n) (b := 10))
  have hdigit : isDigit c := isDigit_of_mem_toDigits (n := n) (by simp [hcs])
  have hdigits : ∀ c ∈ Nat.toDigits 10 n, isDigit c := fun c hc => isDigit_of_mem_toDigits hc
  obtain ⟨htake, hdrop⟩ := takeWhile_append_of_all hdigits fun c hc => (h c hc).1
  -- all digits are read, as a number of several digits has no zero in front
  have hwhole : whole? (Nat.toDigits 10 n ++ rest) = some (Nat.toDigits 10 n, rest) := by
    have hdigits : digits? (Nat.toDigits 10 n ++ rest) = some (Nat.toDigits 10 n, rest) := by
      unfold digits?
      rw [htake, hdrop, hcs]
    unfold whole?
    rw [hdigits]
    split
    · next heq =>
      obtain ⟨hzero, -⟩ := Prod.mk.inj (Option.some.inj heq)
      cases toDigits_eq_zero_cons hzero
    · rfl
  -- neither a fraction nor an exponent follows
  have hmagnitude : magnitude? false (Nat.toDigits 10 n ++ rest) =
      some (⟨false, Nat.toDigits 10 n, none, none⟩, rest) := by
    unfold magnitude?
    rw [hwhole]
    cases rest with
    | nil => rfl
    | cons d ds =>
      obtain ⟨-, hpoint, he, hE⟩ := h d rfl
      have hfraction : fraction? (d :: ds) = some (none, d :: ds) := by
        unfold fraction?
        split
        · next heq => exact absurd (List.cons.inj heq).1 hpoint
        · rfl
      have hexponent : exponent? (d :: ds) = some (none, d :: ds) := by
        simp [exponent?, he, hE]
      simp only [hfraction, hexponent]
  -- and no sign stands in front
  rw [hcs] at hmagnitude ⊢
  unfold literal?
  split
  · next heq =>
    obtain rfl := (List.cons.inj heq).1
    exact absurd hdigit (by decide)
  · exact hmagnitude

lemma value?_toDigits {n : Nat} (h : n < UInt64.size) :
    (⟨false, Nat.toDigits 10 n, none, none⟩ : Literal).value? = some (.int n) := by
  have hvalue := valueFrom_toDigits n
  have := accumulate_eq 0 (Nat.toDigits 10 n) (by rw [hvalue]; exact h)
  rw [hvalue] at this
  simp [Literal.value?, this]

end Number

/-! ### Reading -/

namespace Reader

/-- What a reading found, without the proof that it found something. -/
def found {α : Type} {s : List Char} (r : Reading α s) : α × List Char := (r.value, r.rest)

lemma skipBlank_cons {c : Char} (h : isBlank c = false) (cs : List Char) :
    skipBlank (c :: cs) = c :: cs := by
  simp [skipBlank, h]

lemma string?_pieces (s : String) (rest : List Char) :
    (string? (Quoted.encode s.toList ++ '"' :: rest)).map found = some (pieces s, rest) := by
  unfold string?
  have h := Quoted.pieces?_encode s.toList rest
  split
  · next heq => simp [h] at heq
  · next heq =>
    rw [h] at heq
    obtain ⟨rfl, rfl⟩ := Prod.mk.inj (Option.some.inj heq)
    rfl

/-! What the readers find at each beginning, without the proofs of progress that they carry. -/

lemma form?_string {r rest : List Char} {t : List Quoted.Piece}
    (h : (string? r).map found = some (t, rest)) :
    (form? ('"' :: r)).map found = some (.string t, rest) := by
  obtain ⟨reading, hr, hfound⟩ := Option.map_eq_some_iff.1 h
  obtain ⟨rfl, rfl⟩ := Prod.mk.inj hfound
  rw [form?, hr]
  rfl

lemma form?_emptyArray {r rest : List Char} (h : skipBlank r = ']' :: rest) :
    (form? ('[' :: r)).map found = some (.array [], rest) := by
  rw [form?]
  split <;> simp_all [found]

lemma form?_array {r rest : List Char} {ws : List Written} (hr : ∀ cs, skipBlank r ≠ ']' :: cs)
    (h : (items? (skipBlank r)).map found = some (ws, rest)) :
    (form? ('[' :: r)).map found = some (.array ws, rest) := by
  obtain ⟨reading, hitems, hfound⟩ := Option.map_eq_some_iff.1 h
  obtain ⟨rfl, rfl⟩ := Prod.mk.inj hfound
  rw [form?]
  split
  · next heq => exact absurd heq (hr _)
  · rw [hitems]
    rfl

lemma form?_emptyObject {r rest : List Char} (h : skipBlank r = '}' :: rest) :
    (form? ('{' :: r)).map found = some (.object [], rest) := by
  rw [form?]
  split <;> simp_all [found]

lemma form?_object {r rest : List Char} {fs : List (List Quoted.Piece × Written)}
    (hr : ∀ cs, skipBlank r ≠ '}' :: cs)
    (h : (fields? (skipBlank r)).map found = some (fs, rest)) :
    (form? ('{' :: r)).map found = some (.object fs, rest) := by
  obtain ⟨reading, hfields, hfound⟩ := Option.map_eq_some_iff.1 h
  obtain ⟨rfl, rfl⟩ := Prod.mk.inj hfound
  rw [form?]
  split
  · next heq => exact absurd heq (hr _)
  · rw [hfields]
    rfl

lemma items?_last {s r rest : List Char} {w : Written}
    (h : (form? s).map found = some (w, r)) (hr : skipBlank r = ']' :: rest) :
    (items? s).map found = some ([w], rest) := by
  obtain ⟨reading, hform, hfound⟩ := Option.map_eq_some_iff.1 h
  obtain ⟨rfl, rfl⟩ := Prod.mk.inj hfound
  rw [items?, hform]
  dsimp only
  split <;> simp_all [found]

lemma items?_next {s r t rest : List Char} {w : Written} {ws : List Written}
    (h : (form? s).map found = some (w, r)) (hr : skipBlank r = ',' :: t)
    (hitems : (items? (skipBlank t)).map found = some (ws, rest)) :
    (items? s).map found = some (w :: ws, rest) := by
  obtain ⟨reading, hform, hfound⟩ := Option.map_eq_some_iff.1 h
  obtain ⟨rfl, rfl⟩ := Prod.mk.inj hfound
  obtain ⟨reading', hitems', hfound'⟩ := Option.map_eq_some_iff.1 hitems
  obtain ⟨rfl, rfl⟩ := Prod.mk.inj hfound'
  rw [items?, hform]
  dsimp only
  split
  · simp_all
  · next heq =>
    obtain rfl : t = _ := by simpa [hr] using heq
    rw [hitems']
    rfl
  · simp_all

lemma fields?_last {k r t q rest : List Char} {key : List Quoted.Piece} {w : Written}
    (hkey : (string? k).map found = some (key, r)) (hr : skipBlank r = ':' :: t)
    (h : (form? (skipBlank t)).map found = some (w, q)) (hq : skipBlank q = '}' :: rest) :
    (fields? ('"' :: k)).map found = some ([(key, w)], rest) := by
  obtain ⟨reading, hstring, hfound⟩ := Option.map_eq_some_iff.1 hkey
  obtain ⟨rfl, rfl⟩ := Prod.mk.inj hfound
  obtain ⟨reading', hform, hfound'⟩ := Option.map_eq_some_iff.1 h
  obtain ⟨rfl, rfl⟩ := Prod.mk.inj hfound'
  rw [fields?, hstring]
  dsimp only
  split
  · next heq =>
    obtain rfl : t = _ := by simpa [hr] using heq
    rw [hform]
    dsimp only
    split <;> simp_all [found]
  · simp_all

lemma fields?_next {k r t q u rest : List Char} {key : List Quoted.Piece} {w : Written}
    {fs : List (List Quoted.Piece × Written)}
    (hkey : (string? k).map found = some (key, r)) (hr : skipBlank r = ':' :: t)
    (h : (form? (skipBlank t)).map found = some (w, q)) (hq : skipBlank q = ',' :: u)
    (hfields : (fields? (skipBlank u)).map found = some (fs, rest)) :
    (fields? ('"' :: k)).map found = some ((key, w) :: fs, rest) := by
  obtain ⟨reading, hstring, hfound⟩ := Option.map_eq_some_iff.1 hkey
  obtain ⟨rfl, rfl⟩ := Prod.mk.inj hfound
  obtain ⟨reading', hform, hfound'⟩ := Option.map_eq_some_iff.1 h
  obtain ⟨rfl, rfl⟩ := Prod.mk.inj hfound'
  obtain ⟨reading'', hfields', hfound''⟩ := Option.map_eq_some_iff.1 hfields
  obtain ⟨rfl, rfl⟩ := Prod.mk.inj hfound''
  rw [fields?, hstring]
  dsimp only
  split
  · next heq =>
    obtain rfl : t = _ := by simpa [hr] using heq
    rw [hform]
    dsimp only
    split
    · simp_all
    · next heq' =>
      obtain rfl : u = _ := by simpa [hq] using heq'
      rw [hfields']
      rfl
    · simp_all
  · simp_all

lemma form?_number {c : Char} {cs rest : List Char} {l : Number.Literal}
    (hc : Number.isDigit c) (h : Number.literal? (c :: cs) = some (l, rest)) :
    (form? (c :: cs)).map found = some (.number l, rest) := by
  have hnumber : (number? (c :: cs)).map found = some (l, rest) := by
    unfold number?
    split
    · simp_all
    · next heq =>
      rw [h] at heq
      obtain ⟨rfl, rfl⟩ := Prod.mk.inj (Option.some.inj heq)
      rfl
  obtain ⟨reading, hreading, hfound⟩ := Option.map_eq_some_iff.1 hnumber
  obtain ⟨rfl, rfl⟩ := Prod.mk.inj hfound
  rw [form?]
  · rw [hreading]
    rfl
  all_goals
    intro cs' heq
    obtain rfl := (List.cons.inj heq).1
    exact absurd hc (by decide)

end Reader

/-! ### Texts of values -/

lemma chars_int (n : Nat) : chars (.int n) = Nat.toDigits 10 n := Nat.toList_repr

lemma exists_nat_of_isPlain {n : Int} (h : isPlain (.int n)) :
    ∃ m : Nat, n = m ∧ m < UInt64.size := by
  simp only [isPlain, Bool.and_eq_true, decide_eq_true_eq] at h
  exact ⟨n.toNat, by omega, by omega⟩

/-- The text of a value begins with no blank and with nothing that closes an array. -/
lemma exists_head_chars {v : Json} (h : v.isPlain) :
    ∃ c cs, v.chars = c :: cs ∧ Reader.isBlank c = false ∧ c ≠ ']' := by
  cases v with
  | null => exact ⟨_, _, rfl, by decide, by decide⟩
  | bool b => cases b <;> exact ⟨_, _, rfl, by decide, by decide⟩
  | int n =>
    obtain ⟨m, rfl, -⟩ := exists_nat_of_isPlain h
    obtain ⟨c, cs, hcs⟩ := List.exists_cons_of_ne_nil (Nat.toDigits_ne_nil (n := m) (b := 10))
    have hdigit : Number.isDigit c := Number.isDigit_of_mem_toDigits (n := m) (by simp [hcs])
    refine ⟨c, cs, by rw [chars_int, hcs], ?_, ?_⟩
    · by_contra hblank
      simp only [Reader.isBlank, Bool.not_eq_false, Bool.or_eq_true, decide_eq_true_eq] at hblank
      rcases hblank with ((rfl | rfl) | rfl) | rfl <;> exact absurd hdigit (by decide)
    · rintro rfl
      exact absurd hdigit (by decide)
  | float x => simp [isPlain] at h
  | string s => exact ⟨_, _, rfl, by decide, by decide⟩
  | array items => exact ⟨_, _, rfl, by decide, by decide⟩
  | object fields => exact ⟨_, _, rfl, by decide, by decide⟩

lemma exists_head_itemsChars {v : Json} {vs : List Json} (h : arePlain (v :: vs)) :
    ∃ c cs, itemsChars (v :: vs) = c :: cs ∧ Reader.isBlank c = false ∧ c ≠ ']' := by
  obtain ⟨hv, -⟩ : v.isPlain ∧ arePlain vs := by simpa [arePlain] using h
  obtain ⟨c, cs, hcs, hc⟩ := exists_head_chars hv
  cases vs with
  | nil => exact ⟨c, cs, hcs, hc⟩
  | cons w vs => exact ⟨c, _, by rw [itemsChars, hcs, List.cons_append], hc⟩

lemma endsNumber_cons {c : Char} (h : c = ',' ∨ c = ']' ∨ c = '}') (cs : List Char) :
    EndsNumber (c :: cs) := by
  rintro d hd
  obtain rfl : c = d := by simpa using hd
  rcases h with rfl | rfl | rfl <;> decide

lemma arePlain_cons {v : Json} {vs : List Json} (h : arePlain (v :: vs)) :
    v.isPlain ∧ arePlain vs := by
  simpa [arePlain] using h

lemma arePlainFields_cons {k : String} {v : Json} {fs : List (String × Json)}
    (h : arePlainFields ((k, v) :: fs)) : v.isPlain ∧ arePlainFields fs := by
  simpa [arePlainFields] using h

namespace Reader

lemma skipBlank_chars {v : Json} (h : v.isPlain) (rest : List Char) :
    skipBlank (v.chars ++ rest) = v.chars ++ rest := by
  obtain ⟨c, cs, hcs, hblank, -⟩ := exists_head_chars h
  rw [hcs, List.cons_append]
  exact skipBlank_cons hblank _

lemma skipBlank_itemsChars {v : Json} {vs : List Json} (h : arePlain (v :: vs))
    (rest : List Char) :
    skipBlank (itemsChars (v :: vs) ++ rest) = itemsChars (v :: vs) ++ rest := by
  obtain ⟨c, cs, hcs, hblank, -⟩ := exists_head_itemsChars h
  rw [hcs, List.cons_append]
  exact skipBlank_cons hblank _

lemma exists_fieldsChars (f : String × Json) (fs : List (String × Json)) :
    ∃ cs, fieldsChars (f :: fs) = '"' :: cs := by
  cases fs <;> exact ⟨_, rfl⟩

lemma skipBlank_fieldsChars (f : String × Json) (fs : List (String × Json)) (rest : List Char) :
    skipBlank (fieldsChars (f :: fs) ++ rest) = fieldsChars (f :: fs) ++ rest := by
  obtain ⟨cs, hcs⟩ := exists_fieldsChars f fs
  rw [hcs, List.cons_append]
  exact skipBlank_cons (by decide) _

mutual
/-- The text of a value is read as its form, up to where it ends. -/
theorem form?_chars : ∀ (v : Json) (rest : List Char), v.isPlain → EndsNumber rest →
    (form? (v.chars ++ rest)).map found = some (v.written, rest)
  | .null, rest, _, _ => by simp [chars, form?, found, written]
  | .bool true, rest, _, _ => by simp [chars, form?, found, written]
  | .bool false, rest, _, _ => by simp [chars, form?, found, written]
  | .int n, rest, h, hrest => by
    obtain ⟨m, rfl, -⟩ := exists_nat_of_isPlain h
    obtain ⟨c, cs, hcs⟩ := List.exists_cons_of_ne_nil (Nat.toDigits_ne_nil (n := m) (b := 10))
    have hdigit : Number.isDigit c := Number.isDigit_of_mem_toDigits (n := m) (by simp [hcs])
    have hliteral := Number.literal?_toDigits m hrest
    rw [chars_int, written, show (toString (m : Int)).toList = _ from chars_int m]
    rw [hcs, List.cons_append] at hliteral ⊢
    exact form?_number hdigit hliteral
  | .float x, rest, h, _ => by simp [isPlain] at h
  | .string s, rest, _, _ => by
    have hchars : (Json.string s).chars ++ rest =
        '"' :: (Quoted.encode s.toList ++ '"' :: rest) := by
      simp [chars, Quoted.quote]
    rw [hchars]
    exact form?_string (string?_pieces s rest)
  | .array [], rest, _, _ => form?_emptyArray (skipBlank_cons (by decide) rest)
  | .array (v :: vs), rest, h, _ => by
    have hchars : (Json.array (v :: vs)).chars ++ rest =
        '[' :: (itemsChars (v :: vs) ++ ']' :: rest) := by
      simp [chars]
    have hitems := items?_chars (v :: vs) rest (List.cons_ne_nil v vs) h
    rw [← skipBlank_itemsChars h] at hitems
    rw [hchars]
    refine form?_array (fun ds hds => ?_) hitems
    obtain ⟨c, cs, hcs, -, hclose⟩ := exists_head_itemsChars h
    rw [skipBlank_itemsChars h, hcs, List.cons_append] at hds
    exact hclose (List.cons.inj hds).1
  | .object [], rest, _, _ => form?_emptyObject (skipBlank_cons (by decide) rest)
  | .object ((k, v) :: fs), rest, h, _ => by
    have hchars : (Json.object ((k, v) :: fs)).chars ++ rest =
        '{' :: (fieldsChars ((k, v) :: fs) ++ '}' :: rest) := by
      simp [chars]
    have hfields := fields?_chars ((k, v) :: fs) rest (List.cons_ne_nil _ fs) h
    rw [← skipBlank_fieldsChars] at hfields
    rw [hchars]
    refine form?_object (fun ds hds => ?_) hfields
    obtain ⟨cs, hcs⟩ := exists_fieldsChars (k, v) fs
    rw [skipBlank_fieldsChars, hcs, List.cons_append] at hds
    exact absurd (List.cons.inj hds).1 (by decide)

theorem items?_chars : ∀ (vs : List Json) (rest : List Char), vs ≠ [] → arePlain vs →
    (items? (itemsChars vs ++ ']' :: rest)).map found = some (writtenItems vs, rest)
  | [], _, h, _ => absurd rfl h
  | [v], rest, _, h => by
    have hform := form?_chars v (']' :: rest) (arePlain_cons h).1 (endsNumber_cons (by simp) rest)
    exact items?_last hform (skipBlank_cons (by decide) rest)
  | v :: w :: vs, rest, _, h => by
    obtain ⟨hv, hvs⟩ := arePlain_cons h
    have hchars : itemsChars (v :: w :: vs) ++ ']' :: rest =
        v.chars ++ ',' :: (itemsChars (w :: vs) ++ ']' :: rest) := by
      simp [itemsChars]
    have hitems := items?_chars (w :: vs) rest (List.cons_ne_nil w vs) hvs
    rw [← skipBlank_itemsChars hvs] at hitems
    rw [hchars]
    exact items?_next (form?_chars v _ hv (endsNumber_cons (by simp) _))
      (skipBlank_cons (by decide) _) hitems

theorem fields?_chars : ∀ (fs : List (String × Json)) (rest : List Char), fs ≠ [] →
    arePlainFields fs →
      (fields? (fieldsChars fs ++ '}' :: rest)).map found = some (writtenFields fs, rest)
  | [], _, h, _ => absurd rfl h
  | [(k, v)], rest, _, h => by
    have hv := (arePlainFields_cons h).1
    have hchars : fieldsChars [(k, v)] ++ '}' :: rest =
        '"' :: (Quoted.encode k.toList ++ '"' :: ':' :: (v.chars ++ '}' :: rest)) := by
      simp [fieldsChars, Quoted.quote]
    have hform := form?_chars v ('}' :: rest) hv (endsNumber_cons (by simp) rest)
    rw [← skipBlank_chars hv] at hform
    rw [hchars]
    exact fields?_last (string?_pieces k _) (skipBlank_cons (by decide) _) hform
      (skipBlank_cons (by decide) rest)
  | (k, v) :: (l, w) :: fs, rest, _, h => by
    obtain ⟨hv, hfs⟩ := arePlainFields_cons h
    have hchars : fieldsChars ((k, v) :: (l, w) :: fs) ++ '}' :: rest =
        '"' :: (Quoted.encode k.toList ++ '"' :: ':' ::
          (v.chars ++ ',' :: (fieldsChars ((l, w) :: fs) ++ '}' :: rest))) := by
      simp [fieldsChars, Quoted.quote]
    have hform := form?_chars v (',' :: (fieldsChars ((l, w) :: fs) ++ '}' :: rest)) hv
      (endsNumber_cons (by simp) _)
    rw [← skipBlank_chars hv] at hform
    have hfields := fields?_chars ((l, w) :: fs) rest (List.cons_ne_nil _ fs) hfs
    rw [← skipBlank_fieldsChars] at hfields
    rw [hchars]
    exact fields?_next (string?_pieces k _) (skipBlank_cons (by decide) _) hform
      (skipBlank_cons (by decide) _) hfields
end

end Reader

/-! ### Whole texts -/

lemma ofText?_of_form? {text : String} {w : Written}
    (h : (Reader.form? (Reader.skipBlank text.toList)).map Reader.found = some (w, [])) :
    Written.ofText? text = some w := by
  obtain ⟨reading, hreading, hfound⟩ := Option.map_eq_some_iff.1 h
  obtain ⟨hvalue, hrest⟩ := Prod.mk.inj hfound
  unfold Written.ofText?
  split
  · simp_all
  · next heq =>
    obtain rfl := Option.some.inj (hreading.symm.trans heq)
    dsimp only at hvalue hrest
    rw [hrest, hvalue]
    rfl

/-- The text of a value is read as its form. -/
theorem ofText?_text {v : Json} (h : v.isPlain) : Written.ofText? v.text = some v.written := by
  have hform := Reader.form?_chars v [] h fun c hc => by simp at hc
  have hskip := Reader.skipBlank_chars h []
  rw [List.append_nil] at hform hskip
  refine ofText?_of_form? ?_
  rw [text, String.toList_ofList, hskip]
  exact hform

@[simp] lemma text?_pieces (s : String) : Written.text? (pieces s) = some s := by
  simp [Written.text?, pieces]

mutual
/-- The form in which a value is written has that value. -/
theorem value?_written : ∀ v : Json, v.isPlain → v.written.value? = some v
  | .null, _ => rfl
  | .bool _, _ => rfl
  | .int n, h => by
    obtain ⟨m, rfl, hm⟩ := exists_nat_of_isPlain h
    rw [written, show (toString (m : Int)).toList = _ from chars_int m, Written.value?]
    exact Number.value?_toDigits hm
  | .float _, h => by simp [isPlain] at h
  | .string s, _ => by simp [written, Written.value?]
  | .array items, h => by simp [written, Written.value?, itemValues?_written items h]
  | .object fields, h => by simp [written, Written.value?, fieldValues?_written fields h]

theorem itemValues?_written : ∀ vs : List Json, arePlain vs →
    Written.itemValues? (writtenItems vs) = some vs
  | [], _ => rfl
  | v :: vs, h => by
    obtain ⟨hv, hvs⟩ := arePlain_cons h
    simp [writtenItems, Written.itemValues?, value?_written v hv, itemValues?_written vs hvs]

theorem fieldValues?_written : ∀ fs : List (String × Json), arePlainFields fs →
    Written.fieldValues? (writtenFields fs) = some fs
  | [], _ => rfl
  | (k, v) :: fs, h => by
    obtain ⟨hv, hfs⟩ := arePlainFields_cons h
    simp [writtenFields, Written.fieldValues?, value?_written v hv, fieldValues?_written fs hfs]
end

end Provenance.Json
