import Mathlib.Data.Nat.Digits.Defs
import Mathlib.Tactic.Common
import Provenance.Mapping.DebugId

/-!
# Debug identifiers as text

An identifier with hyphens is read as it was written, and so is a timestamp with its age. A
timestamp without an age is not: its eight digits alone are no identifier (`ofText?_bareTimestamp`).
-/

namespace Provenance

/-! ### Numbers in hexadecimal -/

namespace Hex

lemma value?_digitChar : ∀ n < 16, value? (Nat.digitChar n) = some n := by decide

lemma value?_toUpper : ∀ n < 16, value? (Nat.digitChar n).toUpper = some n := by decide

lemma ofDigits?_concat (ds : List Char) (c : Char) :
    ofDigits? (ds ++ [c]) = (ofDigits? ds).bind fun n => (value? c).map (16 * n + ·) := by
  rw [ofDigits?, List.foldlM_append]
  cases h : ds.foldlM (fun n c => (value? c).map (16 * n + ·)) 0 with
  | none => simp [ofDigits?, h]
  | some n => simp [ofDigits?, h]

/-- Digits are read as the number that was written, in either case. -/
lemma ofDigits?_toDigits {f : Char → Char}
    (h : ∀ n < 16, value? (f (Nat.digitChar n)) = some n) (n : Nat) :
    ofDigits? ((Nat.toDigits 16 n).map f) = some n := by
  induction n using Nat.strongRecOn with
  | ind n ih =>
    by_cases hn : n < 16
    · rw [Nat.toDigits_of_lt_base hn]
      simp [ofDigits?, h n hn]
    · rw [Nat.toDigits_of_base_le (by decide) (by omega), List.map_append, List.map_singleton,
        ofDigits?_concat, ih (n / 16) (by omega), Option.bind_some, h (n % 16) (by omega)]
      exact congrArg some (Nat.div_add_mod n 16)

/-- Leading zeros count for nothing. -/
lemma ofDigits?_zeros (k : Nat) (ds : List Char) :
    ofDigits? (List.replicate k '0' ++ ds) = ofDigits? ds := by
  induction k with
  | zero => rfl
  | succ k ih =>
    rw [List.replicate_succ, List.cons_append, ← ih]
    rfl

lemma isDigit_of_mem_toDigits {f : Char → Char}
    (h : ∀ n < 16, value? (f (Nat.digitChar n)) = some n) {n : Nat} {c : Char}
    (hc : c ∈ (Nat.toDigits 16 n).map f) : isDigit c := by
  induction n using Nat.strongRecOn with
  | ind n ih =>
    by_cases hn : n < 16
    · rw [Nat.toDigits_of_lt_base hn, List.map_singleton, List.mem_singleton] at hc
      rw [hc, isDigit, h n hn]
      rfl
    · rw [Nat.toDigits_of_base_le (by decide) (by omega), List.map_append, List.mem_append,
        List.map_singleton, List.mem_singleton] at hc
      rcases hc with hc | rfl
      · exact ih (n / 16) (by omega) hc
      · rw [isDigit, h (n % 16) (by omega)]
        rfl

lemma length_toDigits_le (n : UInt32) : (Nat.toDigits 16 n.toNat).length ≤ 8 :=
  (Nat.length_toDigits_le_iff (by decide) (by decide)).mpr n.toNat_lt

/-- Digits are in ASCII, and none of them is a sign. -/
lemma isDigit_cases {c : Char} (h : isDigit c) : c.toNat < 128 ∧ c ≠ '-' ∧ c ≠ '+' := by
  have hbound : ∀ {lo hi : Char}, lo ≤ c ∧ c ≤ hi → hi.toNat < 128 → c.toNat < 128 := by
    intro lo hi hc hhi
    exact Nat.lt_of_le_of_lt (UInt32.le_iff_toNat_le.mp hc.2) hhi
  refine ⟨?_, ?_, ?_⟩
  · unfold isDigit value? at h
    split at h
    · next hc => exact hbound hc (by decide)
    split at h
    · next hc => exact hbound hc (by decide)
    split at h
    · next hc => exact hbound hc (by decide)
    · cases h
  · rintro rfl
    exact absurd h (by decide)
  · rintro rfl
    exact absurd h (by decide)

lemma isDigit_toLower {c : Char} (h : isDigit c) :
    isDigit c.toLower ∧ c.toLower.toLower = c.toLower := by
  have hall : ∀ n < 128, isDigit (Char.ofNat n) →
      isDigit (Char.ofNat n).toLower ∧
        (Char.ofNat n).toLower.toLower = (Char.ofNat n).toLower := by decide
  have := hall c.toNat (isDigit_cases h).1
  rw [Char.ofNat_toNat] at this
  exact this h

end Hex

namespace DebugId

/-! ### Words and ages -/

/-- Hexadecimal digits of a word are read, whatever zeros lead them. -/
lemma hexWord?_of_digits {ds : List Char} {n : UInt32} (hne : ds ≠ [])
    (hdigits : ∀ c ∈ ds, Hex.isDigit c) (h : Hex.ofDigits? ds = some n.toNat) :
    hexWord? ds = some n := by
  obtain ⟨c, cs, rfl⟩ := List.exists_cons_of_ne_nil hne
  have hc : c ≠ '+' := (Hex.isDigit_cases (hdigits c List.mem_cons_self)).2.2
  have hlt : n.toNat < UInt32.size := n.toNat_lt
  unfold hexWord?
  split
  · next heq => exact absurd (List.cons.inj heq).1 hc
  · simp only [List.isEmpty_cons, h, Option.bind_some, if_pos hlt]
    simp

/-- An age as digits. -/
def ageDigits (age : UInt32) : List Char := Nat.toDigits 16 age.toNat

lemma isDigit_of_mem_ageDigits {age : UInt32} {c : Char} (h : c ∈ ageDigits age) :
    Hex.isDigit c := by
  refine Hex.isDigit_of_mem_toDigits (f := id) Hex.value?_digitChar (n := age.toNat) ?_
  rwa [List.map_id]

lemma hexWord?_ageDigits (age : UInt32) : hexWord? (ageDigits age) = some age := by
  refine hexWord?_of_digits Nat.toDigits_ne_nil (fun c hc => isDigit_of_mem_ageDigits hc) ?_
  have := Hex.ofDigits?_toDigits (f := id) Hex.value?_digitChar age.toNat
  rwa [List.map_id] at this

lemma length_ageDigits_le (age : UInt32) : (ageDigits age).length ≤ 8 :=
  Hex.length_toDigits_le age

lemma ageChars_eq {age : UInt32} (h : age ≠ 0) : ageChars age = '-' :: ageDigits age := if_neg h

/-! ### Identifiers -/

/-- What every identifier that is read looks like: it has 32 digits in lower case, unless it is a
timestamp. -/
def IsProper : DebugId → Prop
  | .uuid digits _ => digits.length = 32 ∧ ∀ c ∈ digits, Hex.isDigit c ∧ c.toLower = c
  | .timestamp _ _ => True

/-- A timestamp that is written without its age. -/
def IsBareTimestamp : DebugId → Prop
  | .uuid _ _ => False
  | .timestamp _ age => age = 0

variable {digits : List Char}

lemma length_hyphenate (h : digits.length = 32) : (hyphenate digits).length = 36 := by
  simp [hyphenate, h]

lemma mem_hyphenate {c : Char} (h : c ∈ hyphenate digits) : c = '-' ∨ c ∈ digits := by
  simp only [hyphenate, List.mem_append, List.mem_cons] at h
  rcases h with (((h | h | h) | h | h) | h | h) | h | h
  · exact .inr (List.mem_of_mem_take h)
  · exact .inl h
  · exact .inr (List.mem_of_mem_drop (List.mem_of_mem_take h))
  · exact .inl h
  · exact .inr (List.mem_of_mem_drop (List.mem_of_mem_take h))
  · exact .inl h
  · exact .inr (List.mem_of_mem_drop (List.mem_of_mem_take h))
  · exact .inl h
  · exact .inr (List.mem_of_mem_drop h)

lemma getElem?_hyphenate (h : digits.length = 32) :
    ∀ i ∈ hyphens, (hyphenate digits)[i]? = some '-' := by
  simp [hyphens, hyphenate, List.getElem?_append, h]

/-- Without its hyphens a hyphenated identifier has its digits again. -/
lemma filter_hyphenate (h : ∀ c ∈ digits, c ≠ '-') :
    (hyphenate digits).filter (· ≠ '-') = digits := by
  have hkeep : ∀ ds : List Char, (∀ c ∈ ds, c ∈ digits) → ds.filter (· ≠ '-') = ds := by
    intro ds hds
    rw [List.filter_eq_self]
    intro c hc
    exact decide_eq_true (h c (hds c hc))
  have hnext : ∀ n, (digits.drop n).take 4 ++ digits.drop (n + 4) = digits.drop n := by
    intro n
    rw [← List.drop_drop, List.take_append_drop]
  have hgroups : digits.take 8 ++ ((digits.drop 8).take 4 ++ ((digits.drop 12).take 4 ++
      ((digits.drop 16).take 4 ++ digits.drop 20))) = digits := by
    rw [hnext 16, hnext 12, hnext 8, List.take_append_drop]
  simp only [hyphenate, List.filter_append, List.filter_cons, ne_eq, not_true_eq_false,
    decide_false, Bool.false_eq_true, if_false, List.append_assoc]
  rw [hkeep _ fun c hc => List.mem_of_mem_take hc,
    hkeep _ fun c hc => List.mem_of_mem_drop (List.mem_of_mem_take hc),
    hkeep _ fun c hc => List.mem_of_mem_drop (List.mem_of_mem_take hc),
    hkeep _ fun c hc => List.mem_of_mem_drop (List.mem_of_mem_take hc),
    hkeep _ fun c hc => List.mem_of_mem_drop hc, hgroups]

lemma uuidDigits?_hyphenate (hlength : digits.length = 32)
    (hdigits : ∀ c ∈ digits, Hex.isDigit c ∧ c.toLower = c) :
    uuidDigits? true (hyphenate digits) = some digits := by
  have hplaced : (hyphens.all fun i => (hyphenate digits)[i]? = some '-') = true :=
    List.all_eq_true.mpr fun i hi => decide_eq_true (getElem?_hyphenate hlength i hi)
  have hfilter := filter_hyphenate fun c hc => (Hex.isDigit_cases (hdigits c hc).1).2.1
  have hall : digits.all Hex.isDigit = true := List.all_eq_true.mpr fun c hc => (hdigits c hc).1
  have hlower : digits.map Char.toLower = digits :=
    (List.map_congr_left fun c hc => (hdigits c hc).2).trans (List.map_id digits)
  simp only [uuidDigits?, if_true, hplaced, hfilter, hlength, hall, hlower]
  rfl

lemma all_ascii {cs : List Char} (h : ∀ c ∈ cs, c = '-' ∨ Hex.isDigit c) :
    cs.all (·.toNat < 128) = true := by
  apply List.all_eq_true.mpr
  intro c hc
  apply decide_eq_true
  rcases h c hc with rfl | hdigit
  · decide
  · exact (Hex.isDigit_cases hdigit).1

lemma mem_ageChars {age : UInt32} {c : Char} (h : c ∈ ageChars age) : c = '-' ∨ Hex.isDigit c := by
  unfold ageChars at h
  split at h
  · cases h
  · rcases List.mem_cons.mp h with rfl | h
    · exact .inl rfl
    · exact .inr (isDigit_of_mem_ageDigits h)

/-- An identifier with hyphens is read back, with its age. -/
lemma ofText?_uuid (hlength : digits.length = 32)
    (hdigits : ∀ c ∈ digits, Hex.isDigit c ∧ c.toLower = c) (age : UInt32) :
    ofText? (text (.uuid digits age)) = some (.uuid digits age) := by
  have hsize := length_hyphenate hlength
  have hascii : (hyphenate digits ++ ageChars age).all (·.toNat < 128) = true := by
    apply all_ascii
    intro c hc
    rcases List.mem_append.mp hc with hc | hc
    · exact (mem_hyphenate hc).imp_right fun hc => (hdigits c hc).1
    · exact mem_ageChars hc
  have hhyphen : (hyphenate digits ++ ageChars age)[8]? = some '-' := by
    rw [List.getElem?_append_left (by omega)]
    exact getElem?_hyphenate hlength 8 (by decide)
  have hlong : ¬ (9 + 1 ≤ (hyphenate digits ++ ageChars age).length ∧
      (hyphenate digits ++ ageChars age).length ≤ 16 + 1) := by
    rw [List.length_append]
    omega
  have htake : (hyphenate digits ++ ageChars age).take 36 = hyphenate digits := by
    rw [← hsize, List.take_left]
  have hdrop : (hyphenate digits ++ ageChars age).drop 36 = ageChars age := by
    rw [← hsize, List.drop_left]
  simp only [ofText?, text, String.toList_ofList, hascii, hhyphen, decide_true, if_true,
    if_neg hlong, htake, hdrop, uuidDigits?_hyphenate hlength hdigits]
  by_cases hage : age = 0
  · subst hage
    rfl
  · have hread : age? (ageDigits age) = some age := by
      rw [age?, List.take_of_length_le (length_ageDigits_le age), hexWord?_ageDigits]
    simp [ageChars_eq hage, hread]

/-- A timestamp in eight digits. -/
def timeDigits (time : UInt32) : List Char :=
  let digits := (Nat.toDigits 16 time.toNat).map Char.toUpper
  List.replicate (8 - digits.length) '0' ++ digits

lemma length_timeDigits (time : UInt32) : (timeDigits time).length = 8 := by
  have := Hex.length_toDigits_le time
  rw [timeDigits, List.length_append, List.length_replicate, List.length_map]
  omega

lemma isDigit_of_mem_timeDigits {time : UInt32} {c : Char} (h : c ∈ timeDigits time) :
    Hex.isDigit c := by
  rcases List.mem_append.mp h with h | h
  · rw [List.eq_of_mem_replicate h]
    decide
  · exact Hex.isDigit_of_mem_toDigits Hex.value?_toUpper h

lemma hexWord?_timeDigits (time : UInt32) : hexWord? (timeDigits time) = some time := by
  apply hexWord?_of_digits
  · intro hnil
    have := length_timeDigits time
    rw [hnil] at this
    cases this
  · exact fun c hc => isDigit_of_mem_timeDigits hc
  · rw [timeDigits, Hex.ofDigits?_zeros, Hex.ofDigits?_toDigits Hex.value?_toUpper]

lemma text_timestamp (time age : UInt32) :
    (text (.timestamp time age)).toList = timeDigits time ++ ageChars age := String.toList_ofList

/-- A timestamp is read back with its age, if that is written. -/
lemma ofText?_timestamp (time : UInt32) {age : UInt32} (h : age ≠ 0) :
    ofText? (text (.timestamp time age)) = some (.timestamp time age) := by
  have hsize := length_timeDigits time
  have hage : ageDigits age ≠ [] := Nat.toDigits_ne_nil
  have hageLength := length_ageDigits_le age
  have hascii : (timeDigits time ++ '-' :: ageDigits age).all (·.toNat < 128) = true := by
    apply all_ascii
    intro c hc
    rcases List.mem_append.mp hc with hc | hc
    · exact .inr (isDigit_of_mem_timeDigits hc)
    · rw [← ageChars_eq h] at hc
      exact mem_ageChars hc
  have hhyphen : (timeDigits time ++ '-' :: ageDigits age)[8]? = some '-' := by
    rw [← hsize, List.getElem?_append_right (Nat.le_refl _), Nat.sub_self]
    rfl
  have hshort : 9 + 1 ≤ (timeDigits time ++ '-' :: ageDigits age).length ∧
      (timeDigits time ++ '-' :: ageDigits age).length ≤ 16 + 1 := by
    have := List.length_pos_iff.mpr hage
    rw [List.length_append, List.length_cons]
    omega
  have htake : (timeDigits time ++ '-' :: ageDigits age).take 8 = timeDigits time := by
    rw [← hsize, List.take_left]
  have hdrop : (timeDigits time ++ '-' :: ageDigits age).drop (8 + 1) = ageDigits age := by
    rw [← List.drop_drop, ← hsize, List.drop_left, List.drop_one, List.tail_cons]
  simp only [ofText?, text_timestamp, ageChars_eq h, hascii, hhyphen, decide_true, if_true,
    if_pos hshort, htake, hdrop, hexWord?_timeDigits, hexWord?_ageDigits]
  rfl

/-- Eight digits alone are no identifier. -/
lemma ofText?_bareTimestamp (time : UInt32) : ofText? (text (.timestamp time 0)) = none := by
  have hsize := length_timeDigits time
  have hchars : (text (.timestamp time 0)).toList = timeDigits time := by
    rw [text_timestamp, ageChars, if_pos rfl, List.append_nil]
  have hascii : (timeDigits time).all (·.toNat < 128) = true :=
    all_ascii fun c hc => .inr (isDigit_of_mem_timeDigits hc)
  have hhyphen : (timeDigits time)[8]? = none := List.getElem?_eq_none (by omega)
  have huuid : uuidDigits? false ((timeDigits time).take 32) = none := by
    rw [List.take_of_length_le (by omega), uuidDigits?]
    simp [hsize]
  simp only [ofText?, hchars, hascii, hhyphen, hsize]
  simp [huuid]

/-- A proper identifier is read back unless it is a timestamp without an age. -/
lemma ofText?_text {d : DebugId} (hproper : d.IsProper) (hbare : ¬ d.IsBareTimestamp) :
    ofText? d.text = some d := by
  cases d with
  | uuid digits age => exact ofText?_uuid hproper.1 hproper.2 age
  | timestamp time age => exact ofText?_timestamp time hbare

/-! ### What is read -/

lemma isProper_of_uuidDigits? {hyphenated : Bool} {cs : List Char} (age : UInt32)
    (h : uuidDigits? hyphenated cs = some digits) : (uuid digits age).IsProper := by
  simp only [uuidDigits?, Option.ite_none_right_eq_some, Bool.and_eq_true, decide_eq_true_eq,
    List.all_eq_true] at h
  obtain ⟨⟨⟨-, hlength⟩, hall⟩, hdigits⟩ := h
  obtain rfl := Option.some.inj hdigits
  refine ⟨by rw [List.length_map, hlength], ?_⟩
  rw [List.forall_mem_map]
  exact fun c hc => Hex.isDigit_toLower (hall c hc)

lemma isProper_timestamp (time age : UInt32) : (timestamp time age).IsProper := trivial

/-- Every identifier that is read is proper. -/
lemma isProper_of_ofText? {text : String} {d : DebugId} (h : ofText? text = some d) :
    d.IsProper := by
  have hbind : ∀ {read : Option UInt32} {make : UInt32 → DebugId},
      (∀ n, (make n).IsProper) → (read.bind fun n => pure (make n)) = some d → d.IsProper := by
    intro read make hmake hread
    obtain ⟨n, -, hd⟩ := Option.bind_eq_some_iff.mp hread
    obtain rfl := Option.some.inj hd
    exact hmake n
  unfold ofText? at h
  simp only [Option.ite_none_left_eq_some, Option.bind_eq_bind] at h
  obtain ⟨-, h⟩ := h
  by_cases hhyphen : text.toList[8]? = some '-'
  · simp only [hhyphen, decide_true, if_true] at h
    split at h
    · obtain ⟨time, -, h⟩ := Option.bind_eq_some_iff.mp h
      exact hbind (isProper_timestamp time) h
    · obtain ⟨digits, hdigits, h⟩ := Option.bind_eq_some_iff.mp h
      split at h
      · obtain rfl := Option.some.inj h
        exact isProper_of_uuidDigits? 0 hdigits
      · exact hbind (fun age => isProper_of_uuidDigits? age hdigits) h
      · cases h
  · simp only [hhyphen, decide_false, if_false] at h
    split at h
    · obtain ⟨time, -, h⟩ := Option.bind_eq_some_iff.mp h
      exact hbind (isProper_timestamp time) h
    · obtain ⟨digits, hdigits, h⟩ := Option.bind_eq_some_iff.mp h
      split at h
      · obtain rfl := Option.some.inj h
        exact isProper_of_uuidDigits? 0 hdigits
      · cases h
      · exact hbind (fun age => isProper_of_uuidDigits? age hdigits) h

end DebugId

end Provenance
