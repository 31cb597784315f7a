import Mathlib.Algebra.Group.Nat.Defs
import Mathlib.Data.List.Chain
import Mathlib.Tactic.Common
import Provenance.Mapping.Segments
import Provenance.Proofs.Sites

/-!
# Segments are read as they are written

A number is read back from its base-64 digits, a segment from its differences, and the segments of
a map from their text, line by line. Range flags are read apart from the segments, so they are left
out of the comparison here.
-/

namespace Provenance

/-! ### Variable-length quantities -/

namespace Vlq

lemma digit?_digitChar : ∀ n < 64, digit? (digitChar n) = some n := by decide

lemma digitChar_ne : ∀ n < 64, digitChar n ≠ ',' ∧ digitChar n ≠ ';' := by decide

lemma digits_cons {n : Nat} (hn : n < 64) (cs : List Char) :
    digits (digitChar n :: cs) = n :: digits cs := by
  simp [digits, digit?_digitChar n hn]

lemma mem_groups {n : Nat} {c : Char} (h : c ∈ groups n) : c ≠ ',' ∧ c ≠ ';' := by
  fun_induction groups n with
  | case1 n hn =>
    obtain rfl := List.mem_singleton.1 h
    exact digitChar_ne n (by omega)
  | case2 n hn ih =>
    rcases List.mem_cons.1 h with rfl | h
    · exact digitChar_ne _ (by omega)
    · exact ih h

lemma groups_ne_nil (n : Nat) : groups n ≠ [] := by
  unfold groups
  split <;> simp

/-- The groups of a number are read on top of the groups before them, if the word has room. -/
lemma numbers_groups {n word shift : Nat} (hshift : shift < 64)
    (hroom : word + n * 2 ^ shift < UInt64.size) (cs : List Char) :
    numbers word shift (digits (groups n ++ cs)) =
      (numbers 0 0 (digits cs)).map (unzigzag (word + n * 2 ^ shift) :: ·) := by
  fun_induction groups n generalizing word shift with
  | case1 n hn =>
    rw [List.singleton_append, digits_cons (by omega), numbers, if_neg (by omega)]
    simp only [Nat.mod_eq_of_lt hn, Nat.shiftLeft_eq, Nat.mod_eq_of_lt hroom, if_pos hn]
  | case2 n hn ih =>
    have hsplit : word + n % 32 * 2 ^ shift + n / 32 * 2 ^ (shift + 5) = word + n * 2 ^ shift := by
      rw [Nat.pow_add, Nat.add_assoc, ← Nat.mul_assoc, Nat.mul_right_comm, ← Nat.add_mul]
      congr 2
      omega
    have hword : word + n % 32 * 2 ^ shift < UInt64.size := by
      omega
    have hshift' : shift + 5 < 64 := by
      by_contra hge
      have hpow : 2 ^ 64 ≤ 2 ^ (shift + 5) := Nat.pow_le_pow_right (by decide) (by omega)
      have hmul : 1 * 2 ^ (shift + 5) ≤ n / 32 * 2 ^ (shift + 5) :=
        Nat.mul_le_mul_right _ (by omega)
      have hsize : UInt64.size = 2 ^ 64 := rfl
      omega
    rw [List.cons_append, digits_cons (by omega), numbers, if_neg (by omega)]
    have hmod : (n % 32 + 32) % 32 = n % 32 := by omega
    simp only [hmod, Nat.shiftLeft_eq, Nat.mod_eq_of_lt hword]
    rw [if_neg (by omega), ih hshift' (by omega), hsplit]

lemma unzigzag_zigzag {n : Int} (h : n.natAbs < 2 ^ 62) : unzigzag (zigzag n) = n := by
  have hsize : signBound = 2 ^ 63 := rfl
  unfold zigzag unzigzag
  simp only [Int.fdiv_eq_ediv_of_nonneg _ (show (0 : Int) ≤ 2 by decide)]
  split_ifs <;> omega

lemma zigzag_lt {n : Int} (h : n.natAbs < 2 ^ 62) : zigzag n < UInt64.size := by
  have hsize : UInt64.size = 2 ^ 64 := rfl
  unfold zigzag
  split_ifs <;> omega

/-- Numbers are read back from their digits. -/
theorem decode_encode {ns : List Int} (h : ∀ n ∈ ns, n.natAbs < 2 ^ 62) :
    decode (ns.flatMap encode) = .ok ns := by
  unfold decode
  induction ns with
  | nil => simp [digits, numbers]
  | cons n ns ih =>
    obtain ⟨hn, hns⟩ := List.forall_mem_cons.1 h
    have hroom : 0 + zigzag n * 2 ^ 0 < UInt64.size := by simpa using zigzag_lt hn
    rw [List.flatMap_cons, encode, numbers_groups (by decide) hroom, ih hns]
    simp [Except.map, unzigzag_zigzag hn]

end Vlq

namespace Segments

variable {r : Running} {s : Segment} {sources names : Nat}

/-! ### One segment -/

lemma natAbs_difference_lt (last next : UInt32) : (difference last next).natAbs < 2 ^ 62 := by
  have := last.toNat_lt
  have := next.toNat_lt
  unfold difference
  omega

@[simp] lemma advance_difference (last next : UInt32) :
    advance last (difference last next) = next := by
  have h : (last.toNat : Int) + ((next.toNat : Int) - last.toNat) = next.toNat := by omega
  have hlt := next.toNat_lt
  rw [advance, difference, h, ← UInt32.toNat_inj, UInt32.ofInt, UInt32.toNat_ofNat']
  omega

/-- The numbers that a segment is written with. -/
def segmentNumbers (r : Running) (s : Segment) : List Int :=
  difference r.column s.generated.column ::
    match s.origin with
    | none => []
    | some o =>
      difference r.source o.source :: difference r.line o.point.line ::
        difference r.sourceColumn o.point.column ::
          match o.name with
          | none => []
          | some name => [difference r.name name]

/-- The running values after a segment. -/
def runningAfter (r : Running) (s : Segment) : Running :=
  match s.origin with
  | none => { r with column := s.generated.column }
  | some o =>
    ⟨s.generated.column, o.source, o.point.line, o.point.column, o.name.getD r.name⟩

lemma writeSegment_eq (r : Running) (s : Segment) :
    writeSegment r s = ((segmentNumbers r s).flatMap Vlq.encode, runningAfter r s) := by
  obtain ⟨generated, origin, isRange⟩ := s
  cases origin with
  | none => simp [writeSegment, segmentNumbers, runningAfter]
  | some o =>
    obtain ⟨source, point, name⟩ := o
    cases name <;> simp [writeSegment, segmentNumbers, runningAfter]

lemma decode_segmentNumbers (r : Running) (s : Segment) :
    Vlq.decode ((segmentNumbers r s).flatMap Vlq.encode) = .ok (segmentNumbers r s) := by
  refine Vlq.decode_encode fun n hn => ?_
  have h : ∃ last next, n = difference last next := by
    unfold segmentNumbers at hn
    rcases List.mem_cons.1 hn with rfl | hn
    · exact ⟨_, _, rfl⟩
    split at hn
    · simp at hn
    · simp only [List.mem_cons] at hn
      rcases hn with rfl | rfl | rfl | hn
      · exact ⟨_, _, rfl⟩
      · exact ⟨_, _, rfl⟩
      · exact ⟨_, _, rfl⟩
      · split at hn
        · simp at hn
        · exact ⟨_, _, List.mem_singleton.1 hn⟩
  obtain ⟨last, next, rfl⟩ := h
  exact natAbs_difference_lt last next

/-- The source and the name of a segment are among those of its map. -/
def Fits (sources names : Nat) (s : Segment) : Prop :=
  ∀ o, s.origin = some o → o.source.toNat < sources ∧ ∀ n, o.name = some n → n.toNat < names

/-- A segment is read back from its numbers, on its line and with the flag that is given. -/
lemma ofNumbers_segmentNumbers (h : Fits sources names s) (isRange : Bool) :
    ofNumbers s.generated.line sources names isRange r (segmentNumbers r s) =
      .ok ({ s with isRange := isRange }, runningAfter r s) := by
  obtain ⟨⟨line, column⟩, origin, flag⟩ := s
  cases origin with
  | none => simp [segmentNumbers, ofNumbers, runningAfter]
  | some o =>
    obtain ⟨hsource, hname⟩ := h o rfl
    obtain ⟨source, point, name⟩ := o
    cases name with
    | none =>
      simp [segmentNumbers, ofNumbers, runningAfter, takeOrigin, hsource, bind, Except.bind, pure,
        Except.pure]
    | some name =>
      have := hname name rfl
      simp [segmentNumbers, ofNumbers, runningAfter, takeOrigin, hsource, this, bind, Except.bind,
        pure, Except.pure]

/-- The text of a segment. -/
def segmentChars (r : Running) (s : Segment) : List Char :=
  (segmentNumbers r s).flatMap Vlq.encode

lemma notMem_segmentChars : ',' ∉ segmentChars r s ∧ ';' ∉ segmentChars r s := by
  constructor <;> intro h <;> obtain ⟨n, -, hc⟩ := List.mem_flatMap.1 h
  · exact (Vlq.mem_groups hc).1 rfl
  · exact (Vlq.mem_groups hc).2 rfl

lemma segmentChars_ne_nil (r : Running) (s : Segment) : segmentChars r s ≠ [] := by
  unfold segmentChars segmentNumbers
  rw [List.flatMap_cons]
  exact List.append_ne_nil_of_left_ne_nil (Vlq.groups_ne_nil _) _

lemma readLine_cons (h : Fits sources names s) (pieces : List (List Char)) (flags : List Bool) :
    readLine s.generated.line sources names r (segmentChars r s :: pieces) flags = do
      let (segments, r') ←
        readLine s.generated.line sources names (runningAfter r s) pieces flags.tail
      return ({ s with isRange := flags.headD false } :: segments, r') := by
  obtain ⟨c, cs, hchars⟩ := List.exists_cons_of_ne_nil (segmentChars_ne_nil r s)
  rw [hchars, readLine, ← hchars, segmentChars, decode_segmentNumbers]
  · simp only [Except.mapError, ofNumbers_segmentNumbers h, bind, Except.bind]
  · simp

/-! ### Lines of segments -/

/-- A segment without its flag. -/
def unflagged (s : Segment) : Segment := { s with isRange := false }

/-- Flags that can be read. -/
def Legible (flags : List (List Char)) : Prop :=
  ∀ text ∈ flags, ∃ bits, readFlags text = .ok bits

lemma Legible.head {flags : List (List Char)} (h : Legible flags) :
    ∃ bits, readFlags (flags.headD []) = .ok bits := by
  cases flags with
  | nil => exact ⟨[], rfl⟩
  | cons text flags => exact h text List.mem_cons_self

lemma Legible.drop {flags : List (List Char)} (h : Legible flags) (k : Nat) :
    Legible (flags.drop k) :=
  fun text htext => h text (List.mem_of_mem_drop htext)

/-- Lines without segments are passed over. -/
lemma readLines_replicate (line : UInt32) (k : Nat) (lines flags : List (List Char)) :
    readLines sources names r line (List.replicate k [] ++ lines) flags =
      readLines sources names r (line + .ofNat k) lines (flags.drop k) := by
  induction k generalizing line flags with
  | zero => simp
  | succ k ih =>
    rw [List.replicate_succ, List.cons_append, readLines, ih, List.drop_tail]
    congr 1
    rw [UInt32.add_assoc, UInt32.add_comm 1, UInt32.ofNat_add]
    rfl

/-- What a text says after something on a line: it goes on with pieces, which belong to the line,
and with more lines. -/
def Continues (text : List Char) (pieces lines : List (List Char)) : Prop :=
  ∃ first, Text.split ';' text = first :: lines ∧
    ∀ cs, ',' ∉ cs → Text.split ',' (cs ++ first) = cs :: pieces

/-- Reading goes on through a text with the given segments, whatever their flags. -/
def Resumes (sources names : Nat) (r : Running) (line : UInt32) (text : List Char)
    (rest : List Segment) : Prop :=
  ∃ pieces lines, Continues text pieces lines ∧ ∀ flags lineFlags, Legible lineFlags →
    ∃ segments r' more,
      readLine line sources names r pieces flags = .ok (segments, r') ∧
      readLines sources names r' (line + 1) lines lineFlags = .ok more ∧
      (segments ++ more).map unflagged = rest.map unflagged

lemma resumes_nil (r : Running) (line : UInt32) : Resumes sources names r line [] [] :=
  ⟨[], [], ⟨[], rfl, fun cs hcs => by rw [List.append_nil, Text.split_of_notMem hcs]⟩,
    fun _ _ _ => ⟨[], r, [], rfl, rfl, rfl⟩⟩

/-- A segment on the line of the one before it comes after a comma. -/
lemma Resumes.comma {text : List Char} {rest : List Segment} (hfits : Fits sources names s)
    (h : Resumes sources names (runningAfter r s) s.generated.line text rest) :
    Resumes sources names r s.generated.line (',' :: segmentChars r s ++ text) (s :: rest) := by
  obtain ⟨pieces, lines, ⟨first, hlines, hpieces⟩, hread⟩ := h
  obtain ⟨hcomma, hsemicolon⟩ := notMem_segmentChars (r := r) (s := s)
  refine ⟨segmentChars r s :: pieces, lines, ⟨',' :: segmentChars r s ++ first, ?_, ?_⟩, ?_⟩
  · refine Text.split_append_of_notMem ?_ hlines
    simpa using hsemicolon
  · intro cs hcs
    have hrest : Text.split ',' (',' :: segmentChars r s ++ first) =
        [] :: segmentChars r s :: pieces := by simp [Text.split, hpieces _ hcomma]
    rw [Text.split_append_of_notMem hcs hrest, List.append_nil]
  · intro flags lineFlags hlegible
    obtain ⟨segments, r', more, hline, hmore, heq⟩ := hread flags.tail lineFlags hlegible
    refine ⟨{ s with isRange := flags.headD false } :: segments, r', more, ?_, hmore, ?_⟩
    · rw [readLine_cons hfits, hline]
      rfl
    · rw [List.cons_append, List.map_cons, heq]
      rfl

/-- The first segment of a line is read with the column counted from zero. -/
lemma Resumes.readLines {text : List Char} {rest : List Segment} (hfits : Fits sources names s)
    (h : Resumes sources names (runningAfter { r with column := 0 } s) s.generated.line text rest) :
    ∃ first lines, Text.split ';' (segmentChars { r with column := 0 } s ++ text) = first :: lines ∧
      ∀ lineFlags, Legible lineFlags → ∃ segments,
        readLines sources names r s.generated.line (first :: lines) lineFlags = .ok segments ∧
          segments.map unflagged = (s :: rest).map unflagged := by
  obtain ⟨pieces, lines, ⟨first, hlines, hpieces⟩, hread⟩ := h
  obtain ⟨hcomma, hsemicolon⟩ := notMem_segmentChars (r := { r with column := 0 }) (s := s)
  refine ⟨_, lines, Text.split_append_of_notMem hsemicolon hlines, fun lineFlags hlegible => ?_⟩
  obtain ⟨bits, hbits⟩ := hlegible.head
  obtain ⟨segments, r', more, hline, hmore, heq⟩ := hread bits.tail lineFlags.tail (by
    rw [← List.drop_one]
    exact hlegible.drop 1)
  refine ⟨{ s with isRange := bits.headD false } :: segments ++ more, ?_, ?_⟩
  · obtain ⟨c, cs, hchars⟩ := List.exists_cons_of_ne_nil
      (segmentChars_ne_nil { r with column := 0 } s)
    rw [hchars, List.cons_append, Segments.readLines, ← List.cons_append, ← hchars, hbits,
      hpieces _ hcomma]
    · simp only [bind, Except.bind, readLine_cons hfits, hline, hmore, pure, Except.pure]
    · simp
  · rw [List.cons_append, List.map_cons, heq]
    rfl

/-- Segments in order that are told apart from the one before. -/
def Ordered (a b : Segment) : Prop := a.generated ≤ b.generated ∧ a ≠ b

/-- Segments after one that is already written are read as they are written. -/
lemma resumes_writeAfter {last : Segment} {rest : List Segment}
    (hordered : (last :: rest).IsChain Ordered) (hfits : ∀ s ∈ rest, Fits sources names s)
    (r : Running) :
    Resumes sources names r last.generated.line (writeAfter r last rest) rest := by
  induction rest generalizing last r with
  | nil => exact resumes_nil r _
  | cons s rest ih =>
    obtain ⟨⟨hle, hne⟩, hordered⟩ := List.isChain_cons_cons.1 hordered
    obtain ⟨hs, hrest⟩ := List.forall_mem_cons.1 hfits
    simp only [writeAfter, writeSegment_eq]
    split_ifs with hline heq
    · -- the line ends, with the lines that have no segments
      have hlt : last.generated.line.toNat < s.generated.line.toNat := by
        rcases hle with hlt | ⟨heq, -⟩
        · exact hlt
        · exact absurd heq.symm hline
      obtain ⟨k, hk⟩ := Nat.exists_eq_add_of_lt hlt
      obtain ⟨first, lines, hsplit, hread⟩ := Resumes.readLines hs
        (ih hordered hrest (runningAfter { r with column := 0 } s))
      have hlines : last.generated.line + 1 + .ofNat k = s.generated.line := by
        rw [← UInt32.toNat_inj]
        have := s.generated.line.toNat_lt
        simp only [UInt32.toNat_add, UInt32.toNat_one, UInt32.toNat_ofNat']
        omega
      refine ⟨[], List.replicate k [] ++ first :: lines, ⟨[], ?_, fun cs hcs => ?_⟩, ?_⟩
      · rw [show s.generated.line.toNat - last.generated.line.toNat = k + 1 by omega,
          List.append_assoc, Text.split_replicate_append, List.replicate_succ, List.cons_append]
        rw [← hsplit]
        rfl
      · rw [List.append_nil, Text.split_of_notMem hcs]
      · intro flags lineFlags hlegible
        obtain ⟨segments, hsegments, heq⟩ := hread (lineFlags.drop k) (hlegible.drop k)
        refine ⟨[], r, segments, rfl, ?_, heq⟩
        rw [readLines_replicate, hlines, hsegments]
    · exact absurd heq.symm hne
    · rw [not_not] at hline
      rw [← hline]
      exact (ih hordered hrest (runningAfter r s)).comma hs

/-- Segments are read as they are written, apart from their flags. -/
theorem read_write {segments : List Segment} (ranges : String)
    (hordered : segments.IsChain Ordered) (hfits : ∀ s ∈ segments, Fits sources names s)
    (hranges : Legible (Text.split ';' ranges.toList)) :
    ∃ segments', read sources names (.ofList (write segments)) ranges = .ok segments' ∧
      segments'.map unflagged = segments.map unflagged := by
  rw [read, String.toList_ofList]
  cases segments with
  | nil => exact ⟨[], rfl, rfl⟩
  | cons s rest =>
    obtain ⟨hs, hrest⟩ := List.forall_mem_cons.1 hfits
    obtain ⟨first, lines, hsplit, hread⟩ := Resumes.readLines (r := .zero) hs
      (resumes_writeAfter hordered hrest _)
    obtain ⟨segments', hsegments', heq⟩ := hread _ (hranges.drop s.generated.line.toNat)
    refine ⟨segments', ?_, heq⟩
    simp only [write, writeSegment_eq]
    rw [List.append_assoc, Text.split_replicate_append, readLines_replicate, UInt32.zero_add,
      UInt32.ofNat_toNat]
    exact hsplit ▸ hsegments'

end Segments

end Provenance
