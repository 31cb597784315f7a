import Mathlib.Data.List.TakeWhile
import Mathlib.Tactic.Common
import Provenance.Proofs.Sites

/-!
# Lines and words

A text that is put together from lines is cut into those lines again. The words of a line are where
its characters are no blanks: each begins with such a character, and the first one begins after
the leading blanks.
-/

namespace Provenance.Text

/-! ### Lines -/

lemma split_line {line : List Char} (h : '\n' ∉ line) (rest : List Char) :
    split '\n' (line ++ '\n' :: rest) = line :: split '\n' rest := by
  have hrest : split '\n' ('\n' :: rest) = [] :: split '\n' rest := by simp [split]
  rw [split_append_of_notMem h hrest, List.append_nil]

/-- Lines with a line feed in front of each but the first are cut as they were put together. -/
lemma split_flatMap {line : List Char} {lines : List (List Char)} (hline : '\n' ∉ line)
    (hlines : ∀ line ∈ lines, '\n' ∉ line) :
    split '\n' (line ++ lines.flatMap ('\n' :: ·)) = line :: lines := by
  induction lines generalizing line with
  | nil => rw [List.flatMap_nil, List.append_nil, split_of_notMem hline]
  | cons next lines ih =>
    obtain ⟨hnext, hlines⟩ := List.forall_mem_cons.1 hlines
    rw [List.flatMap_cons, List.cons_append, split_line hline, ih hnext hlines]

lemma lines_cons {line : List Char} (h : '\n' ∉ line) (rest : List Char) :
    lines (line ++ '\n' :: rest) = withoutReturn line :: lines rest := by
  rw [lines, split_line h]
  obtain ⟨piece, pieces, hrest⟩ := List.exists_cons_of_ne_nil (split_ne_nil '\n' rest)
  rw [lines, hrest, linesOfPieces]
  simp

/-- A line as it stands between line feeds: its own end is no carriage return. -/
def IsLine (line : List Char) : Prop := '\n' ∉ line ∧ line.getLast? ≠ some '\r'

lemma IsLine.withoutReturn {line : List Char} (h : IsLine line) :
    Text.withoutReturn line = line := if_neg h.2

/-- Lines are cut as they were put together. -/
lemma lines_flatMap {ls : List (List Char)} (h : ∀ line ∈ ls, IsLine line) :
    lines (ls.flatMap (· ++ ['\n'])) = ls := by
  induction ls with
  | nil => rfl
  | cons line ls ih =>
    obtain ⟨hline, hls⟩ := List.forall_mem_cons.1 h
    rw [List.flatMap_cons, List.append_assoc, List.singleton_append, lines_cons hline.1, ih hls,
      hline.withoutReturn]

/-! ### Words -/

-- the equations that Lean derives for this function are slow to prove
lemma wordsFrom_nil (column : Nat) : wordsFrom column [] = [] := by
  unfold wordsFrom
  rfl

lemma wordsFrom_cons (column : Nat) (c : Char) (cs : List Char) :
    wordsFrom column (c :: cs) =
      if isBlank c then wordsFrom (column + c.utf8Size) cs
      else (column, c :: cs.takeWhile (!isBlank ·)) ::
        wordsFrom (column + byteLength (c :: cs.takeWhile (!isBlank ·)))
          (cs.dropWhile (!isBlank ·)) := by
  conv_lhs => unfold wordsFrom

lemma wordsFrom_blanks {bs : List Char} (h : ∀ c ∈ bs, isBlank c) (column : Nat)
    (rest : List Char) :
    wordsFrom column (bs ++ rest) = wordsFrom (column + byteLength bs) rest := by
  induction bs generalizing column with
  | nil => rfl
  | cons b bs ih =>
    obtain ⟨hb, hbs⟩ := List.forall_mem_cons.1 h
    rw [List.cons_append, wordsFrom_cons, if_pos hb, ih hbs, byteLength_cons, Nat.add_assoc]

/-- A word in front of a blank, or at the end of its line. -/
lemma wordsFrom_word {word rest : List Char} (hne : word ≠ [])
    (hword : ∀ c ∈ word, isBlank c = false) (hrest : ∀ d ∈ rest.head?, isBlank d)
    (column : Nat) :
    wordsFrom column (word ++ rest) =
      (column, word) :: wordsFrom (column + byteLength word) rest := by
  obtain ⟨c, cs, rfl⟩ := List.exists_cons_of_ne_nil hne
  obtain ⟨hc, hcs⟩ := List.forall_mem_cons.1 hword
  have hcs' : ∀ d ∈ cs, (!isBlank d) = true := fun d hd => by simp [hcs d hd]
  have htake : rest.takeWhile (!isBlank ·) = [] := by
    cases rest with
    | nil => rfl
    | cons d rest => simp [hrest d rfl]
  have hdrop : rest.dropWhile (!isBlank ·) = rest := by
    cases rest with
    | nil => rfl
    | cons d rest => simp [hrest d rfl]
  rw [List.cons_append, wordsFrom_cons, if_neg (by simp [hc]), List.takeWhile_append_of_pos hcs',
    List.dropWhile_append_of_pos hcs', htake, hdrop, List.append_nil]

/-- Words move with the column from which they are counted. -/
lemma wordsFrom_add (column shift : Nat) (line : List Char) :
    wordsFrom (column + shift) line =
      (wordsFrom column line).map fun w => (w.1 + shift, w.2) := by
  fun_induction wordsFrom column line with
  | case1 column => rw [wordsFrom_nil, List.map_nil]
  | case2 column c rest hblank ih => rw [wordsFrom_cons, if_pos hblank, Nat.add_right_comm, ih]
  | case3 column c rest hblank word ih =>
    rw [wordsFrom_cons, if_neg hblank]
    simp only [List.map_cons, ← ih, Nat.add_right_comm column shift]
    rfl

/-- A stretch between blanks: nothing of the word is left out. -/
structure IsWord (before word after : List Char) : Prop where
  ne_nil : word ≠ []
  solid : ∀ c ∈ word, isBlank c = false
  begins : ∀ d ∈ before.getLast?, isBlank d
  ends : ∀ d ∈ after.head?, isBlank d

lemma isBlank_of_head?_dropWhile {line : List Char} {d : Char}
    (h : d ∈ (line.dropWhile (!isBlank ·)).head?) : isBlank d := by
  have hnot := List.head?_dropWhile_not (!isBlank ·) line
  rw [Option.mem_def.1 h] at hnot
  simpa using hnot

/-- A line that ends with a blank has something after its first word. -/
lemma dropWhile_ne_nil {c : Char} {line : List Char} (hc : isBlank c = false)
    (h : ∀ d ∈ (c :: line).getLast?, isBlank d) : line.dropWhile (!isBlank ·) ≠ [] := by
  intro hnil
  rw [List.dropWhile_eq_nil_iff] at hnil
  rw [List.getLast?_cons] at h
  have hlast := h _ rfl
  cases hline : line.getLast? with
  | none =>
    rw [hline, Option.getD_none, hc] at hlast
    cases hlast
  | some d =>
    rw [hline, Option.getD_some] at hlast
    have hd := hnil d (List.mem_of_getLast? hline)
    simp [hlast] at hd

/-- The words of a line that is cut after a blank are those of its parts. -/
lemma wordsFrom_append {before : List Char} (h : ∀ d ∈ before.getLast?, isBlank d) (column : Nat)
    (rest : List Char) :
    wordsFrom column (before ++ rest) =
      wordsFrom column before ++ wordsFrom (column + byteLength before) rest := by
  fun_induction wordsFrom column before with
  | case1 column => rfl
  | case2 column c before hblank ih =>
    rw [List.cons_append, wordsFrom_cons, if_pos hblank, ih, byteLength_cons, Nat.add_assoc]
    intro d hd
    apply h
    rw [List.getLast?_cons, Option.mem_def.1 hd]
    rfl
  | case3 column c before hblank word ih =>
    have hc : isBlank c = false := by simpa using hblank
    have hne := dropWhile_ne_nil hc h
    have hcut : c :: before = word ++ before.dropWhile (!isBlank ·) := by
      rw [List.cons_append, List.takeWhile_append_dropWhile]
    have hsolid : ∀ d ∈ word, isBlank d = false := by
      intro d hd
      rcases List.mem_cons.1 hd with rfl | hd
      · exact hc
      · simpa using List.mem_takeWhile_imp hd
    rw [hcut] at h ⊢
    rw [List.getLast?_append_of_ne_nil _ hne] at h
    rw [List.append_assoc, wordsFrom_word (List.cons_ne_nil _ _) hsolid, ih h, byteLength_append,
      List.cons_append, Nat.add_assoc]
    intro d hd
    rw [List.head?_append_of_ne_nil _ hne] at hd
    exact isBlank_of_head?_dropWhile hd

/-- A word of a line is a stretch between blanks. -/
lemma exists_isWord_of_mem {column : Nat} {line : List Char} {w : Nat × List Char}
    (h : w ∈ wordsFrom column line) : ∃ before after, line = before ++ (w.2 ++ after) ∧
      w.1 = column + byteLength before ∧ IsWord before w.2 after := by
  fun_induction wordsFrom column line with
  | case1 column => simp at h
  | case2 column c rest hblank ih =>
    obtain ⟨before, after, rfl, hw, hword⟩ := ih h
    refine ⟨c :: before, after, rfl, by rw [hw, byteLength_cons, Nat.add_assoc], hword.ne_nil,
      hword.solid, ?_, hword.ends⟩
    intro d hd
    rw [List.getLast?_cons] at hd
    obtain rfl := Option.some.inj hd
    cases hlast : before.getLast? with
    | none => exact hblank
    | some d => exact hword.begins d hlast
  | case3 column c rest hblank word ih =>
    rcases List.mem_cons.1 h with rfl | h
    · refine ⟨[], rest.dropWhile (!isBlank ·), ?_, rfl, List.cons_ne_nil _ _, ?_, ?_, ?_⟩
      · rw [List.nil_append, List.cons_append, List.takeWhile_append_dropWhile]
      · intro d hd
        rcases List.mem_cons.1 hd with rfl | hd
        · simpa using hblank
        · simpa using List.mem_takeWhile_imp hd
      · intro d hd
        cases hd
      · exact fun d => isBlank_of_head?_dropWhile
    · obtain ⟨before, after, hrest, hw, hword⟩ := ih h
      refine ⟨word ++ before, after, ?_, by rw [hw, byteLength_append, Nat.add_assoc],
        hword.ne_nil, hword.solid, ?_, hword.ends⟩
      · rw [List.append_assoc, ← hrest, List.cons_append, List.takeWhile_append_dropWhile]
      · cases before with
        | nil =>
          -- what comes after a word does not begin with a word
          obtain ⟨d, ds, hd⟩ := List.exists_cons_of_ne_nil hword.ne_nil
          have hsolid := hword.solid d (hd ▸ List.mem_cons_self)
          have hblank' : isBlank d := isBlank_of_head?_dropWhile (by rw [hrest, hd]; rfl)
          rw [hsolid] at hblank'
          cases hblank'
        | cons b before =>
          rw [List.getLast?_append_of_ne_nil _ (List.cons_ne_nil b before)]
          exact hword.begins

/-- The words of a line are its stretches between blanks, each with its byte column. -/
lemma mem_wordsFrom_iff {column : Nat} {line : List Char} {w : Nat × List Char} :
    w ∈ wordsFrom column line ↔ ∃ before after, line = before ++ (w.2 ++ after) ∧
      w.1 = column + byteLength before ∧ IsWord before w.2 after := by
  constructor
  · exact exists_isWord_of_mem
  · rintro ⟨before, after, rfl, hw, hword⟩
    rw [wordsFrom_append hword.begins, wordsFrom_word hword.ne_nil hword.solid hword.ends, ← hw]
    exact List.mem_append_right _ List.mem_cons_self

/-- A word begins with a character that is no blank. -/
lemma exists_of_mem_wordsFrom {column : Nat} {line : List Char} {w : Nat × List Char}
    (h : w ∈ wordsFrom column line) : ∃ before d after, line = before ++ d :: after ∧
      isBlank d = false ∧ w.1 = column + byteLength before := by
  obtain ⟨before, after, rfl, hw, hword⟩ := exists_isWord_of_mem h
  obtain ⟨d, ds, hd⟩ := List.exists_cons_of_ne_nil hword.ne_nil
  refine ⟨before, d, ds ++ after, by rw [hd, List.cons_append], ?_, hw⟩
  exact hword.solid d (hd ▸ List.mem_cons_self)

/-- Words stand at increasing columns. -/
lemma pairwise_wordsFrom (column : Nat) (line : List Char) :
    (wordsFrom column line).Pairwise fun a b => a.1 < b.1 := by
  fun_induction wordsFrom column line with
  | case1 column => exact .nil
  | case2 column c rest hblank ih => exact ih
  | case3 column c rest hblank word ih =>
    refine List.pairwise_cons.2 ⟨fun w hw => ?_, ih⟩
    obtain ⟨before, d, after, -, -, heq⟩ := exists_of_mem_wordsFrom hw
    have hpos : 0 < byteLength word := byteLength_pos (List.cons_ne_nil _ _)
    rw [heq]
    omega

/-- A line as leading blanks, its first word and what comes after it. -/
structure FirstWord (line blanks word rest : List Char) : Prop where
  eq : line = blanks ++ (word ++ rest)
  blank : ∀ c ∈ blanks, isBlank c
  ne_nil : word ≠ []
  solid : ∀ c ∈ word, isBlank c = false
  ends : ∀ d ∈ rest.head?, isBlank d

lemma solid_of_all {word : List Char} (h : word.all (!isBlank ·)) :
    ∀ c ∈ word, isBlank c = false :=
  fun c hc => by simpa using List.all_eq_true.1 h c hc

lemma exists_firstWord {line : List Char} (h : ∃ c ∈ line, isBlank c = false) :
    ∃ blanks word rest, FirstWord line blanks word rest := by
  have hne : line.dropWhile isBlank ≠ [] := by
    obtain ⟨c, hc, hblank⟩ := h
    intro hnil
    simpa [hblank] using List.dropWhile_eq_nil_iff.1 hnil c hc
  obtain ⟨c, cs, hcs⟩ := List.exists_cons_of_ne_nil hne
  have hc : isBlank c = false := by
    have := List.head_dropWhile_not isBlank hne
    simpa [hcs] using this
  refine ⟨line.takeWhile isBlank, (c :: cs).takeWhile (!isBlank ·),
    (c :: cs).dropWhile (!isBlank ·), ?_, ?_, ?_, ?_, ?_⟩
  · rw [List.takeWhile_append_dropWhile, ← hcs, List.takeWhile_append_dropWhile]
  · exact fun d hd => List.mem_takeWhile_imp hd
  · simp [hc]
  · exact fun d hd => by simpa using List.mem_takeWhile_imp hd
  · exact fun d => isBlank_of_head?_dropWhile

namespace FirstWord

variable {line blanks word rest : List Char}

lemma words_from (h : FirstWord line blanks word rest) (column : Nat) :
    wordsFrom column line = (column + byteLength blanks, word) ::
      wordsFrom (column + byteLength blanks + byteLength word) rest := by
  rw [h.eq, wordsFrom_blanks h.blank, wordsFrom_word h.ne_nil h.solid h.ends]

lemma words (h : FirstWord line blanks word rest) :
    Text.words line =
      (byteLength blanks, word) :: wordsFrom (byteLength blanks + byteLength word) rest := by
  rw [Text.words, h.words_from, Nat.zero_add]

lemma exists_solid (h : FirstWord line blanks word rest) : ∃ c ∈ line, isBlank c = false := by
  obtain ⟨c, cs, rfl⟩ := List.exists_cons_of_ne_nil h.ne_nil
  exact ⟨c, by simp [h.eq], h.solid c List.mem_cons_self⟩

lemma takeWhile (h : FirstWord line blanks word rest) : line.takeWhile isBlank = blanks := by
  obtain ⟨c, cs, rfl⟩ := List.exists_cons_of_ne_nil h.ne_nil
  have hc := h.solid c List.mem_cons_self
  rw [h.eq, List.takeWhile_append_of_pos h.blank]
  simp [hc]

/-- A line has one first word. -/
lemma unique {blanks' word' rest' : List Char} (h : FirstWord line blanks word rest)
    (h' : FirstWord line blanks' word' rest') :
    blanks = blanks' ∧ word = word' ∧ rest = rest' := by
  obtain rfl : blanks = blanks' := h.takeWhile.symm.trans h'.takeWhile
  obtain ⟨hfirst, -⟩ := List.cons.inj (h.words.symm.trans h'.words)
  obtain rfl : word = word' := congrArg Prod.snd hfirst
  have heq := h.eq.symm.trans h'.eq
  exact ⟨rfl, rfl, List.append_cancel_left (List.append_cancel_left heq)⟩

end FirstWord

/-- What the words of a line begin with is its first word. -/
lemma head?_wordsFrom_iff {column : Nat} {line : List Char} {w : Nat × List Char} :
    (wordsFrom column line).head? = some w ↔
      ∃ blanks rest, FirstWord line blanks w.2 rest ∧ w.1 = column + byteLength blanks := by
  constructor
  · intro h
    obtain ⟨before, d, after, hline, hd, -⟩ := exists_of_mem_wordsFrom (List.mem_of_head? h)
    have hmem : d ∈ line := by simp [hline]
    obtain ⟨blanks, word, rest, hfirst⟩ := exists_firstWord ⟨d, hmem, hd⟩
    rw [hfirst.words_from, List.head?_cons] at h
    obtain rfl := Option.some.inj h
    exact ⟨blanks, rest, hfirst, rfl⟩
  · rintro ⟨blanks, rest, hfirst, hcolumn⟩
    rw [hfirst.words_from, List.head?_cons, ← hcolumn]

end Provenance.Text
