import Provenance.Proofs.CodeSize
import Provenance.Proofs.EndToEnd

/-!
# What lowering says of its code

The code of an accepted source and the two forms of its map are told without the passes that make
them. Each line of code is a line of the source, with `var` for a keyword that begins it
(`Rewritten`). The raw map goes through the words of the source, the stretches between blanks, and
leads each one from the place where it is written in the code to the place where it stands, with the
name that it declares (`MapsWord`). The structured map answers every query as the raw one does.
-/

namespace Provenance

open Text (FirstWord IsWord byteLength wordsFrom)

namespace Lowering

variable {line blanks word rest : List Char} {column : Nat} {name : String}

/-! ### Lines and words -/

/-- The word stands at a byte column of the line, and nothing of it is left out. -/
def IsWordAt (line : List Char) (column : Nat) (word : List Char) : Prop :=
  ∃ before after, line = before ++ (word ++ after) ∧ column = byteLength before ∧
    IsWord before word after

/-- The word begins the line, and it is a keyword that strict programs are written without. -/
def Replaced (line : List Char) (column : Nat) (word : List Char) : Prop :=
  word ∈ ["const".toList, "let".toList] ∧
    ∃ blanks rest, FirstWord line blanks word rest ∧ column = byteLength blanks

/-- The word is the second one of a line that begins with a keyword. -/
def Declared (line : List Char) (column : Nat) (word : List Char) : Prop :=
  ∃ blanks keyword rest between after, FirstWord line blanks keyword rest ∧ keyword ∈ keywords ∧
    FirstWord rest between word after ∧ column = byteLength (blanks ++ (keyword ++ between))

/-- The name is the longest one that the word begins with. -/
def BeginsWithName (word : List Char) (name : String) : Prop :=
  name.toList ≠ [] ∧ (∀ c ∈ name.toList, isNameChar c) ∧
    ∃ rest, word = name.toList ++ rest ∧ ∀ d ∈ rest.head?, isNameChar d = false

/-- A line of code for a line of the source. -/
inductive Rewritten (line : List Char) : List Char → Prop where
  | same (h : ∀ column word, ¬ Replaced line column word) : Rewritten line line
  | replaced {blanks word rest : List Char} (first : FirstWord line blanks word rest)
      (isKeyword : word ∈ ["const".toList, "let".toList]) :
      Rewritten line (blanks ++ ("var".toList ++ rest))

/-- Where a word is written in a line of code, and its name there. It is the word itself that is
written, or `var` in place of a keyword, and it is named when it is declared. -/
structure WrittenAt (line codeLine : List Char) (column : Nat) (word : List Char) (written : Nat)
    (name : Option String) : Prop where
  same : ¬ Replaced line column word → IsWordAt codeLine written word
  replaced : Replaced line column word → IsWordAt codeLine written "var".toList
  named : ∀ name', name = some name' ↔ Declared line column word ∧ BeginsWithName word name'

/-- The mapping of a word: it leads from the line below, where the word is written, to where it
stands. -/
structure MapsWord (line codeLine : List Char) (n column : Nat) (word : List Char)
    (m : RawMapping) : Prop where
  origin : ∃ p, m.origin = some p ∧ p.line.toNat = n + 1 ∧ p.column.toNat = column
  below : m.generated.line.toNat = n + 2
  written : WrittenAt line codeLine column word m.generated.column.toNat m.name

/-- The words of lines in order, with the numbers of their lines from zero and their columns. -/
structure Enumerates (ls : List (List Char)) (words : List (Nat × Nat × List Char)) : Prop where
  mem_iff : ∀ n column word, (n, column, word) ∈ words ↔
    ∃ line, ls[n]? = some line ∧ IsWordAt line column word
  increasing : words.Pairwise fun a b => a.1 < b.1 ∨ a.1 = b.1 ∧ a.2.1 < b.2.1

/-- Code and mappings that describe a source, and each other. -/
structure Describes (source code : List Char) (codeLines : List (List Char))
    (words : List (Nat × Nat × List Char)) (mappings : List RawMapping) : Prop where
  code : code = ['\n'].intercalate (prologue :: codeLines) ++
    if source.getLast? = some '\n' then ['\n'] else []
  rewritten : List.Forall₂ Rewritten (Text.lines source) codeLines
  enumerates : Enumerates (Text.lines source) words
  mapped : ∃ rest, mappings = ⟨⟨1, 0⟩, none, none⟩ :: rest ∧
    List.Forall₂ (fun (n, column, word) m => ∃ line codeLine, (Text.lines source)[n]? = some line ∧
      codeLines[n]? = some codeLine ∧ MapsWord line codeLine n column word m) words rest
  increasing : mappings.Pairwise fun a b => a.generated < b.generated

/-! ### Names -/

lemma leadingName?_eq_some_iff : leadingName? word = some name ↔ BeginsWithName word name := by
  constructor
  · intro h
    unfold leadingName? at h
    split at h
    · cases h
    · next hne =>
      obtain rfl := Option.some.inj h
      rw [BeginsWithName, String.toList_ofList]
      refine ⟨hne, fun c hc => List.mem_takeWhile_imp hc, word.dropWhile isNameChar,
        List.takeWhile_append_dropWhile.symm, ?_⟩
      intro d hd
      have hnot := List.head?_dropWhile_not isNameChar word
      rw [Option.mem_def.1 hd] at hnot
      simpa using hnot
  · rintro ⟨hne, hall, rest, rfl, hrest⟩
    obtain ⟨htake, -⟩ := Json.Number.takeWhile_append_of_all hall hrest
    rw [leadingName?, htake]
    split
    · next hnil => exact absurd hnil hne
    · rw [String.ofList_toList]

/-! ### Lines -/

/-- What is written for the first word of a line. -/
def lowerWord (word : List Char) : List Char := if word ∈ keywords then "var".toList else word

lemma lowerWord_of_mem (h : word ∈ ["const".toList, "let".toList]) :
    lowerWord word = "var".toList := by
  have hkeyword : word ∈ keywords := by
    simp only [List.mem_cons, List.not_mem_nil, or_false] at h
    rcases h with rfl | rfl <;> decide
  rw [lowerWord, if_pos hkeyword]

lemma lowerWord_of_notMem (h : word ∉ ["const".toList, "let".toList]) : lowerWord word = word := by
  rw [lowerWord]
  split_ifs with hkeyword
  · simp only [keywords, List.mem_cons, List.not_mem_nil, or_false] at h hkeyword
    tauto
  · rfl

/-- A line with a first word is lowered by that word. -/
lemma lower_of_firstWord (h : FirstWord line blanks word rest) :
    (lower line).text = blanks ++ (lowerWord word ++ rest) ∧
      (lower line).words = ⟨byteLength blanks, byteLength blanks, none⟩ ::
        laterWords (byteLength word - byteLength (lowerWord word)) (word ∈ keywords)
          (wordsFrom (byteLength blanks + byteLength word) rest) := by
  by_cases hword : word ∈ keywords
  · have hvar : byteLength "var".toList = 3 := rfl
    have hshift : byteLength word - byteLength "var".toList = word.length - 3 := by
      rw [byteLength_of_mem_keywords hword, hvar, Nat.add_sub_cancel_left]
    rw [lower_of_keyword h hword, lowerWord, if_pos hword, hshift, decide_eq_true hword]
    exact ⟨rfl, rfl⟩
  · rw [lower_of_not_keyword h hword, lowerWord, if_neg hword, Nat.sub_self,
      decide_eq_false hword]
    exact ⟨h.eq, rfl⟩

/-- A line without words stays as it is. -/
lemma lower_of_words_eq_nil (h : Text.words line = []) : lower line = ⟨line, [], 0, false⟩ := by
  rw [lower, h]

/-- A line has a first word or no words. -/
lemma exists_firstWord_or (line : List Char) :
    (∃ blanks word rest, FirstWord line blanks word rest) ∨ Text.words line = [] := by
  cases hwords : Text.words line with
  | nil => exact .inr rfl
  | cons w ws =>
    have hhead : (wordsFrom 0 line).head? = some w := by
      rw [← Text.words, hwords, List.head?_cons]
    obtain ⟨blanks, rest, hfirst, -⟩ := Text.head?_wordsFrom_iff.1 hhead
    exact .inl ⟨blanks, w.2, rest, hfirst⟩

lemma rewritten_lower (line : List Char) : Rewritten line (lower line).text := by
  rcases exists_firstWord_or line with ⟨blanks, word, rest, hfirst⟩ | hnil
  · rw [(lower_of_firstWord hfirst).1]
    by_cases hword : word ∈ ["const".toList, "let".toList]
    · rw [lowerWord_of_mem hword]
      exact .replaced hfirst hword
    · rw [lowerWord_of_notMem hword, ← hfirst.eq]
      apply Rewritten.same
      rintro column word' ⟨hword', blanks', rest', hfirst', -⟩
      obtain ⟨-, rfl, -⟩ := hfirst.unique hfirst'
      exact hword hword'
  · rw [lower_of_words_eq_nil hnil]
    apply Rewritten.same
    rintro column word ⟨-, blanks, rest, hfirst, -⟩
    rw [hfirst.words] at hnil
    cases hnil

/-! ### Words of lines -/

/-- What comes after the first word of a line can be written after anything, and so can its words. -/
lemma exists_isWordAt (hends : ∀ d ∈ rest.head?, isBlank d) {w : Nat × List Char}
    (hw : w ∈ wordsFrom column rest) :
    ∃ offset, w.1 = column + offset ∧
      ∀ before, IsWordAt (before ++ rest) (byteLength before + offset) w.2 := by
  obtain ⟨between, after, rfl, hcolumn, hword⟩ := Text.mem_wordsFrom_iff.1 hw
  refine ⟨byteLength between, hcolumn, ?_⟩
  intro before
  refine ⟨before ++ between, after, ?_, ?_, hword.ne_nil, hword.solid, ?_, hword.ends⟩
  · rw [List.append_assoc]
  · rw [Text.byteLength_append]
  · cases between with
    | nil =>
      -- a word does not come right after another one
      obtain ⟨d, ds, hd⟩ := List.exists_cons_of_ne_nil hword.ne_nil
      have hsolid := hword.solid d (hd ▸ List.mem_cons_self)
      rw [hends d (by rw [hd]; rfl)] at hsolid
      cases hsolid
    | cons b between =>
      rw [List.getLast?_append_of_ne_nil _ (List.cons_ne_nil b between)]
      exact hword.begins

/-- The declared word is the first one after a keyword. -/
lemma declared_iff (h : FirstWord line blanks word rest) {w : Nat × List Char} :
    Declared line w.1 w.2 ↔ word ∈ keywords ∧
      (wordsFrom (byteLength blanks + byteLength word) rest).head? = some w := by
  rw [Text.head?_wordsFrom_iff]
  constructor
  · rintro ⟨blanks', keyword, rest', between, after, hfirst, hkeyword, hsecond, hcolumn⟩
    obtain ⟨rfl, rfl, rfl⟩ := h.unique hfirst
    refine ⟨hkeyword, between, after, hsecond, ?_⟩
    rw [hcolumn, Text.byteLength_append, Text.byteLength_append, Nat.add_assoc]
  · rintro ⟨hkeyword, between, after, hsecond, hcolumn⟩
    refine ⟨blanks, word, rest, between, after, h, hkeyword, hsecond, ?_⟩
    rw [hcolumn, Text.byteLength_append, Text.byteLength_append, Nat.add_assoc]

/-- What holds of each of the later words holds of them in order. -/
lemma forall₂_laterWords {R : Nat × List Char → Word → Prop} {shift : Nat} {declares : Bool}
    {ws : List (Nat × List Char)} (hws : ws.Pairwise fun a b => a.1 < b.1)
    (h : ∀ w ∈ ws, R w ⟨w.1, w.1 - shift,
      if declares ∧ ws.head? = some w then leadingName? w.2 else none⟩) :
    List.Forall₂ R ws (laterWords shift declares ws) := by
  cases ws with
  | nil => exact .nil
  | cons w ws =>
    obtain ⟨hw, hlater⟩ := List.forall_mem_cons.1 h
    obtain ⟨hlt, -⟩ := List.pairwise_cons.1 hws
    simp only [List.head?_cons, and_true] at hw
    refine .cons hw (List.forall₂_map_right_iff.2 (List.forall₂_same.2 ?_))
    intro u hu
    have hne : w ≠ u := by
      rintro rfl
      exact lt_irrefl _ (hlt w hu)
    have hu' := hlater u hu
    simp only [List.head?_cons, Option.some.injEq, hne, and_false, if_false] at hu'
    exact hu'

/-- The first word of a line is written where it stands. -/
lemma writtenAt_first (h : FirstWord line blanks word rest) :
    WrittenAt line (lower line).text (byteLength blanks) word (byteLength blanks) none := by
  have hwritten : ∀ word', word' ≠ [] → (∀ c ∈ word', isBlank c = false) →
      lowerWord word = word' → IsWordAt (lower line).text (byteLength blanks) word' := by
    intro word' hne hsolid heq
    refine ⟨blanks, rest, by rw [(lower_of_firstWord h).1, heq], rfl, hne, hsolid, ?_, h.ends⟩
    exact fun d hd => h.blank d (List.mem_of_getLast? hd)
  constructor
  · intro hsame
    apply hwritten word h.ne_nil h.solid
    apply lowerWord_of_notMem
    exact fun hword => hsame ⟨hword, blanks, rest, h, rfl⟩
  · rintro ⟨hword, -⟩
    exact hwritten _ (by decide) (Text.solid_of_all (by decide)) (lowerWord_of_mem hword)
  · intro name
    simp only [reduceCtorEq, false_iff, not_and]
    intro hdeclared
    -- a declared word comes after the first one
    have hhead := ((declared_iff h (w := (byteLength blanks, word))).1 hdeclared).2
    obtain ⟨between, -, -, heq⟩ := Text.head?_wordsFrom_iff.1 hhead
    have hpos := Text.byteLength_pos h.ne_nil
    simp only at heq
    omega

/-- A later word of a line moves with what comes before it. -/
lemma writtenAt_later (h : FirstWord line blanks word rest) {w : Nat × List Char}
    (hw : w ∈ wordsFrom (byteLength blanks + byteLength word) rest) :
    WrittenAt line (lower line).text w.1 w.2 (w.1 - (byteLength word - byteLength (lowerWord word)))
      (if word ∈ keywords ∧
          (wordsFrom (byteLength blanks + byteLength word) rest).head? = some w then
        leadingName? w.2 else none) := by
  obtain ⟨offset, hcolumn, hwordAt⟩ := exists_isWordAt h.ends hw
  have hpos := Text.byteLength_pos h.ne_nil
  constructor
  · intro _
    have hle : byteLength (lowerWord word) ≤ byteLength word := by
      rw [lowerWord]
      split_ifs with hword
      · rw [byteLength_of_mem_keywords hword]
        exact Nat.le_add_right 3 _
      · exact le_refl _
    have hcode := hwordAt (blanks ++ lowerWord word)
    rw [List.append_assoc, ← (lower_of_firstWord h).1, Text.byteLength_append] at hcode
    convert hcode using 1
    omega
  · rintro ⟨-, blanks', rest', hfirst, heq⟩
    obtain ⟨rfl, -, -⟩ := h.unique hfirst
    omega
  · intro name
    rw [declared_iff h, ← leadingName?_eq_some_iff]
    split_ifs with hif
    · simp [hif]
    · simp [hif]

/-- The words of a line, each with what lowering makes of it. -/
lemma forall₂_lower (line : List Char) :
    List.Forall₂ (fun w v => v.column = w.1 ∧
        WrittenAt line (lower line).text w.1 w.2 v.written v.name)
      (Text.words line) (lower line).words := by
  rcases exists_firstWord_or line with ⟨blanks, word, rest, hfirst⟩ | hnil
  · rw [hfirst.words, (lower_of_firstWord hfirst).2]
    refine .cons ⟨rfl, writtenAt_first hfirst⟩ (forall₂_laterWords (Text.pairwise_wordsFrom _ _) ?_)
    intro w hw
    refine ⟨rfl, ?_⟩
    simp only [decide_eq_true_eq]
    exact writtenAt_later hfirst hw
  · rw [hnil, lower_of_words_eq_nil hnil]
    exact .nil

/-! ### Words of sources -/

/-- The words of lines with the numbers of their lines, from zero, and their columns. -/
def sourceWords (ls : List (List Char)) : List (Nat × Nat × List Char) :=
  ls.zipIdx.flatMap fun (line, n) => (Text.words line).map (n, ·)

lemma mem_sourceWords_iff {ls : List (List Char)} {q : Nat × Nat × List Char} :
    q ∈ sourceWords ls ↔ ∃ line, ls[q.1]? = some line ∧ q.2 ∈ Text.words line :=
  mem_flatMap_zipIdx

lemma enumerates_sourceWords (ls : List (List Char)) : Enumerates ls (sourceWords ls) := by
  constructor
  · intro n column word
    rw [mem_sourceWords_iff]
    refine exists_congr fun line => and_congr_right fun _ => ?_
    rw [Text.words, Text.mem_wordsFrom_iff]
    simp only [Nat.zero_add, IsWordAt]
  · exact pairwise_flatMap_zipIdx fun line _ => Text.pairwise_wordsFrom 0 line

/-- The words of lowered lines are those of the lines. -/
lemma forall₂_numberedWords (ls : List (List Char)) :
    List.Forall₂ (fun q v => ∃ line, ls[q.1]? = some line ∧ v.1 = q.1 ∧ v.2.column = q.2.1 ∧
        WrittenAt line (lower line).text q.2.1 q.2.2 v.2.written v.2.name)
      (sourceWords ls) (numberedWords (ls.map lower)) := by
  rw [sourceWords, numberedWords, List.zipIdx_map, List.flatMap_map]
  refine List.rel_flatMap (R := fun a b => a = b ∧ a ∈ ls.zipIdx)
    (List.forall₂_same.2 fun a ha => ⟨rfl, ha⟩) ?_
  rintro ⟨line, n⟩ _ ⟨rfl, hmem⟩
  have hline := List.mk_mem_zipIdx_iff_getElem?.1 hmem
  refine List.forall₂_map_left_iff.2 (List.forall₂_map_right_iff.2 ?_)
  exact (forall₂_lower line).imp fun w v hw => ⟨line, hline, rfl, hw.1, hw.2⟩

/-! ### Places of words -/

variable {source : List Char}

/-- The words of a line stand in it. -/
lemma column_le_byteLength {w : Nat × List Char} (h : w ∈ Text.words line) :
    w.1 ≤ byteLength line := by
  obtain ⟨before, after, rfl, hw, -⟩ := Text.exists_isWord_of_mem h
  rw [hw, Nat.zero_add, Text.byteLength_append]
  exact Nat.le_add_right _ _

/-- A word of a lowered line comes from a word of the line. -/
lemma exists_mem_words {v : Word} (h : v ∈ (lower line).words) :
    ∃ w ∈ Text.words line, w.1 = v.column := by
  rcases exists_firstWord_or line with ⟨blanks, word, rest, hfirst⟩ | hnil
  · rw [← List.mem_map, ← map_column_words_lower hfirst]
    exact List.mem_map_of_mem h
  · rw [lower_of_words_eq_nil hnil] at h
    cases h

/-- The places of a word fit in machine words, and it does not move to the right. -/
structure Fits (q : Nat × Word) : Prop where
  line : q.1 < 2 ^ 31
  column : q.2.column < 2 ^ 31
  written : q.2.written ≤ q.2.column

lemma fits_of_mem_numberedWords (hsize : byteLength source < 2 ^ 31) {q : Nat × Word}
    (hq : q ∈ numberedWords ((Text.lines source).map lower)) : Fits q := by
  obtain ⟨l, hl, hw⟩ := mem_numberedWords_iff.1 hq
  rw [List.getElem?_map, Option.map_eq_some_iff] at hl
  obtain ⟨line, hline, rfl⟩ := hl
  have hlines := Text.length_lines_le source
  have hnumber := (List.getElem?_eq_some_iff.1 hline).1
  have hbytes := Text.byteLength_le_of_mem_lines (List.mem_of_getElem? hline)
  obtain ⟨w, hmem, hcolumn⟩ := exists_mem_words hw
  have hplace := column_le_byteLength hmem
  exact ⟨by omega, by omega, written_le_column hw⟩

/-- The words of a source are written one after another. -/
lemma pairwise_words (source : List Char) :
    (numberedWords ((Text.lines source).map lower)).Pairwise fun a b =>
      a.1 < b.1 ∨ a.1 = b.1 ∧ a.2.written < b.2.written := by
  apply pairwise_numberedWords
  refine List.forall_mem_map.2 fun line _ => ?_
  rcases exists_firstWord_or line with ⟨blanks, word, rest, hfirst⟩ | hnil
  · exact pairwise_words_lower hfirst
  · rw [lower_of_words_eq_nil hnil]
    exact .nil

/-! ### Code and maps -/

lemma intercalate_cons {α : Type} (separator as : List α) (bs : List (List α)) :
    separator.intercalate (as :: bs) = as ++ bs.flatMap (separator ++ ·) := by
  induction bs generalizing as with
  | nil => simp
  | cons b bs ih =>
    rw [List.intercalate_cons_cons, ih, List.flatMap_cons, List.append_assoc, List.append_assoc]

lemma Fits.toNat_generated {v : Nat × Word} (h : Fits v) :
    (wordMapping v).generated.line.toNat = v.1 + 2 ∧
      (wordMapping v).generated.column.toNat = v.2.written := by
  obtain ⟨hline, hlt, hle⟩ := h
  exact ⟨Intermediate.toNat_ofNat (by omega), Intermediate.toNat_ofNat (by omega)⟩

/-- The mapping of a word of the source tells of the word. -/
lemma Fits.mapsWord {codeLine : List Char} {w : Nat × List Char} {v : Nat × Word} (h : Fits v)
    (hcolumn : v.2.column = w.1)
    (hword : WrittenAt line codeLine w.1 w.2 v.2.written v.2.name) :
    MapsWord line codeLine v.1 w.1 w.2 (wordMapping v) := by
  obtain ⟨hbelow, hwritten⟩ := h.toNat_generated
  obtain ⟨hline, hlt, -⟩ := h
  constructor
  · refine ⟨_, rfl, Intermediate.toNat_ofNat (by omega), ?_⟩
    rw [← hcolumn]
    exact Intermediate.toNat_ofNat (by omega)
  · exact hbelow
  · rw [hwritten]
    exact hword

/-- Lowered lines and their mappings describe the source. -/
lemma describes_lower (hsize : byteLength source < 2 ^ 31) :
    let lowered := (Text.lines source).map lower
    Describes source (program source lowered) (lowered.map Line.text)
      (sourceWords (Text.lines source)) (rawMap lowered) := by
  intro lowered
  have hfits : ∀ q ∈ numberedWords lowered, Fits q := fun q => fits_of_mem_numberedWords hsize
  constructor
  · rw [intercalate_cons, List.flatMap_map]
    rfl
  · rw [List.map_map, List.forall₂_map_right_iff, List.forall₂_same]
    exact fun line _ => rewritten_lower line
  · exact enumerates_sourceWords _
  · refine ⟨(numberedWords lowered).map wordMapping, rfl, List.forall₂_map_right_iff.2 ?_⟩
    have hwords := (List.forall₂_and_left _ _).2
      ⟨hfits, (forall₂_numberedWords (Text.lines source)).flip⟩
    refine hwords.flip.imp ?_
    rintro ⟨n, w⟩ v ⟨hv, line, hline, hnumber, hcolumn, hwritten⟩
    refine ⟨line, (lower line).text, hline, ?_, ?_⟩
    · rw [List.getElem?_map, List.getElem?_map, hline]
      rfl
    · simp only at hnumber
      rw [← hnumber]
      exact hv.mapsWord hcolumn hwritten
  · rw [rawMap_eq]
    refine List.pairwise_cons.2 ⟨List.forall_mem_map.2 fun q hq => ?_, List.pairwise_map.2 ?_⟩
    · rw [Position.lt_iff_toNat, (hfits q hq).toNat_generated.1]
      exact .inl (Nat.succ_lt_succ (Nat.succ_pos q.1))
    · refine (pairwise_words source).imp_of_mem fun {a b} ha hb hab => ?_
      obtain ⟨hline, hcolumn⟩ := (hfits a ha).toNat_generated
      obtain ⟨hline', hcolumn'⟩ := (hfits b hb).toNat_generated
      rw [Position.lt_iff_toNat, hline, hline', hcolumn, hcolumn']
      omega

/-- Both forms of the map have the same entries. -/
lemma originIndex_structuredMap (fileName : String) (hsize : byteLength source < 2 ^ 31) :
    let lowered := (Text.lines source).map lower
    OriginIndex.ofSourceMap (structuredMap fileName lowered) = .ofRaw (rawMap lowered) := by
  intro lowered
  have hplace : ∀ q ∈ numberedWords lowered, q.1 < 2 ^ 31 ∧ q.2.written < 2 ^ 31 := by
    intro q hq
    have hfits := fits_of_mem_numberedWords hsize hq
    exact ⟨hfits.line, hfits.written.trans_lt hfits.column⟩
  obtain ⟨names, hsegments, -⟩ :=
    segments_structuredMap fileName (pairwise_words source) hplace
  have hentry : ∀ q : Nat × Word, (⟨.ofPoint (wordSegment names q).generated,
      (wordSegment names q).position?⟩ : OriginEntry) =
        ⟨(wordMapping q).generated, (wordMapping q).origin⟩ := by
    intro q
    simp only [wordSegment, SourceMap.numbered, Segment.position?, Position.ofPoint,
      Option.map_some, ofNat_add_one, wordMapping]
  rw [OriginIndex.ofSourceMap, hsegments, List.map_cons, List.map_map, Function.comp_def]
  simp only [hentry]
  rw [OriginIndex.ofRaw, rawMap_eq, List.map_cons, List.map_map]
  rfl

/-! ### The result -/

/-- A source that is accepted is accepted with either form of map. -/
lemma transform_form {form : MapForm} {fileName source : String} {out : TransformOutput}
    (form' : MapForm) (h : transform form fileName source = .ok out) :
    ∃ out', transform form' fileName source = .ok out' := by
  unfold transform at h ⊢
  simp only at h ⊢
  split at h
  · cases h
  · exact ⟨_, rfl⟩

/-- The code of an accepted source and both forms of its map describe each other. -/
theorem transform_describes {form : MapForm} {fileName source : String} {out : TransformOutput}
    (hsize : source.utf8ByteSize < 2 ^ 31) (hout : transform form fileName source = .ok out) :
    ∃ raw structured code codeLines words mappings map,
      transform .raw fileName source = .ok raw ∧
        transform .structured fileName source = .ok structured ∧
          raw.code = some code ∧ structured.code = some code ∧
            raw.map = some (.raw mappings) ∧ structured.map = some (.structured map) ∧
              Describes source.toList code.toList codeLines words mappings ∧
                ∀ query, (OriginIndex.ofSourceMap map).originOf? query =
                  (OriginIndex.ofRaw mappings).originOf? query := by
  have hbytes : byteLength source.toList < 2 ^ 31 := by
    rw [Text.byteLength_toList]
    exact hsize
  obtain ⟨raw, hraw⟩ := transform_form .raw hout
  obtain ⟨structured, hstructured⟩ := transform_form .structured hout
  obtain ⟨hcode, hmap⟩ := transform_ok hraw
  obtain ⟨hcode', hmap'⟩ := transform_ok hstructured
  refine ⟨raw, structured, _, ((Text.lines source.toList).map lower).map Line.text,
    sourceWords (Text.lines source.toList), _, _, hraw, hstructured, hcode, hcode', hmap, hmap',
    ?_, ?_⟩
  · rw [String.toList_ofList]
    exact describes_lower hbytes
  · intro query
    rw [originIndex_structuredMap fileName hbytes]

/-- An accepted source, where `let` becomes `var` and the word after it is named. -/
theorem transform_describes_let :
    let source := "let word = 'é';\r\n"
    source.utf8ByteSize < 2 ^ 31 ∧ ∃ out, transform .raw "a.js" source = .ok out ∧
      ∃ raw structured code codeLines words mappings map,
        transform .raw "a.js" source = .ok raw ∧
          transform .structured "a.js" source = .ok structured ∧
            raw.code = some code ∧ structured.code = some code ∧
              raw.map = some (.raw mappings) ∧ structured.map = some (.structured map) ∧
                Describes source.toList code.toList codeLines words mappings ∧
                  ∀ query, (OriginIndex.ofSourceMap map).originOf? query =
                    (OriginIndex.ofRaw mappings).originOf? query := by
  intro source
  have hsize : source.utf8ByteSize < 2 ^ 31 := by decide
  have hfirst : FirstWord "let word = 'é';".toList [] "let".toList " word = 'é';".toList :=
    ⟨rfl, by simp, by decide, Text.solid_of_all (by decide), fun d hd => by
      obtain rfl := Option.some.inj hd
      decide⟩
  have hlines : Text.lines source.toList = ["let word = 'é';".toList] := by decide +kernel
  have hrejection : rejection? "a.js" (Text.lines source.toList) = none := by
    rw [hlines]
    refine rejection?_eq_none _ (List.forall_mem_singleton.2 ?_)
    rw [firstWord?, hfirst.words]
    decide
  obtain ⟨out, hout⟩ : ∃ out, transform .raw "a.js" source = .ok out := by
    rw [transform, hrejection]
    exact ⟨_, rfl⟩
  exact ⟨hsize, out, hout, transform_describes hsize hout⟩

end Lowering

end Provenance
