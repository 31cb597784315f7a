import Provenance.Lowering
import Provenance.Proofs.Lexing
import Provenance.Proofs.Words

/-!
# Lowered lines

A lowered line has the words of the line it came from, each where lowering says that it is written.
Only the first word can differ: where the line begins with a keyword, it is `var`, and the words
after it move to the left by the length that the keyword lost.
-/

namespace Provenance.Lowering

open Text (FirstWord byteLength wordsFrom)

variable {line blanks word rest : List Char}

/-! ### Keywords -/

/-- The keywords of declarations. -/
def keywords : List (List Char) := ["const".toList, "let".toList, "var".toList]

lemma keyword?_eq (word : List Char) :
    keyword? word = if word ∈ keywords then some word else none := by
  simp [keyword?, keywords]

/-- How much shorter `var` is than a keyword. -/
lemma byteLength_of_mem_keywords (h : word ∈ keywords) :
    byteLength word = 3 + (word.length - 3) := by
  simp only [keywords, List.mem_cons, List.not_mem_nil, or_false] at h
  rcases h with rfl | rfl | rfl <;> rfl

/-! ### Lines with words -/

lemma firstWord_var (h : FirstWord line blanks word rest) :
    FirstWord (blanks ++ ("var".toList ++ rest)) blanks "var".toList rest :=
  ⟨rfl, h.blank, by decide, Text.solid_of_all (by decide), h.ends⟩

lemma lower_of_keyword (h : FirstWord line blanks word rest) (hword : word ∈ keywords) :
    lower line = ⟨blanks ++ ("var".toList ++ rest),
      ⟨byteLength blanks, byteLength blanks, none⟩ ::
        laterWords (word.length - 3) true (wordsFrom (byteLength blanks + byteLength word) rest),
      byteLength blanks, true⟩ := by
  have hdrop : line.drop (blanks.length + word.length) = rest := by
    rw [h.eq, ← List.append_assoc, ← List.length_append, List.drop_left]
  simp only [lower, h.words, keyword?_eq, if_pos hword, h.takeWhile, hdrop, List.append_assoc]

lemma lower_of_not_keyword (h : FirstWord line blanks word rest) (hword : word ∉ keywords) :
    lower line = ⟨line,
      ⟨byteLength blanks, byteLength blanks, none⟩ ::
        laterWords 0 false (wordsFrom (byteLength blanks + byteLength word) rest),
      byteLength blanks, false⟩ := by
  simp only [lower, h.words, keyword?_eq, if_neg hword]

lemma map_column_laterWords (shift : Nat) (declares : Bool) (ws : List (Nat × List Char)) :
    (laterWords shift declares ws).map Word.column = ws.map Prod.fst := by
  cases ws <;> simp [laterWords, Function.comp_def]

lemma map_written_laterWords (shift : Nat) (declares : Bool) (ws : List (Nat × List Char)) :
    (laterWords shift declares ws).map Word.written = ws.map fun w => w.1 - shift := by
  cases ws <;> simp [laterWords, Function.comp_def]

lemma written_of_mem_laterWords {shift : Nat} {declares : Bool} {ws : List (Nat × List Char)}
    {w : Word} (h : w ∈ laterWords shift declares ws) : w.written = w.column - shift := by
  cases ws with
  | nil => simp [laterWords] at h
  | cons first ws =>
    rcases List.mem_cons.1 h with rfl | h
    · rfl
    · obtain ⟨u, -, rfl⟩ := List.mem_map.1 h
      rfl

lemma le_column_of_mem_laterWords {shift column : Nat} {declares : Bool} {w : Word}
    (h : w ∈ laterWords shift declares (wordsFrom column rest)) : column ≤ w.column := by
  have hmem := List.mem_map_of_mem (f := Word.column) h
  rw [map_column_laterWords] at hmem
  obtain ⟨u, hu, hcolumn⟩ := List.mem_map.1 hmem
  obtain ⟨before, -, -, -, -, hle⟩ := Text.exists_of_mem_wordsFrom hu
  omega

/-- Words stay where they are in a line that does not begin with a keyword. -/
lemma written_eq_column (h : FirstWord line blanks word rest) (hword : word ∉ keywords)
    {w : Word} (hw : w ∈ (lower line).words) : w.written = w.column := by
  rw [lower_of_not_keyword h hword] at hw
  rcases List.mem_cons.1 hw with rfl | hw
  · rfl
  · exact written_of_mem_laterWords hw

/-- The words of a line are where its words begin. -/
theorem map_column_words_lower (h : FirstWord line blanks word rest) :
    (lower line).words.map Word.column = (Text.words line).map Prod.fst := by
  by_cases hword : word ∈ keywords
  · rw [lower_of_keyword h hword, h.words, List.map_cons, map_column_laterWords, List.map_cons]
  · rw [lower_of_not_keyword h hword, h.words, List.map_cons, map_column_laterWords,
      List.map_cons]

/-- The words of a line are written where the words of the lowered line begin. -/
theorem map_written_words_lower (h : FirstWord line blanks word rest) :
    (lower line).words.map Word.written = (Text.words (lower line).text).map Prod.fst := by
  by_cases hword : word ∈ keywords
  · have hvar : byteLength "var".toList = 3 := rfl
    rw [lower_of_keyword h hword, (firstWord_var h).words, List.map_cons, map_written_laterWords,
      List.map_cons, hvar, byteLength_of_mem_keywords hword, ← Nat.add_assoc, Text.wordsFrom_add]
    simp
  · rw [lower_of_not_keyword h hword, h.words, List.map_cons, map_written_laterWords,
      List.map_cons]
    rfl

/-- The words of a line are written one after another. -/
lemma pairwise_words_lower (h : FirstWord line blanks word rest) :
    (lower line).words.Pairwise fun a b => a.written < b.written := by
  have hwords := List.pairwise_map.2 (Text.pairwise_wordsFrom 0 (lower line).text)
  rw [← Text.words, ← map_written_words_lower h] at hwords
  exact List.pairwise_map.1 hwords

end Provenance.Lowering
