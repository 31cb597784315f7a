import Mathlib.Data.List.Forall2
import Provenance.Proofs.LineColumns
import Provenance.Proofs.Modes

/-!
# Located statements

In tree mode the pipeline gives back the tree of the second stage, with its locations moved to the
source. The tree has a statement for each line of intermediate code that does not close a block. A
statement begins where the first token of its line begins and ends just past the last one, so its
patched endpoints are where the first and the last of the tokens stood that the line was printed
from. The end of the program lies below all lines and stays as it is.
-/

namespace Provenance

open Text (FirstWord byteLength)

/-! ### Lines without their margins -/

namespace Text

/-- Whether a line begins, after blanks, with a closing brace. -/
def closesBlock (line : List Char) : Bool := (trimStart line).head? = some '\x7d'

variable {line : List Char}

lemma trimStart_ne_nil (h : ∃ c ∈ line, isBlank c = false) : trimStart line ≠ [] := by
  intro hnil
  obtain ⟨c, hc, hsolid⟩ := h
  have hblank := List.dropWhile_eq_nil_iff.mp hnil c hc
  rw [hsolid] at hblank
  cases hblank

/-- A line that does not end with a blank has none to lose there. -/
lemma trimEnd_of_getLast (h : ∀ c ∈ line.getLast?, isBlank c = false) : trimEnd line = line := by
  unfold trimEnd
  rw [← List.head?_reverse] at h
  cases hline : line.reverse with
  | nil => rw [List.dropWhile_nil, ← hline, List.reverse_reverse]
  | cons c cs =>
    rw [hline] at h
    rw [List.dropWhile_cons_of_neg (by simp [h c rfl]), ← hline, List.reverse_reverse]

end Text

lemma Lowering.beginsStatement_eq {line : List Char} (h : ∃ c ∈ line, isBlank c = false) :
    beginsStatement line = !Text.closesBlock line := by
  unfold beginsStatement Text.closesBlock
  cases hline : Text.trimStart line with
  | nil => exact absurd hline (Text.trimStart_ne_nil h)
  | cons c cs => simp

/-! ### The statements of a tree -/

namespace SyntaxTree

/-- The statements of a program: the items of its body. A program without a body has none. -/
def body (program : Json) : List Json := ((program.get? "body").bind Json.items?).getD []

variable {index : OriginIndex} {node : Json} {r : SourceRange}

lemma body_patch (index : OriginIndex) (program : Json) :
    body (patch index program) = (body program).map (patch index) := by
  have hbody : step? (.key "body") (patch index program) =
      (step? (.key "body") program).map (patch index) := step?_patch (by decide) program
  have hget : ∀ v : Json, step? (.key "body") v = v.get? "body" := fun v => by cases v <;> rfl
  rw [hget, hget] at hbody
  rw [body, body, hbody]
  cases program.get? "body" with
  | none => rfl
  | some v =>
    cases v with
    | array items => exact patchItems_eq_map items
    | _ => rfl

lemma point?_pointOf {line column : Nat} (hline : line < 2 ^ 32) (hcolumn : column < 2 ^ 32) :
    point? (pointOf line column) = some ⟨.ofNat line, .ofNat column⟩ := by
  have hword : ∀ n : Nat, n < 2 ^ 32 → (Json.int n).word? = some (UInt32.ofNat n) :=
    fun n hn => if_pos ⟨Int.natCast_nonneg n, hn⟩
  simp [point?, pointOf, Json.Fields.get?, hword line hline, hword column hcolumn]

/-- What a point stands for has the line of the point. -/
lemma line_of_point?_pointOf {line column : Nat} {p : Position}
    (h : point? (pointOf line column) = some p) : p.line.toNat = line := by
  simp only [point?, pointOf, Json.Fields.get?, Option.bind_eq_bind, Option.bind_eq_some_iff] at h
  obtain ⟨v, hv, l, hl, _, _, _, _, hp⟩ := h
  obtain rfl := Option.some.inj hp
  have hv : v = .int line := by simpa using hv.symm
  have hword := eq_word_of_word? hl
  rw [hv, Json.word, Json.int.injEq] at hword
  exact (Int.ofNat.inj hword).symm

lemma range?_of_loc {start stop : Json} {p q : Position}
    (hloc : node.get? "loc" = some (locOf start stop)) (hp : point? start = some p)
    (hq : point? stop = some q) : range? node = some ⟨p, q⟩ := by
  have hstart : (locOf start stop).get? "start" = some start := rfl
  have hstop : (locOf start stop).get? "end" = some stop := rfl
  simp only [range?, hloc, Option.bind_eq_bind, Option.bind_some, hstart, hstop, hp, hq]
  rfl

/-- A node whose endpoints are both traced is moved to their origins. -/
lemma range?_patch {start stop : Position} (h : range? node = some r)
    (hstart : index.originOf? r.start = some start) (hstop : index.originOf? r.stop = some stop) :
    range? (patch index node) = some ⟨start, stop⟩ := by
  simp only [range?, Option.bind_eq_bind, Option.bind_eq_some_iff] at h
  obtain ⟨loc, hloc, v, hv, p, hp, w, hw, q, hq, hr⟩ := h
  obtain rfl := Option.some.inj hr
  have hpatched : (patch index node).get? "loc" = some (patchLoc index loc) := by
    rw [get?_loc_patch, hloc]
    rfl
  have hv' : (patchLoc index loc).get? "start" = some (patchPoint index v) := by
    rw [get?_patchLoc (.inl rfl), hv]
    rfl
  have hw' : (patchLoc index loc).get? "end" = some (patchPoint index w) := by
    rw [get?_patchLoc (.inr rfl), hw]
    rfl
  have hp' : point? (patchPoint index v) = some start :=
    point?_patchPoint (by rw [hp]; exact hstart)
  have hq' : point? (patchPoint index w) = some stop :=
    point?_patchPoint (by rw [hq]; exact hstop)
  simp [range?, hpatched, hv', hw', hp', hq']

end SyntaxTree

/-! ### Rows and their tokens -/

/-- The kept tokens of a source that are found on a line of its intermediate code, in order. -/
def survivorsOn (source intermediate : List Char) (line : Nat) : List Token :=
  (((keptTokens (tokens source)).zip (tokens intermediate)).filter fun (_, found) =>
    found.line = line).map Prod.fst

namespace Intermediate

variable {text : List Char} {sourceLines : List (List Char)} {row : List Token} {n : Nat}

lemma mem_printed_iff {q : Nat × Printed} : q ∈ printed text (keptTokens (tokens text)) ↔
    ∃ row, (keptRows text)[q.1]? = some row ∧ q.2 ∈ rowPrinted (Text.split '\n' text) row := by
  obtain ⟨n, p⟩ := q
  simp only [printed, List.mem_flatMap, Prod.exists, List.mk_mem_zipIdx_iff_getElem?, List.mem_map]
  constructor
  · rintro ⟨row, n', hrow, p', hp, heq⟩
    obtain ⟨rfl, rfl⟩ := Prod.mk.inj heq
    exact ⟨row, hrow, hp⟩
  · rintro ⟨row, hrow, hp⟩
    exact ⟨row, n, hrow, p, hp, rfl⟩

/-- What comes from all rows with their numbers, without what comes from others than one of them. -/
lemma flatMap_zipIdx_ite {α : Type} (f : List Token → List α) (rows : List (List Token))
    (k n : Nat) :
    (rows.zipIdx k).flatMap (fun q => if q.2 = k + n then f q.1 else []) =
      (rows[n]?.map f).getD [] := by
  induction rows generalizing k n with
  | nil => simp
  | cons row rows ih =>
    rw [List.zipIdx_cons, List.flatMap_cons]
    cases n with
    | zero =>
      have hrest : (rows.zipIdx (k + 1)).flatMap
          (fun q => if q.2 = k + 0 then f q.1 else []) = [] := by
        rw [List.flatMap_eq_nil_iff]
        intro q hq
        have hle := List.le_snd_of_mem_zipIdx hq
        rw [if_neg (by omega)]
      rw [hrest, List.append_nil]
      exact if_pos rfl
    | succ n =>
      have hnumber : k + (n + 1) = k + 1 + n := by omega
      rw [if_neg (by omega), hnumber, ih, List.nil_append, List.getElem?_cons_succ]

lemma filter_printed (hrow : (keptRows text)[n]? = some row) :
    (printed text (keptTokens (tokens text))).filter (fun q => q.1 = n) =
      (rowPrinted (Text.split '\n' text) row).map (n, ·) := by
  have hone : ∀ q : List Token × Nat,
      ((rowPrinted (Text.split '\n' text) q.1).map (q.2, ·)).filter (fun q => q.1 = n) =
        if q.2 = 0 + n then (rowPrinted (Text.split '\n' text) q.1).map (n, ·) else [] := by
    intro q
    rw [List.filter_map, Nat.zero_add]
    by_cases hq : q.2 = n
    · simp [hq, Function.comp_def]
    · simp [hq, Function.comp_def]
  rw [printed, List.filter_flatMap]
  simp only [hone]
  rw [flatMap_zipIdx_ite (fun row => (rowPrinted (Text.split '\n' text) row).map (n, ·)), hrow]
  rfl

/-- The tokens that survive on a line are those of its row. -/
lemma survivorsOn_print (hrow : (keptRows text)[n]? = some row) :
    survivorsOn text (printedCode text) n = row := by
  have hlines : (tokens (printedCode text)).map Token.line =
      (printed text (keptTokens (tokens text))).map Prod.fst := by
    have := congrArg (List.map fun r : Reading => r.2.2.1) (map_reading_print text)
    rw [List.map_map, List.map_map] at this
    exact this
  have hzip : ((keptTokens (tokens text)).zip (tokens (printedCode text))).map
      (Prod.map id Token.line) =
        (printed text (keptTokens (tokens text))).map fun q => (q.2.token, q.1) := by
    rw [← List.zip_map_right, hlines, ← List.zip_map', map_token_printed]
  have hsurvivors : survivorsOn text (printedCode text) n =
      ((((keptTokens (tokens text)).zip (tokens (printedCode text))).map
        (Prod.map id Token.line)).filter fun z => z.2 = n).map Prod.fst := by
    rw [List.filter_map, List.map_map]
    rfl
  rw [hsurvivors, hzip, List.filter_map, List.map_map]
  change ((printed text (keptTokens (tokens text))).filter fun q => q.1 = n).map _ = row
  rw [filter_printed hrow, List.map_map]
  exact map_token_lineFrom _ _ row

/-! ### The ends of a row -/

lemma le_column_of_mem_lineFrom {column : Nat} {leading : Bool} {p : Printed}
    (h : p ∈ Printed.lineFrom column leading row) : column ≤ p.column := by
  induction row generalizing column leading with
  | nil => cases h
  | cons t ts ih =>
    rw [Printed.lineFrom_cons, List.mem_cons] at h
    rcases h with rfl | h
    · exact Nat.le_add_right _ _
    · have := ih h
      omega

/-- The last token of a row ends where the text of the row does, and none is printed after it. -/
lemma exists_last_lineFrom (hne : row ≠ []) (column : Nat) (leading : Bool) :
    ∃ p ∈ Printed.lineFrom column leading row, row.getLast? = some p.token ∧
      p.column + byteLength p.token.chars = column + byteLength (Printed.lineChars leading row) ∧
      ∀ p' ∈ Printed.lineFrom column leading row, p'.column ≤ p.column := by
  induction row generalizing column leading with
  | nil => exact absurd rfl hne
  | cons t ts ih =>
    rw [Printed.lineFrom_cons, Printed.lineChars_cons]
    by_cases hts : ts = []
    · subst hts
      refine ⟨_, List.mem_singleton_self _, rfl, ?_, ?_⟩
      · simp [Printed.lineChars, Nat.add_assoc]
      · intro p' hp'
        rw [List.mem_singleton.mp hp']
    · obtain ⟨p, hp, hlast, hend, hmax⟩ := ih hts
        (column + byteLength (Printed.gap leading t) + byteLength t.chars) false
      refine ⟨p, .tail _ hp, ?_, ?_, ?_⟩
      · rw [List.getLast?_cons_of_ne_nil hts, hlast]
      · rw [hend, Text.byteLength_append, Text.byteLength_append]
        omega
      · intro p' hp'
        rcases List.mem_cons.mp hp' with rfl | hp'
        · have := le_column_of_mem_lineFrom hp
          exact Nat.le_trans (Nat.le_add_right _ _) this
        · exact hmax p' hp'

lemma Addressable.standsAt_position {t : Token} (haddressable : Addressable text)
    (ht : t ∈ keptTokens (tokens text)) : t.StandsAt t.position := by
  obtain ⟨hline, hcolumn⟩ := haddressable t ht
  exact toNat_ofPoint_of_lt hline (by omega)

section

variable {file : SourceFile} {t : Token} {ts : List Token}

/-- The place where a row begins is traced to where its first token stood. -/
lemma Addressable.originOf?_first (haddressable : Addressable file.text.toList)
    (options : Config.CompilerOptions) (hrow : (keptRows file.text.toList)[n]? = some (t :: ts)) :
    (OriginIndex.ofSourceMap (map file options)).originOf?
      ⟨.ofNat (n + 1), .ofNat (byteLength (rowIndent (Text.split '\n' file.text.toList) (t :: ts)))⟩ =
        some t.position := by
  have hq : (n, ⟨byteLength (rowIndent (Text.split '\n' file.text.toList) (t :: ts)), t⟩) ∈
      printed file.text.toList (keptTokens (tokens file.text.toList)) := by
    rw [mem_printed_iff]
    refine ⟨t :: ts, hrow, ?_⟩
    rw [rowPrinted_cons]
    exact List.mem_cons_self
  obtain ⟨-, hend, -⟩ := haddressable.place_lt hq
  exact haddressable.originOf?_of_last options hq (Nat.lt_of_le_of_lt (Nat.le_add_right _ _) hend)
    (Nat.le_refl _) fun _ _ _ hle => hle

/-- The place just past a row is traced to where its last token stood. -/
lemma Addressable.originOf?_last (haddressable : Addressable file.text.toList)
    (options : Config.CompilerOptions) (hrow : (keptRows file.text.toList)[n]? = some row)
    (hlast : row.getLast? = some t) :
    byteLength (rowLine (Text.split '\n' file.text.toList) row) < 2 ^ 32 ∧
      (OriginIndex.ofSourceMap (map file options)).originOf?
        ⟨.ofNat (n + 1), .ofNat (byteLength (rowLine (Text.split '\n' file.text.toList) row))⟩ =
          some t.position := by
  have hne : row ≠ [] := by
    rintro rfl
    cases hlast
  obtain ⟨p, hp, hp', hend, hmax⟩ := exists_last_lineFrom hne
    (byteLength (rowIndent (Text.split '\n' file.text.toList) row)) true
  rw [← Text.byteLength_append] at hend
  change _ = byteLength (rowLine (Text.split '\n' file.text.toList) row) at hend
  obtain rfl := Option.some.inj (hp'.symm.trans hlast)
  have hq : (n, p) ∈ printed file.text.toList (keptTokens (tokens file.text.toList)) :=
    mem_printed_iff.mpr ⟨row, hrow, hp⟩
  obtain ⟨-, hlt, -⟩ := haddressable.place_lt hq
  simp only [hend] at hlt
  refine ⟨hlt, haddressable.originOf?_of_last options hq hlt (Nat.le.intro hend) ?_⟩
  intro q' hq' hsame _
  obtain ⟨row', hrow', hmem⟩ := mem_printed_iff.mp hq'
  rw [hsame, hrow] at hrow'
  obtain rfl := Option.some.inj hrow'
  exact hmax q'.2 hmem

/-- The tokens of a row stand on one line, and the last one not before the first one. -/
lemma column_le_getLast (hrow : t :: ts ∈ keptRows text) {last : Token}
    (hlast : (t :: ts).getLast? = some last) : t.line = last.line ∧ t.column ≤ last.column := by
  have hmem := List.mem_of_getLast? hlast
  have hline := line_eq_of_mem_rows hrow List.mem_cons_self hmem
  refine ⟨hline, ?_⟩
  have hsublist : (t :: ts).Sublist (tokens text) := by
    refine List.Sublist.trans ?_ (keptTokens_sublist (tokens text))
    rw [← flatten_rows (keptTokens (tokens text))]
    exact List.sublist_flatten_of_mem hrow
  rcases List.mem_cons.mp hmem with rfl | hmem
  · exact Nat.le_refl _
  · have hpairwise := (pairwise_tokens text).sublist hsublist
    have := (List.pairwise_cons.mp hpairwise).1 last hmem
    omega

end

end Intermediate

/-! ### Located statements -/

namespace Lowering

variable {line blanks word rest : List Char}

lemma indent_lower (h : FirstWord line blanks word rest) :
    (lower line).indent = byteLength blanks := by
  by_cases hword : word ∈ keywords
  · rw [lower_of_keyword h hword]
  · rw [lower_of_not_keyword h hword]

/-- A statement ranges from its first word to the end of its line. -/
lemma range?_statement {n : Nat} (hline : n + 1 < 2 ^ 32) {l : Line} (hindent : l.indent < 2 ^ 32)
    (hend : byteLength (Text.trimEnd line) < 2 ^ 32) :
    SyntaxTree.range? (statement n line l) =
      some ⟨⟨.ofNat (n + 1), .ofNat l.indent⟩,
        ⟨.ofNat (n + 1), .ofNat (byteLength (Text.trimEnd line))⟩⟩ := by
  have hloc : (statement n line l).get? "loc" =
      some (SyntaxTree.locOf (SyntaxTree.pointOf (n + 1) l.indent)
        (SyntaxTree.pointOf (n + 1) (byteLength (Text.trimEnd line)))) := by
    unfold statement
    split <;> simp [Json.get?, Json.Fields.get?]
  exact SyntaxTree.range?_of_loc hloc (SyntaxTree.point?_pointOf hline hindent)
    (SyntaxTree.point?_pointOf hline hend)

end Lowering

/-- The node ranges from where the first token stood that survives on a line of intermediate code
to where the last one stood, on one line of the source. -/
def LocatedOn (source intermediate : List Char) (line : Nat) (node : Json) : Prop :=
  ∃ (first last : Token) (range : SourceRange),
    (survivorsOn source intermediate line).head? = some first ∧
    (survivorsOn source intermediate line).getLast? = some last ∧
    SyntaxTree.range? node = some range ∧
    first.StandsAt range.start ∧ last.StandsAt range.stop ∧
    range.start ≤ range.stop ∧ range.start.line = range.stop.line

namespace Intermediate

variable {file : SourceFile} {text : List Char} {row : List Token} {n : Nat}

/-- The statement of a row ranges over its line, without the indentation. -/
lemma Addressable.range?_statement (haddressable : Addressable text)
    (h : lexicalErrors text = []) (hrow : (keptRows text)[n]? = some row) :
    let line := rowLine (Text.split '\n' text) row
    SyntaxTree.range? (Lowering.statement n line (Lowering.lower line)) =
      some ⟨⟨.ofNat (n + 1), .ofNat (byteLength (rowIndent (Text.split '\n' text) row))⟩,
        ⟨.ofNat (n + 1), .ofNat (byteLength line)⟩⟩ := by
  intro line
  have hprintable := printable_of_mem_rows h (List.mem_of_getElem? hrow)
  obtain ⟨p, hp, -, hend, -⟩ := exists_last_lineFrom hprintable.ne_nil
    (byteLength (rowIndent (Text.split '\n' text) row)) true
  have hq : (n, p) ∈ printed text (keptTokens (tokens text)) :=
    mem_printed_iff.mpr ⟨row, hrow, hp⟩
  have hplace := haddressable.place_lt hq
  have hlength : byteLength line = byteLength (rowIndent (Text.split '\n' text) row) +
      byteLength (Printed.lineChars true row) := Text.byteLength_append _ _
  have hindent : (Lowering.lower line).indent =
      byteLength (rowIndent (Text.split '\n' text) row) := by
    obtain ⟨word, rest, hfirst⟩ := exists_firstWord_of_printable (Text.split '\n' text) hprintable
    exact Lowering.indent_lower hfirst
  have htrim : Text.trimEnd line = line := by
    apply Text.trimEnd_of_getLast
    intro c hc
    change c ∈ (_ ++ Printed.lineChars true row).getLast? at hc
    rw [List.getLast?_append_of_ne_nil _ (lineChars_ne_nil hprintable true)] at hc
    exact getLast_lineChars hprintable.closed hc
  rw [← hlength] at hend
  have hlt : byteLength line < 2 ^ 32 := hend ▸ hplace.2.1
  have hrange := Lowering.range?_statement hplace.1
    (by rw [hindent]; exact Nat.lt_of_le_of_lt (Nat.le.intro hlength.symm) hlt)
    (by rw [htrim]; exact hlt)
  rwa [hindent, htrim] at hrange

/-- The statement of a row, once it is patched, is located where the row came from. -/
lemma Addressable.locatedOn_patch (haddressable : Addressable file.text.toList)
    (options : Config.CompilerOptions) (h : lexicalErrors file.text.toList = [])
    (hrow : (keptRows file.text.toList)[n]? = some row) :
    let line := rowLine (Text.split '\n' file.text.toList) row
    LocatedOn file.text.toList (printedCode file.text.toList) n
      (SyntaxTree.patch (.ofSourceMap (map file options))
        (Lowering.statement n line (Lowering.lower line))) := by
  intro line
  have hmem := List.mem_of_getElem? hrow
  have hkept : ∀ u ∈ row, u ∈ keptTokens (tokens file.text.toList) := by
    intro u hu
    rw [← flatten_rows (keptTokens (tokens file.text.toList))]
    exact List.mem_flatten_of_mem hmem hu
  have hrange := haddressable.range?_statement h hrow
  obtain ⟨t, ts, rfl⟩ := List.exists_cons_of_ne_nil (printable_of_mem_rows h hmem).ne_nil
  obtain ⟨last, hlast⟩ : ∃ last, (t :: ts).getLast? = some last :=
    ⟨_, List.getLast?_eq_some_getLast (List.cons_ne_nil t ts)⟩
  have hstart := haddressable.standsAt_position (hkept t List.mem_cons_self)
  have hstop := haddressable.standsAt_position (hkept last (List.mem_of_getLast? hlast))
  obtain ⟨hline, hcolumn⟩ := column_le_getLast hmem hlast
  refine ⟨t, last, ⟨t.position, last.position⟩, ?_, ?_, ?_, hstart, hstop, ?_, ?_⟩
  · rw [survivorsOn_print hrow]
    rfl
  · rw [survivorsOn_print hrow, hlast]
  · exact SyntaxTree.range?_patch hrange (haddressable.originOf?_first options hrow)
      (haddressable.originOf?_last options hrow hlast).2
  · rw [Position.le_iff_toNat, hstart.1, hstart.2, hstop.1, hstop.2]
    exact .inr ⟨congrArg (· + 1) hline, hcolumn⟩
  · rw [← UInt32.toNat_inj, hstart.1, hstop.1, hline]

end Intermediate

/-! ### The end of the program -/

lemma Text.count_flatMap {ls : List (List Char)} (h : ∀ line ∈ ls, '\n' ∉ line) :
    (ls.flatMap (· ++ ['\n'])).count '\n' = ls.length := by
  induction ls with
  | nil => rfl
  | cons line ls ih =>
    obtain ⟨hline, hls⟩ := List.forall_mem_cons.mp h
    rw [List.flatMap_cons, List.count_append, List.count_append, ih hls,
      List.count_eq_zero.mpr hline, List.length_cons]
    simp [Nat.add_comm]

namespace Lowering

lemma body_tree (fileName source : String) :
    SyntaxTree.body (tree fileName source) = statements (Text.lines source.toList) := by
  unfold tree
  by_cases h : statements (Text.lines source.toList) = []
  · simp [h, SyntaxTree.body, Json.get?, Json.Fields.get?]
  · simp [h, SyntaxTree.body, Json.get?, Json.Fields.get?, Json.items?]

/-- A program ranges to the end of its source, as far as words can tell where that is. -/
lemma get?_loc_tree (fileName source : String) :
    (tree fileName source).get? "loc" = some (SyntaxTree.rangeJson
      ⟨⟨1, 0⟩, ⟨.ofNat (source.toList.count '\n' + 1),
        .ofNat (Text.lastPiece '\n' source.toList).length⟩⟩) := by
  have hplace : SourceFile.position ⟨fileName, source⟩ source.toList.length =
      ⟨.ofNat (source.toList.count '\n' + 1),
        .ofNat (Text.lastPiece '\n' source.toList).length⟩ :=
    SourceFile.position_append (List.append_nil _).symm
  by_cases h : statements (Text.lines source.toList) = []
  · simp [tree, hplace, h, Json.get?, Json.Fields.get?]
  · simp [tree, hplace, h, Json.get?, Json.Fields.get?]

/-- A program ends on the line after all line feeds of its source. -/
lemma exists_endpoint?_tree (fileName source : String) : ∃ column,
    SyntaxTree.endpoint? [] "end" (tree fileName source) =
      some (SyntaxTree.pointOf (UInt32.ofNat (source.toList.count '\n' + 1)).toNat column) :=
  ⟨_, congrArg (·.bind (Json.get? "end")) (get?_loc_tree fileName source)⟩

end Lowering

namespace Intermediate

variable {file : SourceFile}

lemma count_printedCode {text : List Char} (h : lexicalErrors text = []) :
    (printedCode text).count '\n' = (keptRows text).length := by
  have hlines : ∀ line ∈ (keptRows text).map (rowLine (Text.split '\n' text)), '\n' ∉ line :=
    fun line hline => (isLine_of_mem_rows h line hline).1
  rw [printedCode, print_eq, Text.count_flatMap hlines, List.length_map]

/-- If the places of a text fit words, its rows can be counted in words. -/
lemma Addressable.length_keptRows_lt {text : List Char} (haddressable : Addressable text)
    (h : lexicalErrors text = []) : (keptRows text).length < 2 ^ 32 := by
  cases hlength : (keptRows text).length with
  | zero => exact Nat.two_pow_pos 32
  | succ n =>
    have hrow : (keptRows text)[n]? = some (keptRows text)[n] :=
      List.getElem?_eq_getElem (by omega)
    have hprintable := printable_of_mem_rows h (List.mem_of_getElem? hrow)
    obtain ⟨p, hp, -⟩ := exists_last_lineFrom hprintable.ne_nil
      (byteLength (rowIndent (Text.split '\n' text) (keptRows text)[n])) true
    have hq : (n, p) ∈ printed text (keptTokens (tokens text)) :=
      mem_printed_iff.mpr ⟨_, hrow, hp⟩
    exact (haddressable.place_lt hq).1

/-- Nothing on the line below the last one is traced, also where the number of that line is too
great for a word. -/
lemma Addressable.originOf?_below (haddressable : Addressable file.text.toList)
    (options : Config.CompilerOptions) (h : lexicalErrors file.text.toList = []) {p : Position}
    (hp : p.line = .ofNat ((keptRows file.text.toList).length + 1)) :
    (OriginIndex.ofSourceMap (map file options)).originOf? p = none := by
  have hrows := haddressable.length_keptRows_lt h
  apply OriginIndex.originOf?_eq_none
  intro e he hcovers
  rw [haddressable.segments_map options, List.map_map] at he
  obtain ⟨q, hq, rfl⟩ := List.mem_map.mp he
  obtain ⟨row, hrow, -⟩ := mem_printed_iff.mp hq
  obtain ⟨hline, hend, -⟩ := haddressable.place_lt hq
  have hplace := (toNat_ofPoint_of_lt hline (Nat.lt_of_le_of_lt (Nat.le_add_right _ _) hend)).1
  have hlt := (List.getElem?_eq_some_iff.mp hrow).1
  have hsame := congrArg UInt32.toNat (hcovers.1.trans hp)
  change (Position.ofPoint ⟨.ofNat q.1, .ofNat q.2.column⟩).line.toNat = _ at hsame
  -- a line of its own is at least one, so it is not the one that wraps around to zero either
  rw [hplace, UInt32.toNat_ofNat'] at hsame
  omega

end Intermediate

/-! ### The pipeline -/

namespace Intermediate

variable {file : SourceFile}

/-- The statements of intermediate code, patched, stand for its lines that do not close a block. -/
lemma Addressable.forall₂_statements (haddressable : Addressable file.text.toList)
    (options : Config.CompilerOptions) (h : lexicalErrors file.text.toList = []) :
    let lines := Text.lines (printedCode file.text.toList)
    List.Forall₂ (fun node q => LocatedOn file.text.toList (printedCode file.text.toList) q.2 node)
      ((Lowering.statements lines).map (SyntaxTree.patch (.ofSourceMap (map file options))))
      (lines.zipIdx.filter fun q => !Text.closesBlock q.1) := by
  intro lines
  have hrows : ∀ q ∈ lines.zipIdx, ∃ row, (keptRows file.text.toList)[q.2]? = some row ∧
      q.1 = rowLine (Text.split '\n' file.text.toList) row := by
    intro q hq
    have hline : lines[q.2]? = some q.1 := List.mk_mem_zipIdx_iff_getElem?.mp hq
    rw [show lines = _ from lines_print h, List.getElem?_map, Option.map_eq_some_iff] at hline
    obtain ⟨row, hrow, heq⟩ := hline
    exact ⟨row, hrow, heq.symm⟩
  have hbegins : ∀ q ∈ lines.zipIdx,
      Lowering.beginsStatement q.1 = !Text.closesBlock q.1 := by
    intro q hq
    obtain ⟨row, hrow, hline⟩ := hrows q hq
    apply Lowering.beginsStatement_eq
    rw [hline]
    obtain ⟨word, rest, hfirst⟩ := exists_firstWord_of_printable (Text.split '\n' file.text.toList)
      (printable_of_mem_rows h (List.mem_of_getElem? hrow))
    exact hfirst.exists_solid
  rw [Lowering.statements, List.filter_congr hbegins, List.map_map, List.forall₂_map_left_iff,
    List.forall₂_same]
  intro q hq
  obtain ⟨row, hrow, hline⟩ := hrows q (List.mem_filter.mp hq).1
  have hlocated := haddressable.locatedOn_patch options h hrow
  rw [← hline] at hlocated
  exact hlocated

end Intermediate

lemma Lowering.transform_of_transformer {form : MapForm} {request : TransformRequest}
    {out : TransformOutput} (h : (transformer form).transform request = .ok out) :
    transform form request.fileName request.source = .ok out := by
  simp only [transformer] at h
  cases hresult : transform form request.fileName request.source with
  | error e =>
    rw [hresult] at h
    cases h
  | ok result =>
    rw [hresult] at h
    cases h
    rfl

lemma Lowering.tree_of_transform {form : MapForm} {fileName source : String}
    {out : TransformOutput} (h : transform form fileName source = .ok out) :
    out.tree = some (tree fileName source) := by
  unfold transform at h
  simp only at h
  split at h
  · cases h
  · cases h
    rfl

namespace Pipeline

variable {form : MapForm} {options : Config.CompilerOptions} {request : TransformRequest}
  {out : TransformOutput}

/-- What the pipeline gives back in tree mode, if it accepts a typed file whose places fit in words:
a statement for each line of intermediate code that does not close a block, located where the tokens
of the line stood; the end of the program and the map are those of the second stage. `Addressable`
leaves out only what overflows a word: a kept token on the line 2 ^ 32 - 1 or later, counted from
zero, which has no word when it is counted from one, or one that ends in a column past the greatest
word. A source of less than 2 ^ 32 - 1 bytes has no such token (`addressable_of_byteLength_lt`). -/
theorem transform_tree_located (htyped : isTyped request.fileName)
    (haddressable : Intermediate.Addressable request.source.toList)
    (h : (erasing form options .treeLocations).transform request = .ok out) :
    let code := Intermediate.code request.source
    ∃ own program tree place, Lowering.transform form request.fileName code = .ok own ∧
      own.tree = some program ∧ out.tree = some tree ∧
      List.Forall₂ (fun node q => LocatedOn request.source.toList code.toList q.2 node)
        (SyntaxTree.body tree)
        ((Text.lines code.toList).zipIdx.filter fun q => !Text.closesBlock q.1) ∧
      SyntaxTree.endpoint? [] "end" program = some place ∧
      SyntaxTree.endpoint? [] "end" tree = some place ∧
      out.map = own.map := by
  intro code
  have haddressable : Intermediate.Addressable (fileOf request).text.toList := haddressable
  obtain ⟨hdiagnostics, first, own, hfirst, hstage, rfl⟩ := exists_stages htyped h
  have herrors := Intermediate.lexicalErrors_of_firstError? (fileOf request) hdiagnostics
  obtain ⟨first', hfirst', hindex, -⟩ :=
    haddressable.exists_ofText_map options
  obtain rfl := Except.ok.inj (hfirst'.symm.trans hfirst)
  have hstage : (Lowering.transformer form).transform { request with source := code } = .ok own :=
    hstage
  have hown := Lowering.transform_of_transformer hstage
  have hprogram := Lowering.tree_of_transform hown
  have hcode : code.toList = Intermediate.printedCode request.source.toList := String.toList_ofList
  obtain ⟨column, hend⟩ := Lowering.exists_endpoint?_tree request.fileName code
  refine ⟨own, _, _, _, hown, hprogram, congrArg (Option.map _) hprogram, ?_, hend, ?_, rfl⟩
  · rw [SyntaxTree.body_patch, Lowering.body_tree, hcode, hindex]
    exact haddressable.forall₂_statements options herrors
  · rw [SyntaxTree.endpoint?_patch List.not_mem_nil (.inr rfl), hend, Option.map_some, hindex]
    apply congrArg some
    apply SyntaxTree.patchPoint_of_eq_none
    rw [Option.bind_eq_none_iff]
    intro p hp
    apply haddressable.originOf?_below options herrors
    have hcount : (Intermediate.printedCode request.source.toList).count '\n' =
        (Intermediate.keptRows request.source.toList).length :=
      Intermediate.count_printedCode herrors
    rw [← UInt32.toNat_inj, SyntaxTree.line_of_point?_pointOf hp, hcode, hcount]
    rfl

/-- The statement of a declaration without its annotation ends where the last token stood; the line
of the closing brace has no statement. -/
theorem transform_tree_located_block :
    let request : TransformRequest := ⟨"if (x) \x7b\n  let a: T = b;\n\x7d\n", "a.ts", .null⟩
    isTyped request.fileName ∧ Intermediate.Addressable request.source.toList ∧
      ∃ out tree, (erasing .structured ⟨[]⟩ .treeLocations).transform request = .ok out ∧
        out.tree = some tree ∧ (SyntaxTree.body tree).length = 2 := by
  intro request
  have htyped : isTyped request.fileName := by decide +kernel
  have hsize : request.source.utf8ByteSize < 2 ^ 31 := by decide
  have haddressable : Intermediate.Addressable request.source.toList := by
    apply Intermediate.addressable_of_byteLength_lt
    rw [Text.byteLength_toList]
    omega
  have hlines : Text.lines (Intermediate.code request.source).toList =
      ["if (x) \x7b".toList, "  let a = b;".toList, "\x7d".toList] := by decide +kernel
  have hspace : ∀ d ∈ some ' ', isBlank d := by
    rintro d ⟨⟩
    decide
  have hif : FirstWord "if (x) \x7b".toList [] "if".toList " (x) \x7b".toList :=
    ⟨rfl, by simp, by decide, Text.solid_of_all (by decide), hspace⟩
  have hlet : FirstWord "  let a = b;".toList "  ".toList "let".toList " a = b;".toList :=
    ⟨rfl, List.all_eq_true.mp (by decide), by decide, Text.solid_of_all (by decide), hspace⟩
  have hbrace : FirstWord "\x7d".toList [] "\x7d".toList [] :=
    ⟨rfl, by simp, by decide, Text.solid_of_all (by decide), by simp⟩
  have hrejection : Lowering.rejection? request.fileName
      (Text.lines (Intermediate.code request.source).toList) = none := by
    rw [hlines]
    apply Lowering.rejection?_eq_none
    simp only [List.forall_mem_cons, Lowering.firstWord?, hif.words, hlet.words, hbrace.words]
    decide
  obtain ⟨out, hout⟩ :=
    exists_transform .structured ⟨[]⟩ .treeLocations htyped hsize (by decide +kernel) hrejection
  obtain ⟨own, program, tree, place, -, -, htree, hbody, -⟩ :=
    transform_tree_located htyped haddressable hout
  refine ⟨htyped, haddressable, out, tree, hout, htree, ?_⟩
  rw [hlines] at hbody
  exact hbody.length_eq.trans (by decide)

end Pipeline

end Provenance
