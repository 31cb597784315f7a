import Mathlib.Data.List.Lex
import Provenance.Diagnostic.MessageChain
import Provenance.Proofs.Words

/-!
# Message chains as indented lines

A message of a chain has an address: at each level, the number of the explanation to go on with. In
the order of their addresses, parents come before what explains them and one explanation with all
below it before the next. The lines of a flattened chain are its messages in this order, each as far
in as its address is long. From the lines the chain can be told again, if no text holds a line feed
or begins with a space (`flatten_keeps_structure`).
-/

namespace Provenance

/-- What is related to the elements of a list, one by one, is each related to an element. -/
lemma exists_of_forall₂ {α β : Type} {R : α → β → Prop} {as : List α} {bs : List β}
    (h : List.Forall₂ R as bs) : ∀ b ∈ bs, ∃ a ∈ as, R a b := by
  induction h with
  | nil => simp
  | cons hab _ ih =>
    refine List.forall_mem_cons.mpr ⟨⟨_, List.mem_cons_self, hab⟩, fun b hb => ?_⟩
    obtain ⟨a, ha, hab⟩ := ih b hb
    exact ⟨a, List.mem_cons_of_mem _ ha, hab⟩

namespace MessageChain

variable {m m' : MessageChain} {ms : List MessageChain} {depth : Nat} {address : List Nat}
  {entry : Nat × String} {rest : List (Nat × String)}

/-! ### Addresses -/

/-- The message at an address. -/
def at? (m : MessageChain) : (address : List Nat) → Option MessageChain
  | [] => some m
  | i :: address => m.next[i]?.bind (·.at? address)

mutual
/-- The addresses of the messages of a chain, in order. -/
def addresses : MessageChain → List (List Nat)
  | ⟨_, next⟩ => [] :: addressesFrom 0 next

/-- The addresses of the messages of several chains, numbered on from a number. -/
def addressesFrom (i : Nat) : List MessageChain → List (List Nat)
  | [] => []
  | m :: ms => m.addresses.map (i :: ·) ++ addressesFrom (i + 1) ms
end

lemma addresses_eq (m : MessageChain) : m.addresses = [] :: addressesFrom 0 m.next := by
  cases m
  rfl

lemma mem_addressesFrom_iff {i : Nat} : address ∈ addressesFrom i ms ↔
    ∃ j m below, ms[j]? = some m ∧ below ∈ m.addresses ∧ address = (i + j) :: below := by
  induction ms generalizing i with
  | nil => simp [addressesFrom]
  | cons m ms ih =>
    rw [addressesFrom, List.mem_append, List.mem_map, ih]
    constructor
    · rintro (⟨below, h, rfl⟩ | ⟨j, m', below, hm', h, rfl⟩)
      · exact ⟨0, m, below, rfl, h, rfl⟩
      · exact ⟨j + 1, m', below, hm', h, by rw [Nat.add_right_comm, Nat.add_assoc]⟩
    · rintro ⟨j, m', below, hm', h, rfl⟩
      cases j with
      | zero =>
        obtain rfl := Option.some.inj hm'
        exact .inl ⟨below, h, rfl⟩
      | succ j => exact .inr ⟨j, m', below, hm', h, by rw [Nat.add_right_comm, Nat.add_assoc]⟩

/-- Every message of a chain is at one of its addresses, and a message is at each of them. -/
lemma mem_addresses_iff : address ∈ m.addresses ↔ (m.at? address).isSome := by
  induction address generalizing m with
  | nil => simp [addresses_eq, at?]
  | cons i address ih =>
    rw [addresses_eq, at?, List.mem_cons, mem_addressesFrom_iff]
    cases hm : m.next[i]? with
    | none => simp_all
    | some m' => simp_all

mutual
lemma pairwise_addresses (m : MessageChain) : m.addresses.Pairwise (List.Lex (· < ·)) := by
  match m with
  | ⟨_, next⟩ =>
    refine .cons (fun address h => ?_) (pairwise_addressesFrom 0 next)
    obtain ⟨j, m', below, -, -, rfl⟩ := mem_addressesFrom_iff.mp h
    exact .nil

lemma pairwise_addressesFrom (i : Nat) (ms : List MessageChain) :
    (addressesFrom i ms).Pairwise (List.Lex (· < ·)) := by
  match ms with
  | [] => exact .nil
  | m :: ms =>
    refine List.pairwise_append.mpr ⟨?_, pairwise_addressesFrom (i + 1) ms, ?_⟩
    · exact (pairwise_addresses m).map _ fun _ _ h => .cons h
    · intro address h address' h'
      obtain ⟨below, -, rfl⟩ := List.mem_map.mp h
      obtain ⟨j, m', below', -, -, rfl⟩ := mem_addressesFrom_iff.mp h'
      exact .rel (by omega)
end

/-! ### Outlines -/

/-- What an outline says of the message at an address: how deep it stands, and its text. -/
def IsEntry (m : MessageChain) (depth : Nat) (address : List Nat) (entry : Nat × String) : Prop :=
  ∃ sub, m.at? address = some sub ∧ entry = (depth + address.length, sub.text)

mutual
/-- An outline lists the messages of a chain in the order of their addresses. -/
lemma forall₂_outline (depth : Nat) (m : MessageChain) :
    List.Forall₂ (m.IsEntry depth) m.addresses (outline depth m) := by
  match m with
  | ⟨text, next⟩ => exact .cons ⟨_, rfl, rfl⟩ (forall₂_outlineAll depth ⟨text, next⟩ 0 next rfl)

lemma forall₂_outlineAll (depth : Nat) (parent : MessageChain) (i : Nat) (ms : List MessageChain)
    (h : parent.next.drop i = ms) :
    List.Forall₂ (parent.IsEntry depth) (addressesFrom i ms) (outlineAll (depth + 1) ms) := by
  match ms with
  | [] => exact .nil
  | m :: ms =>
    have hm : parent.next[i]? = some m := by
      rw [← List.head?_drop, h, List.head?_cons]
    have hms : parent.next.drop (i + 1) = ms := by
      rw [← List.tail_drop, h, List.tail_cons]
    rw [addressesFrom, outlineAll]
    refine List.rel_append ?_ (forall₂_outlineAll depth parent (i + 1) ms hms)
    rw [List.forall₂_map_left_iff]
    refine (forall₂_outline (depth + 1) m).imp ?_
    rintro address _ ⟨sub, hsub, rfl⟩
    refine ⟨sub, by rw [at?, hm, Option.bind_some, hsub], ?_⟩
    rw [List.length_cons, Nat.add_right_comm, Nat.add_assoc]
end

/-- An outline holds an entry for each message and nothing else. -/
lemma mem_outline_iff : entry ∈ outline depth m ↔ ∃ address, m.IsEntry depth address entry := by
  constructor
  · intro h
    obtain ⟨address, -, hentry⟩ := exists_of_forall₂ (forall₂_outline depth m) entry h
    exact ⟨address, hentry⟩
  · rintro ⟨address, sub, hsub, rfl⟩
    have haddress : address ∈ m.addresses := mem_addresses_iff.mpr (by rw [hsub]; rfl)
    obtain ⟨_, hentry, sub', hsub', rfl⟩ :=
      exists_of_forall₂ (forall₂_outline depth m).flip address haddress
    rwa [Option.some.inj (hsub.symm.trans hsub')]

mutual
lemma le_of_mem_outline (m : MessageChain) {depth : Nat} {entry : Nat × String}
    (h : entry ∈ outline depth m) : depth ≤ entry.1 := by
  match m with
  | ⟨text, next⟩ =>
    obtain rfl | h := List.mem_cons.mp h
    · exact le_rfl
    · exact Nat.le_of_succ_le (le_of_mem_outlineAll next h)

lemma le_of_mem_outlineAll (ms : List MessageChain) {depth : Nat} {entry : Nat × String}
    (h : entry ∈ outlineAll depth ms) : depth ≤ entry.1 := by
  match ms with
  | m :: ms =>
    obtain h | h := List.mem_append.mp h
    · exact le_of_mem_outline m h
    · exact le_of_mem_outlineAll ms h
end

lemma head?_outline_append (m : MessageChain) :
    (outline depth m ++ rest).head? = some (depth, m.text) := by
  cases m
  rfl

lemma head?_outlineAll_append_le (hrest : ∀ entry ∈ rest.head?, entry.1 < depth) :
    ∀ entry ∈ (outlineAll depth ms ++ rest).head?, entry.1 ≤ depth := by
  intro entry hentry
  cases ms with
  | nil => exact (hrest entry hentry).le
  | cons m ms =>
    rw [outlineAll, List.append_assoc, head?_outline_append, Option.mem_some_iff] at hentry
    rw [← hentry]

mutual
/-- Chains are told apart by their outlines, also if more follows that is no deeper than they
are. -/
lemma outline_append_inj (m m' : MessageChain) {depth : Nat} {rest rest' : List (Nat × String)}
    (hrest : ∀ entry ∈ rest.head?, entry.1 ≤ depth)
    (hrest' : ∀ entry ∈ rest'.head?, entry.1 ≤ depth)
    (h : outline depth m ++ rest = outline depth m' ++ rest') : m = m' ∧ rest = rest' := by
  match m, m' with
  | ⟨text, next⟩, ⟨text', next'⟩ =>
    simp only [outline, List.cons_append, List.cons.injEq, Prod.mk.injEq, true_and] at h
    obtain ⟨rfl, hnext⟩ := h
    obtain ⟨rfl, hrests⟩ := outlineAll_append_inj next next'
      (fun entry he => Nat.lt_succ_of_le (hrest entry he))
      (fun entry he => Nat.lt_succ_of_le (hrest' entry he)) hnext
    exact ⟨rfl, hrests⟩

lemma outlineAll_append_inj (ms ms' : List MessageChain) {depth : Nat}
    {rest rest' : List (Nat × String)} (hrest : ∀ entry ∈ rest.head?, entry.1 < depth)
    (hrest' : ∀ entry ∈ rest'.head?, entry.1 < depth)
    (h : outlineAll depth ms ++ rest = outlineAll depth ms' ++ rest') :
    ms = ms' ∧ rest = rest' := by
  match ms, ms' with
  | [], [] => exact ⟨rfl, h⟩
  | m :: ms, [] =>
    rw [outlineAll, outlineAll, List.append_assoc, List.nil_append] at h
    exact absurd (hrest' _ (h ▸ head?_outline_append m)) (lt_irrefl depth)
  | [], m' :: ms' =>
    rw [outlineAll, outlineAll, List.append_assoc, List.nil_append] at h
    exact absurd (hrest _ (h ▸ head?_outline_append m')) (lt_irrefl depth)
  | m :: ms, m' :: ms' =>
    rw [outlineAll, outlineAll, List.append_assoc, List.append_assoc] at h
    obtain ⟨rfl, htails⟩ := outline_append_inj m m' (head?_outlineAll_append_le hrest)
      (head?_outlineAll_append_le hrest') h
    obtain ⟨rfl, hrests⟩ := outlineAll_append_inj ms ms' hrest hrest' htails
    exact ⟨rfl, hrests⟩
end

lemma outline_inj (h : outline depth m = outline depth m') : m = m' := by
  have hnone : ∀ entry ∈ ([] : List (Nat × String)).head?, entry.1 ≤ depth := by simp
  exact (outline_append_inj m m' hnone hnone (by rw [List.append_nil, List.append_nil, h])).1

/-! ### Lines -/

/-- A text of one line that does not begin with a space. -/
def IsFlush (text : String) : Prop := '\n' ∉ text.toList ∧ text.toList.head? ≠ some ' '

instance : DecidablePred IsFlush := fun _ => inferInstanceAs (Decidable (_ ∧ _))

/-- No text of a chain holds a line feed or begins with a space. -/
def HasFlushTexts (m : MessageChain) : Prop :=
  ∀ address sub, m.at? address = some sub → IsFlush sub.text

/-- The line of the message at an address: two spaces for each level above it, and its text. -/
def IsLineAt (m : MessageChain) (address : List Nat) (line : List Char) : Prop :=
  ∃ sub, m.at? address = some sub ∧
    line = List.replicate (2 * address.length) ' ' ++ sub.text.toList

/-- The depth and the text that a line tells. -/
def entryOf (line : List Char) : Nat × String :=
  ((line.takeWhile (· = ' ')).length / 2, .ofList (line.dropWhile (· = ' ')))

/-- The texts of a chain are those of its outline. -/
lemma hasFlushTexts_iff : m.HasFlushTexts ↔ ∀ entry ∈ m.outline 0, IsFlush entry.2 := by
  constructor
  · intro h entry hentry
    obtain ⟨address, sub, hsub, rfl⟩ := mem_outline_iff.mp hentry
    exact h address sub hsub
  · intro h address sub hsub
    exact h (0 + address.length, sub.text) (mem_outline_iff.mpr ⟨address, sub, hsub, rfl⟩)

/-- The spaces in front of a text are those of its indentation if it begins with none itself. -/
lemma entryOf_line (h : IsFlush entry.2) : entryOf (indent entry.1 ++ entry.2.toList) = entry := by
  have hindent : ∀ c ∈ indent entry.1, decide (c = ' ') = true := fun c hc =>
    decide_eq_true (List.eq_of_mem_replicate hc)
  have htext : entry.2.toList.takeWhile (· = ' ') = [] ∧
      entry.2.toList.dropWhile (· = ' ') = entry.2.toList := by
    cases hchars : entry.2.toList with
    | nil => exact ⟨rfl, rfl⟩
    | cons c cs =>
      have hc : c ≠ ' ' := fun hc => h.2 (by rw [hchars, List.head?_cons, hc])
      simp [hc]
  rw [entryOf, List.takeWhile_append_of_pos hindent, List.dropWhile_append_of_pos hindent,
    htext.1, htext.2, String.ofList_toList]
  simp [indent]

lemma lineFeed_notMem_line (h : IsFlush entry.2) :
    '\n' ∉ indent entry.1 ++ entry.2.toList := by
  have hindent : '\n' ∉ indent entry.1 := fun hmem => by cases List.eq_of_mem_replicate hmem
  rw [List.mem_append, not_or]
  exact ⟨hindent, h.1⟩

/-- All but the head of a chain begin a new line. -/
lemma flatMap_lineChars_outlineAll (next : List MessageChain) :
    (outlineAll 1 next).flatMap (lineChars "\n".toList) =
      ((outlineAll 1 next).map fun entry => indent entry.1 ++ entry.2.toList).flatMap
        ('\n' :: ·) := by
  rw [List.flatMap_map]
  refine List.flatMap_congr fun entry hentry => ?_
  have hdepth : entry.1 ≠ 0 := Nat.ne_of_gt (le_of_mem_outlineAll next hentry)
  rw [lineChars, if_neg hdepth, List.append_assoc]
  rfl

/-- The lines of a flattened chain are the entries of its outline. -/
lemma split_flatten (h : ∀ entry ∈ m.outline 0, IsFlush entry.2) :
    Text.split '\n' (m.flatten "\n").toList =
      (m.outline 0).map fun entry => indent entry.1 ++ entry.2.toList := by
  obtain ⟨text, next⟩ := m
  obtain ⟨htext, hnext⟩ := List.forall_mem_cons.mp h
  have hbreaks : ∀ line ∈ (outlineAll 1 next).map fun entry => indent entry.1 ++ entry.2.toList,
      '\n' ∉ line :=
    List.forall_mem_map.mpr fun entry hentry => lineFeed_notMem_line (hnext entry hentry)
  rw [flatten, String.toList_ofList, outline, List.flatMap_cons, flatMap_lineChars_outlineAll,
    lineChars, if_pos rfl, Text.split_flatMap htext.1 hbreaks]
  rfl

/-- The outline of a chain is read from its lines. -/
lemma map_entryOf_split (h : m.HasFlushTexts) :
    (Text.split '\n' (m.flatten "\n").toList).map entryOf = m.outline 0 := by
  rw [hasFlushTexts_iff] at h
  rw [split_flatten h, List.map_map]
  conv_rhs => rw [← List.map_id (m.outline 0)]
  exact List.map_congr_left fun entry hentry => entryOf_line (h entry hentry)

/-- A flattened chain has one line for each message, in the order of the addresses, which are all
there are: each two spaces further in than its parent. Different chains have different lines. -/
theorem flatten_keeps_structure (h : m.HasFlushTexts) :
    (m.addresses.Pairwise (List.Lex (· < ·)) ∧
      ∀ address, address ∈ m.addresses ↔ (m.at? address).isSome) ∧
    List.Forall₂ m.IsLineAt m.addresses (Text.split '\n' (m.flatten "\n").toList) ∧
    ∀ m' : MessageChain, m'.HasFlushTexts → m.flatten "\n" = m'.flatten "\n" → m = m' := by
  refine ⟨⟨pairwise_addresses m, fun address => mem_addresses_iff⟩, ?_, ?_⟩
  · rw [split_flatten (hasFlushTexts_iff.mp h), List.forall₂_map_right_iff]
    refine (forall₂_outline 0 m).imp ?_
    rintro address _ ⟨sub, hsub, rfl⟩
    refine ⟨sub, hsub, ?_⟩
    rw [Nat.zero_add]
    rfl
  · intro m' h' heq
    have houtline : m.outline 0 = m'.outline 0 := by
      rw [← map_entryOf_split h, ← map_entryOf_split h', heq]
    exact outline_inj houtline

/-- A message with an empty text keeps its line, and so what stands below it is told from what
stands beside it. -/
theorem flatten_keeps_structure_siblings :
    let m : MessageChain := ⟨"a", [⟨"", [⟨"b", []⟩]⟩, ⟨"c", []⟩]⟩
    let m' : MessageChain := ⟨"a", [⟨"", [⟨"b", []⟩, ⟨"c", []⟩]⟩]⟩
    m.HasFlushTexts ∧ m'.HasFlushTexts ∧
      List.Forall₂ m.IsLineAt [[], [0], [0, 0], [1]]
        (Text.split '\n' "a\n  \n    b\n  c".toList) ∧
      m.flatten "\n" ≠ m'.flatten "\n" := by
  intro m m'
  have hm : m.HasFlushTexts := hasFlushTexts_iff.mpr (by decide)
  have hm' : m'.HasFlushTexts := hasFlushTexts_iff.mpr (by decide)
  obtain ⟨-, hlines, hinjective⟩ := flatten_keeps_structure hm
  have hne : m ≠ m' := by simp [m, m']
  exact ⟨hm, hm', hlines, fun heq => hne (hinjective m' hm' heq)⟩

end MessageChain

end Provenance
