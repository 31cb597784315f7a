import Mathlib.Data.List.Infix
import Provenance.Files.Path

/-!
# Directories above a path

A path and its parents are found by taking segments off its end. Told by components, the last one
goes at each step, until only the root is left (`map_components_ancestors`). `IsAbove` says the same
of one directory and one path, step by step.
-/

namespace Provenance.Path

variable {inner outer : List String} {p q d : Path} {name : String}

/-! ### One step up -/

@[simp] lemma isComponent_true (s : String) (outer : List String) :
    isComponent true s outer = leads s := by
  simp [isComponent]

lemma above?_cons (absolute : Bool) (s : String) (outer : List String) :
    above? absolute (s :: outer) =
      if isComponent absolute s outer then some (trimmed absolute outer)
      else above? absolute outer := by
  unfold above?
  rw [trimmed]
  split_ifs <;> rfl

lemma filter_trimmed (segments : List String) :
    (trimmed true segments).filter leads = segments.filter leads := by
  induction segments with
  | nil => rfl
  | cons s rest ih =>
    rw [trimmed, isComponent_true]
    by_cases hs : leads s
    · rw [if_pos hs]
    · rw [if_neg hs, ih, List.filter_cons_of_neg hs]

/-- What is above some segments of an absolute path leads through all but the last of their
names. -/
lemma filter_above? (h : above? true inner = some outer) :
    ∃ name, inner.filter leads = name :: outer.filter leads := by
  induction inner with
  | nil => cases h
  | cons s rest ih =>
    rw [above?_cons, isComponent_true] at h
    by_cases hs : leads s
    · rw [if_pos hs] at h
      obtain rfl := Option.some.inj h
      exact ⟨s, by rw [List.filter_cons_of_pos hs, filter_trimmed]⟩
    · rw [if_neg hs] at h
      rw [List.filter_cons_of_neg hs]
      exact ih h

lemma filter_eq_nil_of_above? (h : above? true inner = none) : inner.filter leads = [] := by
  induction inner with
  | nil => rfl
  | cons s rest ih =>
    rw [above?_cons, isComponent_true] at h
    by_cases hs : leads s
    · rw [if_pos hs] at h
      cases h
    · rw [if_neg hs] at h
      rw [List.filter_cons_of_neg hs]
      exact ih h

lemma components_ofInner (inner : List String) :
    (ofInner true inner).components = "/" :: (inner.filter leads).reverse := by
  cases inner with
  | nil => decide
  | cons s rest =>
    change ["/"] ++ (s :: rest).reverse.filter leads = _
    rw [List.filter_reverse]
    rfl

/-! ### All the way up -/

lemma map_components_parentsOf (inner : List String) :
    (parentsOf true inner).map components =
      (inner.filter leads).tails.tail.map fun names => "/" :: names.reverse := by
  fun_induction parentsOf true inner with
  | case1 inner h => simp [filter_eq_nil_of_above? h]
  | case2 inner outer h ih =>
    obtain ⟨name, hnames⟩ := filter_above? h
    rw [List.map_cons, ih, components_ofInner, hnames]
    cases outer.filter leads <;> simp

/-- The components of an absolute path and of its parents are the parts of its own that begin with
the root, the longest first. -/
lemma map_components_ancestors (h : p.absolute = true) :
    p.ancestors.map components = p.components.inits.tail.reverse := by
  have hself : p.components = "/" :: (p.segments.reverse.filter leads).reverse := by
    simp [components, h, List.filter_reverse]
  rw [ancestors, h, List.map_cons, map_components_parentsOf, hself]
  generalize p.segments.reverse.filter leads = names
  rw [List.inits_cons, List.tail_cons, ← List.map_reverse, List.inits_reverse]
  cases names <;> simp

lemma parentsOf_of_above? {absolute : Bool} (h : above? absolute inner = some outer) :
    parentsOf absolute inner = ofInner absolute outer :: parentsOf absolute outer := by
  rw [parentsOf]
  split
  · next hnone => simp [h] at hnone
  · next hsome =>
    obtain rfl := Option.some.inj (h.symm.trans hsome)
    rfl

/-- The root is written with one empty segment, and there is nothing above it. -/
lemma above?_segments_ofInner (absolute : Bool) (inner : List String) :
    above? absolute (ofInner absolute inner).segments.reverse = above? absolute inner := by
  cases inner with
  | nil => cases absolute <;> rfl
  | cons s rest => simp [ofInner]

lemma parentsOf_congr {absolute : Bool} {inner inner' : List String}
    (h : above? absolute inner = above? absolute inner') :
    parentsOf absolute inner = parentsOf absolute inner' := by
  cases habove : above? absolute inner' with
  | none =>
    rw [parentsOf, parentsOf]
    split <;> split <;> simp_all
  | some outer => rw [parentsOf_of_above? habove, parentsOf_of_above? (h.trans habove)]

/-- The directories above a path are its parent and those above that one. -/
lemma ancestors_of_parent? (h : p.parent? = some q) : p.ancestors = p :: q.ancestors := by
  obtain ⟨outer, habove, rfl⟩ := Option.map_eq_some_iff.mp h
  rw [ancestors, ancestors, parentsOf_of_above? habove]
  exact congrArg (p :: _ :: ·) (parentsOf_congr (above?_segments_ofInner p.absolute outer)).symm

lemma isChain_parentsOf {absolute : Bool} {inner : List String}
    (h : p.parent? = (above? absolute inner).map (ofInner absolute)) :
    (p :: parentsOf absolute inner).IsChain (fun d above => d.parent? = some above) := by
  fun_induction parentsOf absolute inner generalizing p with
  | case1 inner hnone => exact .singleton p
  | case2 inner outer hsome ih =>
    rw [hsome] at h
    exact .cons_cons h (ih (congrArg (Option.map _) (above?_segments_ofInner absolute outer)))

/-- Of a path and the directories above it each one is the parent of the one before. -/
lemma isChain_ancestors (p : Path) :
    p.ancestors.IsChain (fun d above => d.parent? = some above) :=
  isChain_parentsOf rfl

lemma ancestors_of_parent?_eq_none (h : p.parent? = none) : p.ancestors = [p] := by
  have habove : above? p.absolute p.segments.reverse = above? p.absolute [] := by
    rw [parent?, Option.map_eq_none_iff] at h
    rw [h]
    rfl
  rw [ancestors, parentsOf_congr habove, parentsOf]
  rfl

/-! ### One directory above a path -/

lemma absolute_of_parent? (h : p.parent? = some q) : q.absolute = p.absolute := by
  obtain ⟨outer, -, rfl⟩ := Option.map_eq_some_iff.mp h
  rfl

/-- The parent of an absolute path has all but the last of its components. -/
lemma exists_components_of_parent? (habsolute : p.absolute = true) (h : p.parent? = some q) :
    ∃ name, p.components = q.components ++ [name] := by
  obtain ⟨outer, habove, rfl⟩ := Option.map_eq_some_iff.mp h
  rw [habsolute] at habove
  obtain ⟨name, hnames⟩ := filter_above? habove
  rw [List.filter_reverse, List.reverse_eq_cons_iff] at hnames
  refine ⟨name, ?_⟩
  rw [habsolute, components_ofInner, components, if_pos habsolute, hnames]
  simp

/-- The dot that begins a relative path stays when the name behind it is taken off. -/
lemma parent?_child_dot (hname : leads name) :
    ((ofText ".").child name).parent? = some (ofText ".") := by
  have habove : above? false [name, "."] = some ["."] := by
    rw [above?_cons, if_pos (by simp [isComponent, hname])]
    decide
  exact congrArg (Option.map (ofInner false)) habove

/-- A directory stands above a path: it is the parent of the path, or it stands above the parent. -/
inductive IsAbove (d : Path) : Path → Prop where
  | parent {p : Path} (h : p.parent? = some d) : IsAbove d p
  | beyond {p q : Path} (h : p.parent? = some q) (above : IsAbove d q) : IsAbove d p

lemma isAbove_iff (h : p.parent? = some q) : d.IsAbove p ↔ d = q ∨ d.IsAbove q := by
  constructor
  · rintro (hd | ⟨hq, above⟩)
    · exact .inl (Option.some.inj (hd.symm.trans h))
    · obtain rfl := Option.some.inj (hq.symm.trans h)
      exact .inr above
  · rintro (rfl | above)
    · exact .parent h
    · exact .beyond h above

lemma not_isAbove (h : p.parent? = none) : ¬ d.IsAbove p := by
  rintro (hd | ⟨hq, -⟩)
  · cases h.symm.trans hd
  · cases h.symm.trans hq

namespace IsAbove

lemma absolute (h : d.IsAbove p) : d.absolute = p.absolute := by
  induction h with
  | parent h => exact absolute_of_parent? h
  | beyond h _ ih => exact ih.trans (absolute_of_parent? h)

/-- Of the components of an absolute path a directory above it has those in front. -/
lemma exists_components (h : d.IsAbove p) (habsolute : p.absolute = true) :
    ∃ name names, p.components = d.components ++ name :: names := by
  induction h with
  | parent h =>
    obtain ⟨name, hname⟩ := exists_components_of_parent? habsolute h
    exact ⟨name, [], hname⟩
  | beyond h _ ih =>
    obtain ⟨last, hlast⟩ := exists_components_of_parent? habsolute h
    obtain ⟨name, names, hnames⟩ := ih ((absolute_of_parent? h).trans habsolute)
    exact ⟨name, names ++ [last], by rw [hlast, hnames]; simp⟩

lemma isPrefix (h : d.IsAbove p) (habsolute : p.absolute = true) :
    d.components <+: p.components := by
  obtain ⟨name, names, hnames⟩ := h.exists_components habsolute
  exact ⟨name :: names, hnames.symm⟩

lemma not_isPrefix (h : d.IsAbove p) (habsolute : p.absolute = true) :
    ¬ p.components <+: d.components := by
  obtain ⟨name, names, hnames⟩ := h.exists_components habsolute
  intro hwithin
  have hlength := hwithin.length_le
  rw [hnames, List.length_append, List.length_cons] at hlength
  omega

end IsAbove

/-! ### Names in a directory -/

lemma filter_opened (p : Path) : p.opened.filter leads = p.segments.filter leads := by
  unfold opened
  split_ifs with hlast
  · obtain ⟨inner, hinner⟩ := List.getLast?_eq_some_iff.mp hlast
    rw [hinner, List.dropLast_concat]
    simp [leads]
  · rfl

lemma components_child (habsolute : p.absolute = true) (hname : leads name) :
    (p.child name).components = p.components ++ [name] := by
  simp [components, child, habsolute, filter_opened, hname]

end Provenance.Path
