import Provenance.Config.Discovery
import Provenance.Proofs.Ancestors

/-!
# The nearest configuration

The search for a configuration goes upwards and ends at the ceiling, or at once outside of it. So it
looks at the directory in which it begins and at those above that are not above the ceiling
(`Permitted`), and what it finds is the nearest of them that holds a configuration file
(`discover_nearest`). An override comes before it if it names a file, and else counts for nothing.
-/

namespace Provenance

/-! ### Places -/

namespace FileTree

variable {t : FileTree} {p : Path} {place place' : Place} {entry : Entry}

/-- Without two dots, the names of the segments are followed one by one. -/
lemma follow_eq {segments : List String} (hdots : ".." ∉ segments)
    (h : t.follow place segments = .ok place') : place' = place ++ segments.filter Path.leads := by
  induction segments generalizing place with
  | nil => simpa using (Except.ok.inj h).symm
  | cons segment rest ih =>
    obtain ⟨hsegment, hrest⟩ := not_or.mp (mt List.mem_cons.mpr hdots)
    rw [follow] at h
    split at h
    · cases h
    · cases h
    · rw [if_neg (Ne.symm hsegment)] at h
      split_ifs at h with _ hleads
      · rw [ih hrest h, List.filter_cons_of_pos hleads, List.append_assoc, List.singleton_append]
      · rw [ih hrest h, List.filter_cons_of_neg hleads]

/-- An absolute path without two dots leads to the place of its components. -/
lemma place_of_locate (habsolute : p.absolute = true) (hdots : ".." ∉ p.components)
    (h : t.locate p = .ok (place, entry)) : "/" :: place = p.components := by
  have hcomponents : p.components = "/" :: p.segments.filter Path.leads := by
    simp [Path.components, habsolute]
  have hsegments : ".." ∉ p.segments := fun hmem => hdots <| by
    rw [hcomponents]
    exact .tail _ (List.mem_filter.mpr ⟨hmem, by decide⟩)
  unfold locate at h
  split at h
  · cases h
  · split at h
    · cases h
    · next hfollow =>
      split at h
      · cases h
      · obtain ⟨rfl, -⟩ := Prod.mk.inj (Except.ok.inj h)
        rw [hcomponents, follow_eq hsegments hfollow, List.nil_append]

end FileTree

namespace Config

variable {t : FileTree} {given : Option String} {ceiling : Option Path} {cwd c d d' q path : Path}
  {result result' : Except ConfigError Path}

/-! ### Permitted directories -/

/-- The directories that a search may look at: the one in which it begins, and of those above it
the ceiling and what lies below the ceiling, component by component. -/
inductive Permitted (ceiling : Option Path) (cwd : Path) : Path → Prop where
  | start : Permitted ceiling cwd cwd
  | above {d : Path} (above : d.IsAbove cwd)
      (within : ∀ c ∈ ceiling, c.components <+: d.components) : Permitted ceiling cwd d

/-- A directory holds a configuration file. -/
def HoldsConfig (t : FileTree) (d : Path) : Prop := t.isFile (d.child configFileName) = true

/-- The nearest permitted directory that holds a configuration file: the others are above it. -/
structure IsNearestHolder (t : FileTree) (ceiling : Option Path) (cwd d : Path) : Prop where
  permitted : Permitted ceiling cwd d
  holds : HoldsConfig t d
  nearest : ∀ d', Permitted ceiling cwd d' → HoldsConfig t d' → d' = d ∨ d'.IsAbove d

namespace Permitted

lemma absolute (h : Permitted ceiling cwd d) : d.absolute = cwd.absolute := by
  cases h with
  | start => rfl
  | above above _ => exact above.absolute

lemma isPrefix (h : Permitted ceiling cwd d) (habsolute : cwd.absolute = true) :
    d.components <+: cwd.components := by
  cases h with
  | start => exact List.prefix_rfl
  | above above _ => exact above.isPrefix habsolute

/-- Below a ceiling the search keeps to what is below it. -/
lemma within (h : Permitted ceiling cwd d) (hc : c ∈ ceiling)
    (hcwd : c.components <+: cwd.components) : c.components <+: d.components := by
  cases h with
  | start => exact hcwd
  | above _ within => exact within c hc

end Permitted

lemma IsNearestHolder.unique (habsolute : cwd.absolute = true)
    (h : IsNearestHolder t ceiling cwd d) (h' : IsNearestHolder t ceiling cwd d') : d = d' := by
  obtain heq | habove := h'.nearest d h.permitted h.holds
  · exact heq
  · obtain heq | habove' := h.nearest d' h'.permitted h'.holds
    · exact heq.symm
    · have hd := h.permitted.absolute.trans habsolute
      have hd' := h'.permitted.absolute.trans habsolute
      exact absurd (habove'.isPrefix hd) (habove.not_isPrefix hd')

/-! ### The search -/

lemma endsSearch_eq_false_iff : endsSearch ceiling d = false ↔
    ∀ c ∈ ceiling, c.components <+: d.components ∧ d.components ≠ c.components := by
  cases ceiling <;> simp [endsSearch, Path.same, Path.isWithin, and_comm]

/-- Where the search ends, nothing above may be looked at. -/
lemma Permitted.eq_of_endsSearch (habsolute : cwd.absolute = true)
    (hends : endsSearch ceiling cwd = true) (h : Permitted ceiling cwd d) : d = cwd := by
  cases h with
  | start => rfl
  | above above within =>
    have hgoes : endsSearch ceiling cwd = false := endsSearch_eq_false_iff.mpr fun c hc =>
      ⟨(within c hc).trans (above.isPrefix habsolute), fun heq =>
        above.not_isPrefix habsolute (heq ▸ within c hc)⟩
    cases hends.symm.trans hgoes

/-- Where the search goes on, what else may be looked at may be looked at from the parent. -/
lemma permitted_iff_of_parent? (habsolute : cwd.absolute = true)
    (hgoes : endsSearch ceiling cwd = false) (h : cwd.parent? = some q) :
    Permitted ceiling cwd d ↔ d = cwd ∨ Permitted ceiling q d := by
  constructor
  · rintro (_ | ⟨above, within⟩)
    · exact .inl rfl
    · obtain rfl | habove := (Path.isAbove_iff h).mp above
      · exact .inr .start
      · exact .inr (.above habove within)
  · rintro (rfl | _ | ⟨above, within⟩)
    · exact .start
    · refine .above (.parent h) fun c hc => ?_
      obtain ⟨hwithin, hne⟩ := endsSearch_eq_false_iff.mp hgoes c hc
      obtain ⟨name, hname⟩ := Path.exists_components_of_parent? habsolute h
      rw [hname, List.prefix_concat_iff] at hwithin
      exact hwithin.resolve_left fun heq => hne (hname.trans heq.symm)
    · exact .above (.beyond h above) within

/-- The search finds the nearest permitted directory that holds a configuration file. -/
lemma search_cases (t : FileTree) (ceiling : Option Path) (habsolute : cwd.absolute = true) :
    (∃ d, IsNearestHolder t ceiling cwd d ∧
      search t ceiling cwd.ancestors = some (d.child configFileName)) ∨
    (∀ d, Permitted ceiling cwd d → ¬ HoldsConfig t d) ∧ search t ceiling cwd.ancestors = none := by
  induction hdirectories : cwd.ancestors generalizing cwd with
  | nil => cases hdirectories
  | cons d outer ih =>
    obtain rfl : cwd = d := (List.cons.inj hdirectories).1
    rw [search]
    split_ifs with hholds hends
    · refine .inl ⟨cwd, ⟨.start, hholds, fun d' hd' _ => ?_⟩, rfl⟩
      cases hd' with
      | start => exact .inl rfl
      | above above _ => exact .inr above
    · refine .inr ⟨fun d hd => ?_, rfl⟩
      rwa [hd.eq_of_endsSearch habsolute hends]
    · rw [Bool.not_eq_true] at hends
      cases hparent : cwd.parent? with
      | none =>
        rw [Path.ancestors_of_parent?_eq_none hparent, List.cons.injEq] at hdirectories
        refine .inr ⟨fun d hd => ?_, by rw [← hdirectories.2, search]⟩
        cases hd with
        | start => exact hholds
        | above above _ => exact absurd above (Path.not_isAbove hparent)
      | some q =>
        rw [Path.ancestors_of_parent? hparent, List.cons.injEq] at hdirectories
        have hpermitted := fun d => permitted_iff_of_parent? (d := d) habsolute hends hparent
        obtain ⟨d, hd, hfound⟩ | ⟨hunheld, hfound⟩ :=
          ih ((Path.absolute_of_parent? hparent).trans habsolute) hdirectories.2
        · refine .inl ⟨d, ⟨(hpermitted d).mpr (.inr hd.permitted), hd.holds, ?_⟩, hfound⟩
          intro d' hd' hholds'
          obtain rfl | hd' := (hpermitted d').mp hd'
          · exact absurd hholds' hholds
          · exact hd.nearest d' hd' hholds'
        · refine .inr ⟨fun d hd => ?_, hfound⟩
          obtain rfl | hd := (hpermitted d).mp hd
          · exact hholds
          · exact hunheld d hd

/-! ### Discovery -/

/-- An override is given, and the file that it names from the working directory is there. -/
def NamesFile (t : FileTree) (cwd : Path) (given : Option String) (path : Path) : Prop :=
  ∃ name ∈ given, path = cwd.join (.ofText name) ∧ t.isFile path = true

/-- What discovery comes to: the file of an override, the configuration file of the nearest
permitted directory that holds one, or an error that tells where the search began. -/
inductive Discovers (t : FileTree) (cwd : Path) (given : Option String) (ceiling : Option Path) :
    Except ConfigError Path → Prop where
  | override {path : Path} (named : NamesFile t cwd given path) :
      Discovers t cwd given ceiling (.ok path)
  | nearest {d : Path} (unnamed : ∀ path, ¬ NamesFile t cwd given path)
      (nearest : IsNearestHolder t ceiling cwd d) :
      Discovers t cwd given ceiling (.ok (d.child configFileName))
  | missing (unnamed : ∀ path, ¬ NamesFile t cwd given path)
      (unheld : ∀ d, Permitted ceiling cwd d → ¬ HoldsConfig t d) :
      Discovers t cwd given ceiling (.error (.missing cwd))

lemma overrideFile?_eq_some_iff :
    overrideFile? t cwd given = some path ↔ NamesFile t cwd given path := by
  cases given with
  | none => simp [overrideFile?, NamesFile]
  | some name =>
    simp only [overrideFile?, NamesFile, Option.map_some, Option.filter_eq_some_iff,
      Option.some.injEq, Option.mem_some_iff, exists_eq_left']
    rw [eq_comm, overridePath]

lemma overrideFile?_eq_none (hunnamed : ∀ path, ¬ NamesFile t cwd given path) :
    overrideFile? t cwd given = none :=
  Option.eq_none_iff_forall_ne_some.mpr fun path hpath =>
    hunnamed path (overrideFile?_eq_some_iff.mp hpath)

/-- An override that names no file changes nothing. -/
lemma discover_of_unnamed (hunnamed : ∀ path, ¬ NamesFile t cwd given path) :
    discover t cwd given ceiling = discover t cwd none ceiling := by
  rw [discover, discover, overrideFile?_eq_none hunnamed]
  rfl

lemma discovers_discover (t : FileTree) (given : Option String) (ceiling : Option Path)
    (habsolute : cwd.absolute = true) :
    Discovers t cwd given ceiling (discover t cwd given ceiling) := by
  by_cases hnamed : ∃ path, NamesFile t cwd given path
  · obtain ⟨path, hpath⟩ := hnamed
    have hdiscover : discover t cwd given ceiling = .ok path := by
      simp [discover, overrideFile?_eq_some_iff.mpr hpath]
    exact hdiscover ▸ .override hpath
  · have hunnamed := not_exists.mp hnamed
    have hoverride := overrideFile?_eq_none hunnamed
    obtain ⟨d, hd, hfound⟩ | ⟨hunheld, hfound⟩ := search_cases t ceiling habsolute
    · have hdiscover : discover t cwd given ceiling = .ok (d.child configFileName) := by
        simp [discover, hoverride, hfound]
      exact hdiscover ▸ .nearest hunnamed hd
    · have hdiscover : discover t cwd given ceiling = .error (.missing cwd) := by
        simp [discover, hoverride, hfound]
      exact hdiscover ▸ .missing hunnamed hunheld

lemma Discovers.unique (habsolute : cwd.absolute = true)
    (h : Discovers t cwd given ceiling result) (h' : Discovers t cwd given ceiling result') :
    result = result' := by
  cases h with
  | override named =>
    cases h' with
    | override named' =>
      obtain ⟨name, hname, rfl, -⟩ := named
      obtain ⟨name', hname', rfl, -⟩ := named'
      rw [Option.mem_unique hname hname']
    | nearest unnamed _ => exact absurd named (unnamed _)
    | missing unnamed _ => exact absurd named (unnamed _)
  | nearest unnamed nearest =>
    cases h' with
    | override named => exact absurd named (unnamed _)
    | nearest _ nearest' => rw [nearest.unique habsolute nearest']
    | missing _ unheld => exact absurd nearest.holds (unheld _ nearest.permitted)
  | missing unnamed unheld =>
    cases h' with
    | override named => exact absurd named (unnamed _)
    | nearest _ nearest => exact absurd nearest.holds (unheld _ nearest.permitted)
    | missing _ _ => rfl

/-- The search from below a ceiling finds what stands below it: so says the path, and unless the
path goes back by two dots also the place to which it leads. -/
lemma IsNearestHolder.within (h : IsNearestHolder t ceiling cwd d) (habsolute : cwd.absolute = true)
    (hc : c ∈ ceiling) (hcwd : c.components <+: cwd.components) :
    c.components <+: (d.child configFileName).components ∧
      (".." ∉ cwd.components → ∀ place entry,
        t.locate (d.child configFileName) = .ok (place, entry) →
          c.components <+: "/" :: place) := by
  have hd : d.absolute = true := h.permitted.absolute.trans habsolute
  have hchild : (d.child configFileName).components = d.components ++ [configFileName] :=
    Path.components_child hd (by decide)
  have hwithin : c.components <+: (d.child configFileName).components :=
    hchild ▸ (h.permitted.within hc hcwd).trans (List.prefix_append ..)
  refine ⟨hwithin, fun hdots place entry hlocate => ?_⟩
  have hchilddots : ".." ∉ (d.child configFileName).components := by
    rw [hchild, List.mem_append, not_or]
    exact ⟨fun hmem => hdots ((h.permitted.isPrefix habsolute).subset hmem), by decide⟩
  have hplace : "/" :: place = (d.child configFileName).components :=
    FileTree.place_of_locate hd hchilddots hlocate
  rwa [hplace]

/-- Discovery comes to one result: the file of the override if it names one, else the configuration
file of the nearest permitted directory, and the error just if there is neither. From below a
ceiling nothing outside of it is found but by the override, and an override that names no file
changes nothing. -/
theorem discover_nearest (t : FileTree) (given : Option String) (ceiling : Option Path)
    (habsolute : cwd.absolute = true) :
    (∀ result, discover t cwd given ceiling = result ↔ Discovers t cwd given ceiling result) ∧
    (∀ c ∈ ceiling, c.components <+: cwd.components →
      ∀ path, discover t cwd given ceiling = .ok path → ¬ NamesFile t cwd given path →
        c.components <+: path.components ∧
        (".." ∉ cwd.components → ∀ place entry, t.locate path = .ok (place, entry) →
          c.components <+: "/" :: place)) ∧
    ((∀ path, ¬ NamesFile t cwd given path) →
      discover t cwd given ceiling = discover t cwd none ceiling) := by
  have hdiscovers := discovers_discover t given ceiling habsolute
  refine ⟨fun result => ⟨fun h => h ▸ hdiscovers, hdiscovers.unique habsolute⟩, ?_,
    discover_of_unnamed⟩
  intro c hc hcwd path hpath hunnamed
  rw [hpath] at hdiscovers
  cases hdiscovers with
  | override named => exact absurd named hunnamed
  | nearest _ nearest => exact nearest.within habsolute hc hcwd

/-- The search passes over an override that is not there and ends at the ceiling, without which it
would find the file at the root. Where the ceiling is no more than the beginning of a name, only the
working directory is looked at, but an override leads outside. -/
theorem discover_nearest_ceiling :
    let t : FileTree := ⟨[(["tsconfig.json"], .file []), (["a"], .directory),
      (["a", "b"], .directory), (["ab"], .directory), (["ab", "c"], .directory)]⟩
    let cwd := Path.ofText "/ab/./c/"
    cwd.absolute = true ∧
      Discovers t cwd (some "x.json") (some (.ofText "/ab")) (.error (.missing cwd)) ∧
      Discovers t cwd (some "x.json") none (.ok (.ofText "/tsconfig.json")) ∧
      Discovers t cwd none (some (.ofText "/a")) (.error (.missing cwd)) ∧
      Discovers t cwd (some "../../tsconfig.json") (some (.ofText "/a"))
        (.ok (.ofText "/ab/./c/../../tsconfig.json")) := by
  intro t cwd
  have habsolute : cwd.absolute = true := by decide +kernel
  have hresult (given ceiling result) := (discover_nearest t given ceiling habsolute).1 result
  refine ⟨habsolute, (hresult _ _ _).mp ?_, (hresult _ _ _).mp ?_, (hresult _ _ _).mp ?_,
    (hresult _ _ _).mp ?_⟩
  all_goals decide +kernel

end Config

end Provenance
