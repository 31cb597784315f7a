import Mathlib.Data.List.Forall2
import Provenance.Config.Resolve
import Provenance.Proofs.Ancestors
import Provenance.Proofs.JsonText

/-!
# The candidates of a reference

What a reference names is the first file of a sequence of candidates that can be written down before
any of them is looked for: those of one path, or those of the module in each directory upwards, one
directory after another. Only what manifests name depends on the tree. Each path has its index among
its candidates, so a manifest that is of no use hides neither the index nor a file farther away.
-/

namespace Provenance.Config

variable {t : FileTree} {location entry : String} {directory p : Path} {ps : List Path}

/-! ### Manifests -/

/-- The value of a manifest names an entry: in its one field `main`, or alone in an array. -/
inductive IsMain : Json → String → Prop where
  | field {before after : Json.Fields} {entry : String}
      (once : ∀ f ∈ before ++ after, f.1 ≠ "main") :
      IsMain (.object (before ++ ("main", .string entry) :: after)) entry
  | alone (entry : String) : IsMain (.array [.string entry]) entry

/-- The manifest of a directory can be read, and it names an entry that is not empty. -/
def NamesEntry (t : FileTree) (directory : Path) (entry : String) : Prop :=
  ∃ text manifest, t.readText (directory.child "package.json") = .ok text ∧
    manifest? text = some manifest ∧ IsMain manifest entry ∧ entry ≠ ""

lemma mainOf_eq_some_iff {manifest : Json} :
    mainOf manifest = some entry ↔ IsMain manifest entry ∧ entry ≠ "" := by
  constructor
  · intro h
    unfold mainOf at h
    dsimp only at h
    split at h
    · next main hmains =>
      split_ifs at h with hempty
      obtain rfl := Option.some.inj h
      refine ⟨?_, by simpa using hempty⟩
      split at hmains
      · obtain ⟨⟨key, value⟩, hfields, rfl⟩ := List.map_eq_singleton_iff.mp hmains
        obtain ⟨before, after, rfl, hbefore, hkey, hafter⟩ := List.filter_eq_cons_iff.mp hfields
        obtain rfl := of_decide_eq_true hkey
        refine .field (List.forall_mem_append.mpr ⟨?_, ?_⟩)
        · simpa using hbefore
        · simpa [List.filter_eq_nil_iff] using hafter
      · rw [hmains]
        exact .alone _
      · cases hmains
    · cases h
  · rintro ⟨hmain, hne⟩
    cases hmain with
    | @field before after _ once =>
      obtain ⟨hbefore, hafter⟩ := List.forall_mem_append.mp once
      have hbefore : before.filter (·.1 = "main") = [] := by
        simpa [List.filter_eq_nil_iff] using hbefore
      have hafter : after.filter (·.1 = "main") = [] := by
        simpa [List.filter_eq_nil_iff] using hafter
      simp [mainOf, hbefore, hafter, hne]
    | alone => simp [mainOf, hne]

lemma main?_eq_some_iff : main? t directory = some entry ↔ NamesEntry t directory entry := by
  unfold main? NamesEntry
  cases hread : t.readText (directory.child "package.json") with
  | error e => simp
  | ok text => simp [Option.bind_eq_some_iff, mainOf_eq_some_iff]

/-- A manifest is read from its compact text. -/
lemma manifest?_text {manifest : Json} (h : manifest.isPlain) :
    manifest? manifest.text = (manifest.written.keeping ["main"]).toJson? := by
  rw [manifest?, Json.ofText?_text h, Option.bind_some]

/-! ### Candidates of a path -/

/-- The candidates that come of an entry of a directory. -/
def entryCandidates (directory : Path) (entry : String) : List Path :=
  let target := directory.join (.ofText entry)
  [target, target.withEnding ".json", target.child "index.json"]

/-- The candidates of a path, in the order in which they are tried. -/
inductive Candidates (t : FileTree) (p : Path) : List Path → Prop where
  | entry {entry : String} (named : NamesEntry t p entry) :
      Candidates t p
        ([p, p.withEnding ".json"] ++ entryCandidates p entry ++ [p.child "index.json"])
  | noEntry (unnamed : ∀ entry, ¬ NamesEntry t p entry) :
      Candidates t p ([p, p.withEnding ".json"] ++ [p.child "index.json"])

lemma exists_candidates (t : FileTree) (p : Path) : ∃ ps, Candidates t p ps := by
  by_cases h : ∃ entry, NamesEntry t p entry
  · obtain ⟨entry, named⟩ := h
    exact ⟨_, .entry named⟩
  · exact ⟨_, .noEntry (not_exists.mp h)⟩

lemma file?_eq (t : FileTree) (p : Path) :
    file? t p = [p, p.withEnding ".json"].find? t.isFile := by
  simp only [file?, List.find?]
  split_ifs <;> simp_all

lemma index?_eq (t : FileTree) (p : Path) : index? t p = [p.child "index.json"].find? t.isFile := by
  simp only [index?, List.find?]
  split_ifs <;> simp_all

/-- To search one list and then another is to search both put together. -/
lemma orElse_find? {α : Type*} (f : α → Bool) (l l' : List α) :
    (l.find? f <|> l'.find? f) = (l ++ l').find? f := by
  rw [List.find?_append]
  cases l.find? f <;> rfl

lemma package?_eq (named : NamesEntry t p entry) :
    package? t p = (entryCandidates p entry).find? t.isFile := by
  rw [package?, main?_eq_some_iff.mpr named, Option.bind_some]
  dsimp only
  rw [file?_eq, index?_eq, orElse_find?]
  rfl

lemma package?_eq_none (unnamed : ∀ entry, ¬ NamesEntry t p entry) : package? t p = none := by
  have hmain : main? t p = none :=
    Option.eq_none_iff_forall_ne_some.mpr fun _ h => unnamed _ (main?_eq_some_iff.mp h)
  rw [package?, hmain, Option.bind_none]

/-- A path names the first file among its candidates. -/
lemma target?_eq (h : Candidates t p ps) : target? t p = ps.find? t.isFile := by
  rw [target?, file?_eq, index?_eq]
  cases h with
  | entry named => rw [package?_eq named, orElse_find?, orElse_find?, List.append_assoc]
  | noEntry unnamed =>
    have hindex : (none <|> [p.child "index.json"].find? t.isFile) =
        [p.child "index.json"].find? t.isFile := rfl
    rw [package?_eq_none unnamed, hindex, orElse_find?]

/-- An entry at which there is no file counts as none. -/
lemma Candidates.find?_eq (h : Candidates t p ps)
    (hmissing : ∀ entry, NamesEntry t p entry →
      ∀ q ∈ entryCandidates p entry, t.isFile q = false) :
    ps.find? t.isFile = [p, p.withEnding ".json", p.child "index.json"].find? t.isFile := by
  cases h with
  | @entry entry named =>
    have hentry : (entryCandidates p entry).find? t.isFile = none :=
      List.find?_eq_none.mpr fun q hq => by simp [hmissing entry named q hq]
    rw [List.find?_append, List.find?_append, hentry, Option.or_none, ← List.find?_append]
    rfl
  | noEntry unnamed => rfl

/-! ### Candidates of a reference -/

/-- A location that begins with a slash or a dot. Any other one names a module. -/
def BeginsPath (location : String) : Prop :=
  location.toList.head? = some '/' ∨ location.toList.head? = some '.'

/-- The candidates of a reference from a directory, in the order in which they are tried: those of
a path, or of a module in the directory and in each one above it. -/
inductive ReferenceCandidates (t : FileTree) (location : String) (directory : Path) :
    List Path → Prop where
  | path {ps : List Path} (begins : BeginsPath location)
      (candidates : Candidates t (directory.join (.ofText location)) ps) :
      ReferenceCandidates t location directory ps
  | module {pss : List (List Path)} (begins : ¬ BeginsPath location)
      (candidates : List.Forall₂ (Candidates t)
        (directory.ancestors.map fun d => (d.child "node_modules").join (.ofText location)) pss) :
      ReferenceCandidates t location directory pss.flatten

lemma isPath_iff : isPath location = true ↔ BeginsPath location := by
  unfold isPath BeginsPath Path.ofText
  split <;> simp_all [List.head?_eq_some_iff]

lemma exists_forall₂_candidates (t : FileTree) (paths : List Path) :
    ∃ pss, List.Forall₂ (Candidates t) paths pss := by
  induction paths with
  | nil => exact ⟨[], .nil⟩
  | cons p paths ih =>
    obtain ⟨ps, hps⟩ := exists_candidates t p
    obtain ⟨pss, hpss⟩ := ih
    exact ⟨ps :: pss, .cons hps hpss⟩

lemma exists_referenceCandidates (t : FileTree) (location : String) (directory : Path) :
    ∃ ps, ReferenceCandidates t location directory ps := by
  by_cases hbegins : BeginsPath location
  · obtain ⟨ps, hps⟩ := exists_candidates t (directory.join (.ofText location))
    exact ⟨ps, .path hbegins hps⟩
  · obtain ⟨pss, hpss⟩ := exists_forall₂_candidates t
      (directory.ancestors.map fun d => (d.child "node_modules").join (.ofText location))
    exact ⟨_, .module hbegins hpss⟩

/-- Of several paths, the first that names a file names the first file among the candidates of all,
those of one path after those of another. -/
lemma findSome?_target? {paths : List Path} {pss : List (List Path)}
    (h : List.Forall₂ (Candidates t) paths pss) :
    paths.findSome? (target? t) = pss.flatten.find? t.isFile := by
  induction h with
  | nil => rfl
  | @cons _ ps _ _ hps _ ih =>
    rw [List.findSome?_cons, target?_eq hps, List.flatten_cons, List.find?_append, ← ih]
    cases ps.find? t.isFile <;> rfl

/-- A reference names the first file among its candidates. -/
lemma resolve_eq (h : ReferenceCandidates t location directory ps) :
    resolve t location directory = ps.find? t.isFile := by
  unfold resolve
  cases h with
  | path begins candidates => rw [if_pos (isPath_iff.mpr begins), target?_eq candidates]
  | module begins candidates =>
    rw [if_neg (mt isPath_iff.mp begins), ← findSome?_target? candidates, List.findSome?_map]
    rfl

/-- A module with no file in a directory is looked for from the parent of the directory. -/
lemma resolve_eq_of_parent? {parent : Path} (hbegins : ¬ BeginsPath location)
    (hparent : directory.parent? = some parent)
    (hmissing : ∀ ps, Candidates t ((directory.child "node_modules").join (.ofText location)) ps →
      ∀ q ∈ ps, t.isFile q = false) :
    resolve t location directory = resolve t location parent := by
  obtain ⟨ps, hps⟩ := exists_candidates t ((directory.child "node_modules").join (.ofText location))
  have hnear : target? t (modulePath directory location) = none := by
    rw [modulePath, target?_eq hps, List.find?_eq_none]
    exact fun q hq => by simp [hmissing ps hps q hq]
  have hpath := mt isPath_iff.mp hbegins
  rw [resolve, resolve, if_neg hpath, if_neg hpath, Path.ancestors_of_parent? hparent,
    List.findSome?_cons, hnear]

/-- A reference names the first file of its candidates: of those of a path, or of those of a module
in the directory and in each one above it up to the root. An entry of a manifest at which there is
no file hides neither the index beside the manifest nor the directories farther away. -/
theorem resolve_first (t : FileTree) (location : String)
    (habsolute : directory.absolute = true) :
    (∃ ps, ReferenceCandidates t location directory ps) ∧
    (∀ ps, ReferenceCandidates t location directory ps →
      resolve t location directory = ps.find? t.isFile) ∧
    (directory.ancestors.head? = some directory ∧
      directory.ancestors.IsChain (fun d above => d.parent? = some above) ∧
      directory.ancestors.map Path.components = directory.components.inits.tail.reverse) ∧
    (∀ p ps, Candidates t p ps →
      (∀ entry, NamesEntry t p entry → ∀ q ∈ entryCandidates p entry, t.isFile q = false) →
        ps.find? t.isFile = [p, p.withEnding ".json", p.child "index.json"].find? t.isFile) ∧
    (¬ BeginsPath location → ∀ parent, directory.parent? = some parent →
      (∀ ps, Candidates t ((directory.child "node_modules").join (.ofText location)) ps →
        ∀ q ∈ ps, t.isFile q = false) →
      resolve t location directory = resolve t location parent) :=
  ⟨exists_referenceCandidates t location directory, fun _ => resolve_eq,
    ⟨rfl, directory.isChain_ancestors, Path.map_components_ancestors habsolute⟩,
    fun _ _ => Candidates.find?_eq, fun hbegins _ => resolve_eq_of_parent? hbegins⟩

/-- A manifest that breaks off hides no module farther away, where another manifest names a
directory as its entry. -/
theorem resolve_first_farther :
    let manifest := Json.object [("main", .string "./lib")]
    let t : FileTree := ⟨[(["a"], .directory), (["a", "node_modules"], .directory),
      (["a", "node_modules", "m"], .directory),
      (["a", "node_modules", "m", "package.json"], .file (utf8 "\x7b")),
      (["node_modules"], .directory), (["node_modules", "m"], .directory),
      (["node_modules", "m", "index.json"], .file []),
      (["node_modules", "m", "lib"], .directory),
      (["node_modules", "m", "lib", "index.json"], .file []),
      (["node_modules", "m", "package.json"], .file (utf8 manifest.text))]⟩
    NamesEntry t (.ofText "/node_modules/m") "./lib" ∧
      resolve t "m" (.ofText "/a") = resolve t "m" (.ofText "/") ∧
      resolve t "m" (.ofText "/a") = some (.ofText "/node_modules/m/./lib/index.json") := by
  intro manifest t
  have hnamed : NamesEntry t (.ofText "/node_modules/m") "./lib" := by
    refine ⟨manifest.text, manifest, by decide +kernel, ?_, ?_, by decide⟩
    · rw [manifest?_text (by decide)]
      rfl
    · have honce : ∀ f ∈ ([] ++ [] : Json.Fields), f.1 ≠ "main" := by simp
      exact .field honce
  have hunnamed : ∀ entry, ¬ NamesEntry t (.ofText "/a/node_modules/m") entry := by
    rintro entry ⟨text, _, hread, hmanifest, -⟩
    have htext : t.readText (.ofText "/a/node_modules/m/package.json") = .ok "\x7b" := by
      decide +kernel
    obtain rfl := Except.ok.inj (htext.symm.trans hread)
    have hbroken : manifest? "\x7b" = none := by cbv
    cases hbroken.symm.trans hmanifest
  have hmodule : ¬ BeginsPath "m" := by
    unfold BeginsPath
    decide
  have hpaths : (Path.ofText "/a").ancestors.map
      (fun d => (d.child "node_modules").join (.ofText "m")) =
        [.ofText "/a/node_modules/m", .ofText "/node_modules/m"] := by
    decide +kernel
  have habsolute : (Path.ofText "/a").absolute = true := by decide +kernel
  obtain ⟨-, hfirst, -, -, hfarther⟩ := resolve_first t "m" habsolute
  refine ⟨hnamed, hfarther hmodule _ (by decide +kernel) fun near hnear => ?_, ?_⟩
  · cases hnear with
    | entry named => exact absurd named (hunnamed _)
    | noEntry _ => decide +kernel
  · refine (hfirst (List.flatten ?candidates) (.module hmodule ?modules)).trans ?found
    case modules =>
      rw [hpaths]
      exact .cons (Candidates.noEntry hunnamed) (.cons (Candidates.entry hnamed) .nil)
    case found => decide +kernel

end Provenance.Config
