import Mathlib.Tactic.Common
import Mathlib.Data.List.Nodup
import Provenance.Config.Chain

/-!
# How the loading of a chain ends

A chain is followed here file by file, with no regard to what was visited before: a walk reads the
file of a reference and goes on to what its document extends. Such a walk may go on for ever. The
loading of a configuration takes a walk through distinct places, of which a tree has only so many,
and ends in the first of four ways: at a place of the walk itself, at a file that cannot be read,
at a reference that leads nowhere, or at a document that extends nothing.
-/

namespace Provenance.Config

variable {t : FileTree} {r last base start : Reference} {path : Path} {place : Place}
  {visited : List Place}

/-! ### Files of a chain -/

/-- A file of a chain: where it stands, and its document. -/
structure Link where
  place : Place
  document : Json

/-- What reading the file of a reference comes to: a file of a chain, if the path leads to a file
whose content is a text and the text a document, and else the first of these that fails. -/
inductive Reads (t : FileTree) (r : Reference) : Except DocumentError Link → Prop where
  | nowhere {cause : AccessError} (located : t.locate r.path = .error cause) :
      Reads t r (.error (.access cause))
  | directory {place : Place} (located : t.locate r.path = .ok (place, .directory)) :
      Reads t r (.error (.access .isDirectory))
  | noText {place : Place} {content : Bytes} {cause : AccessError}
      (located : t.locate r.path = .ok (place, .file content))
      (decoded : FileTree.textOf content = .error cause) : Reads t r (.error (.access cause))
  | malformed {place : Place} {content : Bytes} {text : String} {cause : RelaxedError}
      (located : t.locate r.path = .ok (place, .file content))
      (decoded : FileTree.textOf content = .ok text)
      (parsed : Relaxed.parse text = .error cause) : Reads t r (.error (.form cause))
  | link {place : Place} {content : Bytes} {text : String} {document : Json}
      (located : t.locate r.path = .ok (place, .file content))
      (decoded : FileTree.textOf content = .ok text)
      (parsed : Relaxed.parse text = .ok document) : Reads t r (.ok ⟨place, document⟩)

/-- What a document at a path extends: the file beside it if there is one, and only else the file
that the text refers to from there. -/
inductive IsBase (t : FileTree) (path : Path) (location : String) : Reference → Prop where
  | beside (isFile : t.isFile (besidePath path location)) :
      IsBase t path location (.ofPath (besidePath path location))
  | resolved {target : Path} (notBeside : t.isFile (besidePath path location) = false)
      (found : resolve t location (path.parent?.getD (.ofText ".")) = some target) :
      IsBase t path location ⟨location, target⟩

/-- The references of a chain from one to another, with the files that were read on the way. The
file of the last reference was not read yet. -/
inductive Walk (t : FileTree) : Reference → List Link → Reference → Prop where
  | here (r : Reference) : Walk t r [] r
  | step {r base last : Reference} {link : Link} {links : List Link} {location : String}
      (isRead : Reads t r (.ok link))
      (extending : link.document.get? "extends" = some (.string location))
      (isBase : IsBase t r.path location base) (rest : Walk t base links last) :
      Walk t r (link :: links) last

/-- The places of files of a chain. -/
def places (links : List Link) : List Place := links.map Link.place

@[simp] lemma places_nil : places [] = [] := rfl

@[simp] lemma places_cons (link : Link) (links : List Link) :
    places (link :: links) = link.place :: places links := rfl

@[simp] lemma places_append (links links' : List Link) :
    places (links ++ links') = places links ++ places links' := List.map_append

lemma nodup_places_concat {links : List Link} {link : Link} :
    (places (links ++ [link])).Nodup ↔ (places links).Nodup ∧ link.place ∉ places links := by
  rw [places_append, List.nodup_append_comm]
  exact List.nodup_cons.trans and_comm

/-! ### Verdicts -/

/-- What the loading of a chain comes to. The files that are read stand at distinct places. -/
inductive Verdict (t : FileTree) (start : Reference) : Except ConfigError Json → Prop where
  /-- The chain comes back to one of its files. -/
  | cycle {links : List Link} {last : Reference} {place : Place} {entry : Entry}
      (walk : Walk t start links last) (distinct : (places links).Nodup)
      (located : t.locate last.path = .ok (place, entry)) (again : place ∈ places links) :
      Verdict t start (.error (.cycle (places links ++ [place])))
  /-- A file of the chain cannot be read. -/
  | unreadable {links : List Link} {last : Reference} {cause : DocumentError}
      (walk : Walk t start links last) (distinct : (places links).Nodup)
      (failed : Reads t last (.error cause)) :
      Verdict t start (.error (.unreadable last.location last.path cause))
  /-- What a document of the chain extends is nowhere. -/
  | notFound {links : List Link} {last : Reference} {link : Link} {location : String}
      (walk : Walk t start links last) (isRead : Reads t last (.ok link))
      (distinct : (places (links ++ [link])).Nodup)
      (extending : link.document.get? "extends" = some (.string location))
      (nowhere : ∀ base, ¬ IsBase t last.path location base) :
      Verdict t start (.error (.notFound location))
  /-- The chain ends, and its documents are merged. -/
  | loaded {links : List Link} {last : Reference} {link : Link}
      (walk : Walk t start links last) (isRead : Reads t last (.ok link))
      (distinct : (places (links ++ [link])).Nodup)
      (ending : ∀ location, link.document.get? "extends" ≠ some (.string location)) :
      Verdict t start (.ok (mergeChain ((links ++ [link]).map Link.document)))

/-! ### One step -/

lemma isBase_iff {location : String} :
    IsBase t path location base ↔ base? t path location = some base := by
  constructor
  · rintro (h | ⟨h, hf⟩)
    · simp [base?, h]
    · simp [base?, h, Reference.resolve?, hf]
  · intro h
    simp only [base?, Reference.resolve?] at h
    split_ifs at h with hb
    · obtain rfl := Option.some.inj h
      exact .beside hb
    · obtain ⟨target, hf, rfl⟩ := Option.map_eq_some_iff.1 h
      exact .resolved (by simpa using hb) hf

lemma not_isBase_iff {location : String} :
    (∀ base, ¬ IsBase t path location base) ↔ base? t path location = none := by
  simp only [isBase_iff, Option.eq_none_iff_forall_ne_some, ne_eq]

/-- The reading of a file, step by step. -/
def read (t : FileTree) (r : Reference) : Except DocumentError Link :=
  match t.locate r.path with
  | .error e => .error (.access e)
  | .ok (_, .directory) => .error (.access .isDirectory)
  | .ok (place, .file content) => (documentOf content).map (⟨place, ·⟩)

lemma reads_iff {outcome : Except DocumentError Link} : Reads t r outcome ↔ read t r = outcome := by
  constructor
  · intro h
    cases h with
    | nowhere located => simp [read, located]
    | directory located => simp [read, located]
    | noText located decoded => simp [read, located, documentOf, decoded, Except.map]
    | malformed located decoded parsed =>
      simp [read, located, documentOf, decoded, parsed, Except.map, Except.mapError]
    | link located decoded parsed =>
      simp [read, located, documentOf, decoded, parsed, Except.map, Except.mapError]
  · rintro rfl
    unfold read documentOf
    cases located : t.locate r.path with
    | error cause => exact .nowhere located
    | ok found =>
      obtain ⟨place, entry⟩ := found
      cases entry with
      | directory => exact .directory located
      | file content =>
        dsimp only
        cases decoded : FileTree.textOf content with
        | error cause => exact .noText located decoded
        | ok text =>
          dsimp only
          cases parsed : Relaxed.parse text with
          | error cause => exact .malformed located decoded parsed
          | ok document => exact .link located decoded parsed

lemma extends?_eq_some_iff {document : Json} {location : String} :
    extends? document = some location ↔ document.get? "extends" = some (.string location) := by
  rw [extends?, Option.bind_eq_some_iff]
  constructor
  · rintro ⟨v, hv, hstring⟩
    cases v <;> cases hstring
    exact hv
  · exact fun h => ⟨_, h, rfl⟩

lemma extends?_eq_none_iff {document : Json} :
    extends? document = none ↔
      ∀ location, document.get? "extends" ≠ some (.string location) := by
  simp only [Option.eq_none_iff_forall_ne_some, ne_eq, extends?_eq_some_iff]

lemma read_eq_ok {link : Link} (h : read t r = .ok link) :
    ∃ content, t.locate r.path = .ok (link.place, .file content) ∧
      documentOf content = .ok link.document := by
  unfold read at h
  split at h
  · cases h
  · cases h
  · next place content hl =>
    cases hd : documentOf content with
    | error e => simp [hd, Except.map] at h
    | ok document =>
      simp only [hd, Except.map, Except.ok.injEq] at h
      subst h
      exact ⟨content, hl, hd⟩

/-- What stands where a path leads does not depend on the path. -/
lemma entry?_of_locate {p : Path} {entry : Entry} (h : t.locate p = .ok (place, entry)) :
    t.entry? place = some entry := by
  unfold FileTree.locate at h
  split at h
  · cases h
  split at h
  · cases h
  split at h
  · cases h
  next he =>
    obtain ⟨rfl, rfl⟩ := Prod.mk.inj (Except.ok.inj h)
    exact he

/-- A file of which a chain was read once can be read again, however it is referred to. -/
lemma read_of_locate {link : Link} {entry : Entry} (h : read t r = .ok link)
    (hl : t.locate last.path = .ok (link.place, entry)) : read t last = .ok link := by
  obtain ⟨content, hr, hd⟩ := read_eq_ok h
  have : entry = .file content :=
    Option.some.inj ((entry?_of_locate hl).symm.trans (entry?_of_locate hr))
  subst this
  simp [read, hl, hd, Except.map]

lemma chainFrom_of_again {content : Bytes} (hl : t.locate r.path = .ok (place, .file content))
    (hv : place ∈ visited) : chainFrom t visited r = .error (.cycle (visited ++ [place])) := by
  rw [chainFrom]
  split <;> simp_all

lemma chainFrom_of_failed {cause : DocumentError} (h : read t r = .error cause)
    (fresh : ∀ place entry, t.locate r.path = .ok (place, entry) → place ∉ visited) :
    chainFrom t visited r = .error (.unreadable r.location r.path cause) := by
  unfold read at h
  rw [chainFrom]
  split at h
  · next e hl => cases h; split <;> simp_all
  · next hl => cases h; split <;> simp_all
  · next place content hl =>
    have hv := fresh place _ hl
    cases hd : documentOf content with
    | error e =>
      obtain rfl : e = cause := by simpa [hd, Except.map] using h
      split <;> simp_all
    | ok document => simp [hd, Except.map] at h

/-- What a file that is read, and was not visited before, adds to the documents of a chain. -/
lemma chainFrom_of_read {link : Link} (h : read t r = .ok link) (hv : link.place ∉ visited) :
    chainFrom t visited r =
      match extends? link.document with
      | none => .ok [link.document]
      | some location =>
        match base? t r.path location with
        | none => .error (.notFound location)
        | some base =>
          (chainFrom t (visited ++ [link.place]) base).map (link.document :: ·) := by
  obtain ⟨content, hl, hd⟩ := read_eq_ok h
  rw [chainFrom]
  split
  · simp_all
  · simp_all
  · next hl' =>
    obtain ⟨rfl, rfl⟩ : link.place = _ ∧ content = _ := by simpa [hl] using hl'
    refine (dif_neg hv).trans ?_
    generalize documentOf content = document at hd ⊢
    subst hd
    rfl

/-! ### Walks -/

/-- A walk can be taken one file further. -/
lemma Walk.snoc {links : List Link} {link : Link} {location : String}
    (walk : Walk t start links last) (hr : Reads t last (.ok link))
    (he : link.document.get? "extends" = some (.string location))
    (hb : IsBase t last.path location base) : Walk t start (links ++ [link]) base := by
  induction walk with
  | here r => exact .step hr he hb (.here base)
  | step hr' he' hb' _ ih => exact .step hr' he' hb' (ih hr hb)

/-- A file that a walk came by could be read. -/
lemma Walk.exists_read {links : List Link} (walk : Walk t start links last)
    (h : place ∈ places links) : ∃ r link, read t r = .ok link ∧ link.place = place := by
  induction walk with
  | here r => simp at h
  | step hr _ _ _ ih =>
    rcases List.mem_cons.1 h with rfl | h
    · exact ⟨_, _, reads_iff.1 hr, rfl⟩
    · exact ih h

/-- The places of a walk are places of the tree. -/
lemma Walk.mem_entries {links : List Link} (walk : Walk t start links last)
    (h : place ∈ places links) : place ∈ t.entries.map Prod.fst := by
  obtain ⟨r, link, hr, rfl⟩ := walk.exists_read h
  obtain ⟨content, hl, -⟩ := read_eq_ok hr
  exact List.mem_map.2 ⟨_, FileTree.mem_entries_of_locate hl, rfl⟩

/-- A walk through distinct places is no longer than the tree is large. -/
lemma Walk.length_le {links : List Link} (walk : Walk t start links last)
    (distinct : (places links).Nodup) : links.length ≤ t.entries.length := by
  have := List.Nodup.length_le_of_subset distinct fun _ h => walk.mem_entries h
  simpa [places] using this

/-- Loading goes along a walk, as long as that comes by no place twice. -/
lemma chainFrom_of_walk (visited : List Place) {links : List Link}
    (walk : Walk t start links last) (distinct : (visited ++ places links).Nodup) :
    chainFrom t visited start =
      (chainFrom t (visited ++ places links) last).map (links.map Link.document ++ ·) := by
  induction walk generalizing visited with
  | here r =>
    cases h : chainFrom t visited r <;> simp [h, Except.map]
  | @step r base last link links location hr he hb walk ih =>
    have hv : link.place ∉ visited := by
      have := List.disjoint_of_nodup_append distinct
      exact fun hm => this hm (by simp)
    have hd : ((visited ++ [link.place]) ++ places links).Nodup := by simpa using distinct
    rw [chainFrom_of_read (reads_iff.1 hr) hv, extends?_eq_some_iff.2 he]
    simp only [isBase_iff.1 hb, ih _ hd, List.append_assoc, places_cons, List.singleton_append]
    cases chainFrom t (visited ++ link.place :: places links) last <;> simp [Except.map]

/-! ### The end of a chain -/

/-- Every walk through distinct places can be taken on until there is a verdict. -/
lemma exists_verdict_of_walk {last : Reference} {links : List Link}
    (walk : Walk t start links last) (distinct : (places links).Nodup) :
    ∃ outcome, Verdict t start outcome := by
  by_cases again : ∃ place entry, t.locate last.path = .ok (place, entry) ∧ place ∈ places links
  · obtain ⟨place, entry, hl, hm⟩ := again
    exact ⟨_, .cycle walk distinct hl hm⟩
  cases hr : read t last with
  | error cause => exact ⟨_, .unreadable walk distinct (reads_iff.2 hr)⟩
  | ok link =>
    obtain ⟨content, hl, -⟩ := read_eq_ok hr
    have hv : link.place ∉ places links := fun hm => again ⟨_, _, hl, hm⟩
    have distinct' := nodup_places_concat.2 ⟨distinct, hv⟩
    have isRead := reads_iff.2 hr
    cases he : extends? link.document with
    | none => exact ⟨_, .loaded walk isRead distinct' (extends?_eq_none_iff.1 he)⟩
    | some location =>
      have extending := extends?_eq_some_iff.1 he
      cases hb : base? t last.path location with
      | none => exact ⟨_, .notFound walk isRead distinct' extending (not_isBase_iff.2 hb)⟩
      | some base =>
        have walk' := walk.snoc isRead extending (isBase_iff.2 hb)
        have := walk'.length_le distinct'
        exact exists_verdict_of_walk walk' distinct'
termination_by t.entries.length - links.length
decreasing_by simp only [List.length_append, List.length_singleton] at this ⊢; omega

/-- What loading comes to after a walk, the documents of the walk laid over it. -/
lemma load_of_walk {links : List Link} (walk : Walk t start links last)
    (distinct : (places links).Nodup) :
    load t start =
      (chainFrom t (places links) last).map (mergeChain <| links.map Link.document ++ ·) := by
  rw [load, chainFrom_of_walk [] walk (by simpa using distinct), List.nil_append]
  cases chainFrom t (places links) last <;> rfl

/-- A verdict is what loading comes to. -/
lemma load_of_verdict {outcome : Except ConfigError Json} (h : Verdict t start outcome) :
    load t start = outcome := by
  cases h with
  | cycle walk distinct located again =>
    obtain ⟨r, link, hr, rfl⟩ := walk.exists_read again
    obtain ⟨content, hl, -⟩ := read_eq_ok (read_of_locate hr located)
    rw [load_of_walk walk distinct, chainFrom_of_again hl again]
    rfl
  | @unreadable links last cause walk distinct failed =>
    have hv : ∀ place entry, t.locate last.path = .ok (place, entry) → place ∉ places links := by
      intro place entry hl hm
      obtain ⟨r, link, hr, rfl⟩ := walk.exists_read hm
      cases (read_of_locate hr hl).symm.trans (reads_iff.1 failed)
    rw [load_of_walk walk distinct, chainFrom_of_failed (reads_iff.1 failed) hv]
    rfl
  | notFound walk isRead distinct extending nowhere =>
    obtain ⟨distinct, hv⟩ := nodup_places_concat.1 distinct
    rw [load_of_walk walk distinct, chainFrom_of_read (reads_iff.1 isRead) hv,
      extends?_eq_some_iff.2 extending]
    simp only [not_isBase_iff.1 nowhere]
    rfl
  | loaded walk isRead distinct ending =>
    obtain ⟨distinct, hv⟩ := nodup_places_concat.1 distinct
    rw [load_of_walk walk distinct, chainFrom_of_read (reads_iff.1 isRead) hv,
      extends?_eq_none_iff.2 ending, List.map_append]
    rfl

/-- Loading a configuration file comes to its verdict and to nothing else, after at most as many
steps as the tree has entries. -/
theorem loadFile_verdict (t : FileTree) (path : Path) :
    (∀ outcome, loadFile t path = outcome ↔ Verdict t (.ofPath path) outcome) ∧
      ∀ links last, Walk t (.ofPath path) links last → (places links).Nodup →
        links.length ≤ t.entries.length := by
  refine ⟨fun outcome => ⟨?_, load_of_verdict⟩, fun links last walk => walk.length_le⟩
  rintro rfl
  obtain ⟨outcome, h⟩ := exists_verdict_of_walk (Walk.here (t := t) (.ofPath path)) List.nodup_nil
  obtain rfl : loadFile t path = outcome := load_of_verdict h
  exact h

end Provenance.Config
