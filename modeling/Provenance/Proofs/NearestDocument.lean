import Provenance.Proofs.ExtendsChain
import Provenance.Proofs.KeyPaths

/-!
# The nearest document decides

A chain is merged from its far end on, so merging is not associative and the order matters: a value
that is no object cuts off what farther documents say below its path. What comes of it is told by
paths. The nearest document in which a path does not stop at a missing key decides what the merged
document has there, whatever stands in the others.
-/

namespace Provenance.Config

open Json (Reach reach at? IsKeyed)

variable {t : FileTree} {r base last : Reference} {path : Path} {key : String} {keys : List String}
  {document : Json} {documents documents' nearer farther : List Json} {v result : Json}

/-! ### Documents of a chain -/

/-- The documents of the chain from a reference on, the one it leads to first. -/
inductive Chain (t : FileTree) : Reference → List Json → Prop where
  | root {r : Reference} {link : Link} (isRead : Reads t r (.ok link))
      (ending : ∀ location, link.document.get? "extends" ≠ some (.string location)) :
      Chain t r [link.document]
  | step {r base : Reference} {link : Link} {location : String} {documents : List Json}
      (isRead : Reads t r (.ok link))
      (extending : link.document.get? "extends" = some (.string location))
      (isBase : IsBase t r.path location base) (rest : Chain t base documents) :
      Chain t r (link.document :: documents)

lemma IsBase.unique {location : String} {base' : Reference} (h : IsBase t path location base)
    (h' : IsBase t path location base') : base = base' :=
  Option.some.inj ((isBase_iff.1 h).symm.trans (isBase_iff.1 h'))

/-- A reference has one chain. -/
lemma Chain.unique (chain : Chain t r documents) (chain' : Chain t r documents') :
    documents = documents' := by
  have same {r : Reference} {link link' : Link} (isRead : Reads t r (.ok link))
      (isRead' : Reads t r (.ok link')) : link = link' :=
    Except.ok.inj ((reads_iff.1 isRead).symm.trans (reads_iff.1 isRead'))
  induction chain generalizing documents' with
  | root isRead ending =>
    cases chain' with
    | root isRead' _ => rw [same isRead isRead']
    | step isRead' extending' _ _ =>
      obtain rfl := same isRead isRead'
      exact absurd extending' (ending _)
  | step isRead extending isBase _ ih =>
    cases chain' with
    | root isRead' ending' =>
      obtain rfl := same isRead isRead'
      exact absurd extending (ending' _)
    | step isRead' extending' isBase' rest' =>
      obtain rfl := same isRead isRead'
      obtain rfl := Json.string.inj (Option.some.inj (extending.symm.trans extending'))
      obtain rfl := isBase.unique isBase'
      rw [ih rest']

/-- The documents of a chain are read from texts. -/
lemma Chain.isKeyed (chain : Chain t r documents) : ∀ d ∈ documents, IsKeyed d := by
  have keyed {r : Reference} {link : Link} (isRead : Reads t r (.ok link)) :
      IsKeyed link.document := by
    cases isRead with
    | link _ _ parsed => exact Relaxed.isKeyed_parse parsed
  induction chain with
  | root isRead _ => exact List.forall_mem_singleton.2 (keyed isRead)
  | step isRead _ _ _ ih => exact List.forall_mem_cons.2 ⟨keyed isRead, ih⟩

/-- A walk to a document that extends nothing gives the documents of the chain. -/
lemma Walk.chain {links : List Link} {link : Link} (walk : Walk t r links last)
    (isRead : Reads t last (.ok link))
    (ending : ∀ location, link.document.get? "extends" ≠ some (.string location)) :
    Chain t r ((links ++ [link]).map Link.document) := by
  induction walk with
  | here r => exact .root isRead ending
  | step isRead' extending isBase _ ih => exact .step isRead' extending isBase (ih isRead)

/-- Loading merges the documents of the chain. -/
lemma exists_chain_of_load (h : load t r = .ok result) :
    ∃ documents, Chain t r documents ∧ result = mergeChain documents := by
  obtain ⟨outcome, verdict⟩ := exists_verdict_of_walk (Walk.here (t := t) r) List.nodup_nil
  obtain rfl : .ok result = outcome := h.symm.trans (load_of_verdict verdict)
  cases verdict with
  | loaded walk isRead _ ending => exact ⟨_, walk.chain isRead ending, rfl⟩

/-! ### The merged document along a path -/

/-- One more document laid over a merged chain, at a path that `extends` does not begin. -/
lemma at?_mergeChain_cons (keyed : IsKeyed document) (h : key ≠ "extends")
    (base : List Json) :
    at? (key :: keys) (mergeChain (document :: base)) =
      match reach (key :: keys) document with
      | .found v => some (match at? (key :: keys) (mergeChain base) with
        | some old => merge old v
        | none => v)
      | .blocked => none
      | .missing => at? (key :: keys) (mergeChain base) := by
  cases base with
  | nil =>
    rw [mergeChain, mergeChain, Json.at?_cons_of_fields?_eq_none (v := .null) rfl, at?]
    cases reach (key :: keys) document <;> rfl
  | cons below rest => exact (at?_withoutExtends h keys _).trans (at?_merge keyed _ _)

/-- Documents that do not have the last keys of a path leave it to those they are laid over. -/
lemma at?_mergeChain_append (keyed : ∀ d ∈ nearer, IsKeyed d) (h : key ≠ "extends")
    (missing : ∀ d ∈ nearer, reach (key :: keys) d = .missing) (farther : List Json) :
    at? (key :: keys) (mergeChain (nearer ++ farther)) =
      at? (key :: keys) (mergeChain farther) := by
  induction nearer with
  | nil => rfl
  | cons d nearer ih =>
    obtain ⟨hkeyed, keyed⟩ := List.forall_mem_cons.1 keyed
    obtain ⟨hmissing, missing⟩ := List.forall_mem_cons.1 missing
    rw [List.cons_append, at?_mergeChain_cons hkeyed h, hmissing]
    exact ih keyed missing

/-- The document nearest to the front among those in which a path does not stop at a missing
key. -/
def Decides (documents : List Json) (keys : List String) (d : Json) : Prop :=
  ∃ nearer farther, documents = nearer ++ d :: farther ∧
    (∀ n ∈ nearer, reach keys n = .missing) ∧ reach keys d ≠ .missing

/-- What a document has at a path, told by the documents it is merged of, the nearest first. -/
structure Settled (documents : List Json) (keys : List String) (result : Json) : Prop where
  /-- Nothing is there when no document decides. -/
  absent : (∀ d ∈ documents, reach keys d = .missing) → at? keys result = none
  /-- A value that is no object is taken whole. -/
  whole : ∀ d v, Decides documents keys d → reach keys d = .found v → v.fields? = none →
    at? keys result = some v
  /-- An object may be joined with others, and is one still. -/
  object : ∀ d fields, Decides documents keys d → reach keys d = .found (.object fields) →
    ∃ joined, at? keys result = some (.object joined)
  /-- Nothing is below a value that is no object. -/
  cut : ∀ d, Decides documents keys d → reach keys d = .blocked → at? keys result = none

/-- The document that decides a path decides it alone but for the fields of an object. -/
lemma at?_mergeChain_of_decides (keyed : ∀ d ∈ documents, IsKeyed d) (h : key ≠ "extends")
    {d : Json} (decides : Decides documents (key :: keys) d) :
    ∃ base, at? (key :: keys) (mergeChain documents) =
      match reach (key :: keys) d with
      | .found v => some (match at? (key :: keys) (mergeChain base) with
        | some old => merge old v
        | none => v)
      | .blocked => none
      | .missing => at? (key :: keys) (mergeChain base) := by
  obtain ⟨nearer, farther, rfl, missing, -⟩ := decides
  obtain ⟨hnearer, hrest⟩ := List.forall_mem_append.1 keyed
  refine ⟨farther, ?_⟩
  rw [at?_mergeChain_append hnearer h missing, at?_mergeChain_cons (hrest d List.mem_cons_self) h]

lemma settled_mergeChain (keyed : ∀ d ∈ documents, IsKeyed d) (h : key ≠ "extends") :
    Settled documents (key :: keys) (mergeChain documents) where
  absent missing := by
    have := at?_mergeChain_append keyed h missing []
    rwa [List.append_nil, mergeChain, Json.at?_cons_of_fields?_eq_none (v := .null) rfl] at this
  whole d v decides found noObject := by
    obtain ⟨base, hat⟩ := at?_mergeChain_of_decides keyed h decides
    rw [hat, found]
    cases at? (key :: keys) (mergeChain base) with
    | none => rfl
    | some old => exact congrArg some (merge_of_fields?_eq_none old noObject)
  object d fields decides found := by
    obtain ⟨base, hat⟩ := at?_mergeChain_of_decides keyed h decides
    rw [hat, found]
    cases at? (key :: keys) (mergeChain base) with
    | none => exact ⟨fields, rfl⟩
    | some old =>
      obtain ⟨joined, hjoined⟩ := exists_merge_object old fields
      exact ⟨joined, congrArg some hjoined⟩
  cut d decides blocked := by
    obtain ⟨base, hat⟩ := at?_mergeChain_of_decides keyed h decides
    rw [hat, blocked]

/-- Of the chain of a file, the nearest document that decides a path settles what is loaded there.
The reference to the base is dropped; a document that extends nothing is loaded as it is. -/
theorem loadFile_settled (loaded : loadFile t path = .ok result) :
    ∃ documents, (∀ documents', Chain t (.ofPath path) documents' ↔ documents' = documents) ∧
      (∀ d, documents = [d] → result = d) ∧
      (2 ≤ documents.length → result.get? "extends" = none ∧
        ∀ key keys, key ≠ "extends" → Settled documents (key :: keys) result) := by
  obtain ⟨documents, chain, rfl⟩ := exists_chain_of_load loaded
  refine ⟨documents, fun documents' => ⟨fun chain' => chain'.unique chain, ?_⟩, ?_, ?_⟩
  · rintro rfl
    exact chain
  · rintro d rfl
    rfl
  · intro length
    refine ⟨?_, fun key keys h => settled_mergeChain chain.isKeyed h⟩
    match documents, length with
    | d :: base :: rest, _ => exact get?_extends_withoutExtends _

/-- The number in the middle document cuts off what the farthest one says below it. -/
theorem loadFile_settled_three :
    let t : FileTree :=
      ⟨[(["a.json"], .file (utf8 "\x7bextends: './b', x: \x7by: 1\x7d\x7d")),
        (["b.json"], .file (utf8 "\x7bextends: './c', x: \x7bz: [2]\x7d, w: 3\x7d")),
        (["c.json"], .file (utf8 "\x7bx: \x7bz: [4], v: 5\x7d, w: \x7bu: 6\x7d\x7d"))]⟩
    let result : Json := .object [("w", .int 3),
      ("x", .object [("v", .int 5), ("y", .int 1), ("z", .array [.int 2])])]
    loadFile t (.ofText "/a.json") = .ok result ∧
      ∃ documents, (∀ documents', Chain t (.ofPath (.ofText "/a.json")) documents' ↔
          documents' = documents) ∧
        (∀ d, documents = [d] → result = d) ∧
        (2 ≤ documents.length → result.get? "extends" = none ∧
          ∀ key keys, key ≠ "extends" → Settled documents (key :: keys) result) := by
  intro t result
  have loaded : loadFile t (.ofText "/a.json") = .ok result := by decide +kernel
  exact ⟨loaded, loadFile_settled loaded⟩

end Provenance.Config
