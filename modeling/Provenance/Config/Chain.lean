import Provenance.Config.Document
import Provenance.Config.Error
import Provenance.Config.Resolve

/-!
# Chains of configurations

A document may name another one that it extends. The documents from a file on are its chain; what
is loaded is the chain merged, the nearer document over the farther. A chain that comes back to one
of its files is an error, so every chain ends: each step visits a file of the tree that was not
visited.
-/

namespace Provenance.Config

/-! ### Steps of a chain -/

/-- A file to load, and how the reference to it was written. -/
structure Reference where
  location : String
  path : Path
deriving DecidableEq, Repr

/-- A file referred to by its path. -/
def Reference.ofPath (p : Path) : Reference := ⟨p.text, p⟩

/-- The file that a location written in a directory refers to. -/
def Reference.resolve? (t : FileTree) (location : String) (directory : Path) : Option Reference :=
  (resolve t location directory).map (⟨location, ·⟩)

/-- The document in the content of a file. -/
def documentOf (content : Bytes) : Except DocumentError Json :=
  match FileTree.textOf content with
  | .error e => .error (.access e)
  | .ok text => (Relaxed.parse text).mapError .form

/-- What a document extends, as it is written. -/
def extends? (document : Json) : Option String := (document.get? "extends").bind Json.string?

/-- The file beside another one that `extends` names, the ending `.json` added unless it is there. -/
def besidePath (path : Path) (location : String) : Path :=
  let name := if location.endsWith ".json" then location else location ++ ".json"
  (path.parent?.getD (.ofText ".")).join (.ofText name)

/-- The file that a document at a path extends: one beside it, or else what the text refers to. -/
def base? (t : FileTree) (path : Path) (location : String) : Option Reference :=
  let beside := besidePath path location
  if t.isFile beside then some (.ofPath beside)
  else Reference.resolve? t location (path.parent?.getD (.ofText "."))

/-! ### Loading -/

/-- The documents of a chain from a file on, the file's own first. The places visited before it are
those from which the chain came. -/
def chainFrom (t : FileTree) (visited : List Place) (reference : Reference) :
    Except ConfigError (List Json) :=
  match _h : t.locate reference.path with
  | .error e => .error (.unreadable reference.location reference.path (.access e))
  | .ok (_, .directory) =>
    .error (.unreadable reference.location reference.path (.access .isDirectory))
  | .ok (place, .file content) =>
    if _hv : place ∈ visited then .error (.cycle (visited ++ [place]))
    else match documentOf content with
      | .error e => .error (.unreadable reference.location reference.path e)
      | .ok document =>
        match extends? document with
        | none => .ok [document]
        | some location =>
          match base? t reference.path location with
          | none => .error (.notFound location)
          | some base => (chainFrom t (visited ++ [place]) base).map (document :: ·)
termination_by t.unvisited visited
decreasing_by exact FileTree.unvisited_lt _h _hv

/-- The document of a chain, given from the nearest on. A document that extends nothing stays as it
is; one that extends another is laid over it and no longer says so. -/
def mergeChain : List Json → Json
  | [] => .null
  | [document] => document
  | document :: base => withoutExtends (merge (mergeChain base) document)

/-- The configuration of a reference. -/
def load (t : FileTree) (reference : Reference) : Except ConfigError Json :=
  (chainFrom t [] reference).map mergeChain

/-- The configuration in the file at a path. -/
def loadFile (t : FileTree) (path : Path) : Except ConfigError Json := load t (.ofPath path)

/-- The configuration that a location written in a directory refers to. -/
def loadReference (t : FileTree) (location : String) (directory : Path) :
    Except ConfigError Json :=
  match Reference.resolve? t location directory with
  | none => .error (.notFound location)
  | some reference => load t reference

end Provenance.Config
