import Provenance.Files.Path
import Provenance.Text.Utf8

/-!
# File trees

A tree of files says what stands at each place below its root. A place is the list of names that
lead to it, so a file has one place, however many paths lead there. `locate` follows a path to its
place; all other access goes through it.
-/

namespace Provenance

/-- The names that lead to a file or directory from the root. -/
abbrev Place := List String

/-- The absolute path of a place. -/
def Place.path (place : Place) : Path := ⟨true, if place.isEmpty then [""] else place⟩

/-- What stands at a place. -/
inductive Entry where
  | file (content : Bytes)
  | directory
deriving DecidableEq, Repr

/-- Why a path cannot be read or written. -/
inductive AccessError where
  | missing
  | notDirectory
  | isDirectory
  | notText
  | taken
  | nameTooLong
  /-- The text of the path holds the character that ends texts elsewhere. -/
  | nulInPath
deriving DecidableEq, Repr

def AccessError.message : AccessError → String
  | .missing => "No such file or directory (os error 2)"
  | .notDirectory => "Not a directory (os error 20)"
  | .isDirectory => "Is a directory (os error 21)"
  | .notText => "stream did not contain valid UTF-8"
  | .taken => "File exists (os error 17)"
  | .nameTooLong => "File name too long (os error 36)"
  | .nulInPath => "file name contained an unexpected NUL byte"

/-- A tree of files, by place. -/
structure FileTree where
  entries : List (Place × Entry)
deriving DecidableEq, Repr

namespace FileTree

def empty : FileTree := ⟨[]⟩

/-! ### Entries -/

/-- What stands at a place, if anything does. The root is always a directory. -/
def entry? (t : FileTree) (place : Place) : Option Entry :=
  if place.isEmpty then some .directory else t.entries.lookup place

/-- The tree with an entry at a place, in place of any other there. -/
def insert (place : Place) (entry : Entry) (t : FileTree) : FileTree :=
  ⟨(place, entry) :: t.entries.filter (·.1 ≠ place)⟩

/-! ### Following paths -/

/-- The most bytes that a name can have. -/
def maxNameBytes : Nat := 255

/-- The most bytes that the text of a path can have. -/
def maxPathBytes : Nat := 4095

/-- What is wrong with a path wherever it leads. -/
def checkPath (p : Path) : Except AccessError Unit :=
  if p.text.toList.contains '\x00' then .error .nulInPath
  else if maxPathBytes < p.text.utf8ByteSize then .error .nameTooLong
  else .ok ()

/-- Follows segments from a place. Only a directory can be followed further, even to itself. -/
def follow (t : FileTree) (place : Place) : (segments : List String) → Except AccessError Place
  | [] => .ok place
  | segment :: rest =>
    match t.entry? place with
    | none => .error .missing
    | some (.file _) => .error .notDirectory
    | some .directory =>
      if segment = ".." then follow t place.dropLast rest
      else if maxNameBytes < segment.utf8ByteSize then .error .nameTooLong
      else if Path.leads segment then follow t (place ++ [segment]) rest
      else follow t place rest

/-- The place to which an absolute path leads, and what stands there. -/
def locate (t : FileTree) (p : Path) : Except AccessError (Place × Entry) :=
  match checkPath p with
  | .error e => .error e
  | .ok () =>
    match t.follow [] p.segments with
    | .error e => .error e
    | .ok place =>
      match t.entry? place with
      | none => .error .missing
      | some entry => .ok (place, entry)

/-- Whether a path leads to a file. -/
def isFile (t : FileTree) (p : Path) : Bool :=
  match t.locate p with
  | .ok (_, .file _) => true
  | _ => false

/-- The text of a file's content. -/
def textOf (content : Bytes) : Except AccessError String :=
  match ofUtf8? content with
  | some text => .ok text
  | none => .error .notText

/-- The text of the file to which a path leads. -/
def readText (t : FileTree) (p : Path) : Except AccessError String :=
  match t.locate p with
  | .error e => .error e
  | .ok (_, .directory) => .error .isDirectory
  | .ok (_, .file content) => textOf content

/-! ### Changes -/

/-- The directory in which the last name of a path stands, and that name. Slashes at the end do not
count. -/
def lastName (t : FileTree) (p : Path) : Except AccessError (Place × String) := do
  checkPath p
  let inner := p.segments.reverse.dropWhile (· = "")
  let directory ← t.follow [] inner.tail.reverse
  match t.entry? directory with
  | none => throw .missing
  | some (.file _) => throw .notDirectory
  | some .directory =>
    let name := inner.headD ""
    if maxNameBytes < name.utf8ByteSize then throw .nameTooLong
    else return (directory, name)

/-- The tree after a file is written at a path. The directory it goes to must be there, and the
path must end in the name of a file. -/
def write (t : FileTree) (p : Path) (content : Bytes) : Except AccessError FileTree := do
  let (directory, name) ← t.lastName p
  if name = ".." || !Path.leads (p.segments.getLastD "") then throw .isDirectory
  match t.entry? (directory ++ [name]) with
  | some .directory => throw .isDirectory
  | _ => return t.insert (directory ++ [name]) (.file content)

/-- The tree after a directory is made at a path. Nothing may stand there yet. -/
def makeDirectory (t : FileTree) (p : Path) : Except AccessError FileTree := do
  let (directory, name) ← t.lastName p
  if name = ".." || !Path.leads name then throw .taken
  match t.entry? (directory ++ [name]) with
  | some _ => throw .taken
  | none => return t.insert (directory ++ [name]) .directory

/-- The tree with a directory at a path, which may stand there already. -/
def ensureDirectory (t : FileTree) (p : Path) : Except AccessError FileTree :=
  match t.locate p with
  | .ok (_, .directory) => .ok t
  | _ => t.makeDirectory p

/-- The tree with a directory at a path and at each of its parents, as far as they can be made. -/
def makeDirectories (t : FileTree) (p : Path) : FileTree :=
  match checkPath p with
  | .error _ => t
  | .ok () => p.ancestors.reverse.foldl (fun t q => (t.ensureDirectory q).toOption.getD t) t

/-- The tree after what stands at a path is removed with all below it. A directory that is named
by dots is emptied and stays. -/
def remove (t : FileTree) (p : Path) : Except AccessError FileTree := do
  let (place, _) ← t.locate p
  let name := (p.segments.reverse.dropWhile (· = "")).headD ""
  let stays := name = "." || name = ".."
  return ⟨t.entries.filter fun e => !place.isPrefixOf e.1 || (stays && e.1 = place)⟩

/-! ### Places that are left -/

/-- The number of places of the tree that are not among those visited. -/
def unvisited (t : FileTree) (visited : List Place) : Nat :=
  (t.entries.filter (·.1 ∉ visited)).length

theorem mem_of_lookup {α β : Type} [BEq α] [LawfulBEq α] {k : α} {v : β} {l : List (α × β)}
    (h : l.lookup k = some v) : (k, v) ∈ l := by
  induction l with
  | nil => simp at h
  | cons kv rest ih =>
    obtain ⟨k', v'⟩ := kv
    rw [List.lookup_cons] at h
    split at h
    · next hk =>
      rw [eq_of_beq hk, Option.some.inj h]
      exact .head _
    · exact .tail _ (ih h)

/-- A file that is located stands at a place of the tree. -/
theorem mem_entries_of_locate {t : FileTree} {p : Path} {place : Place} {content : Bytes}
    (h : t.locate p = .ok (place, .file content)) : (place, .file content) ∈ t.entries := by
  unfold locate at h
  split at h
  · simp at h
  split at h
  · simp at h
  split at h
  · simp at h
  next he =>
    simp only [Except.ok.injEq, Prod.mk.injEq] at h
    obtain ⟨rfl, rfl⟩ := h
    unfold entry? at he
    split at he
    · simp at he
    · exact mem_of_lookup he

/-- A visit to a file that was not visited leaves fewer places. -/
theorem unvisited_lt {t : FileTree} {p : Path} {place : Place} {content : Bytes}
    {visited : List Place} (h : t.locate p = .ok (place, .file content))
    (hv : place ∉ visited) : t.unvisited (visited ++ [place]) < t.unvisited visited := by
  have hm := mem_entries_of_locate h
  unfold unvisited
  have : t.entries.filter (·.1 ∉ visited ++ [place]) =
      (t.entries.filter (·.1 ∉ visited)).filter (·.1 ≠ place) := by
    rw [List.filter_filter]
    congr 1
    funext e
    by_cases h₁ : e.1 = place <;> by_cases h₂ : e.1 ∈ visited <;> simp [h₁, h₂]
  rw [this]
  apply List.length_filter_lt_length_iff_exists.2
  exact ⟨(place, .file content), by simp [List.mem_filter, hm, hv], by simp⟩

end FileTree

end Provenance
