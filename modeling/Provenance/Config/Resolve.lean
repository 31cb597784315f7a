import Provenance.Files.Tree
import Provenance.Json.Reader

/-!
# References to configuration files

A reference is a path, or the name of a module that is looked up in the `node_modules` directories
from the nearest to the farthest. Either may leave out the ending `.json`, or name a directory: then
the file is the one that the manifest of the directory names, and else its index.
-/

namespace Provenance.Config

/-! ### Files and directories -/

/-- The file that a path names, as it stands or with `.json` added. -/
def file? (t : FileTree) (p : Path) : Option Path :=
  if t.isFile p then some p
  else if t.isFile (p.withEnding ".json") then some (p.withEnding ".json")
  else none

/-- The index of a directory. -/
def index? (t : FileTree) (directory : Path) : Option Path :=
  if t.isFile (directory.child "index.json") then some (directory.child "index.json") else none

/-- The entry that a manifest names: its one `main`, which may also stand alone in an array. An
empty entry names nothing. -/
def mainOf (manifest : Json) : Option String :=
  let mains : List Json := match manifest with
    | .object fields => (fields.filter (·.1 = "main")).map (·.2)
    | .array items => items
    | _ => []
  match mains with
  | [.string main] => if main.isEmpty then none else some main
  | _ => none

/-- A manifest from its text. Of its other fields nothing is read. -/
def manifest? (text : String) : Option Json :=
  (Json.Written.ofText? text).bind fun w => (w.keeping ["main"]).toJson?

/-- The entry that the manifest of a directory names. One that cannot be read names none. -/
def main? (t : FileTree) (directory : Path) : Option String :=
  match t.readText (directory.child "package.json") with
  | .ok text => (manifest? text).bind mainOf
  | .error _ => none

/-- The file of the entry that the manifest of a directory names. -/
def package? (t : FileTree) (directory : Path) : Option Path :=
  (main? t directory).bind fun main =>
    let entry := directory.join (.ofText main)
    file? t entry <|> index? t entry

/-- The file that a path names, with all that may be left out. -/
def target? (t : FileTree) (p : Path) : Option Path := file? t p <|> package? t p <|> index? t p

/-! ### References -/

/-- Whether a reference is a path, and not the name of a module. -/
def isPath (location : String) : Bool :=
  (Path.ofText location).absolute || location.toList.head? = some '.'

/-- The path of a module in a directory. -/
def modulePath (directory : Path) (location : String) : Path :=
  (directory.child "node_modules").join (.ofText location)

/-- The file that a reference written in a directory names. -/
def resolve (t : FileTree) (location : String) (directory : Path) : Option Path :=
  if isPath location then target? t (directory.join (.ofText location))
  else directory.ancestors.findSome? fun d => target? t (modulePath d location)

end Provenance.Config
