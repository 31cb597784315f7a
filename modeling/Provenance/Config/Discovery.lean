import Provenance.Config.Chain

/-!
# Finding the configuration of a project

The configuration is the file that an override names, or else the nearest one in the working
directory or above it. A ceiling bounds the search: it is the last directory that is looked at, and
outside of it only the working directory is.
-/

namespace Provenance

/-- The configuration of a project: where it was found, and its merged document. -/
structure ProjectConfig where
  path : Path
  document : Json
deriving DecidableEq

def ProjectConfig.options (config : ProjectConfig) : Config.CompilerOptions :=
  .ofDocument config.document

namespace Config

/-! ### Overrides -/

/-- The path that an override names from the working directory. -/
def overridePath (cwd : Path) (given : String) : Path := cwd.join (.ofText given)

/-- The file that an override names. -/
def overrideFile? (t : FileTree) (cwd : Path) (given : Option String) : Option Path :=
  (given.map (overridePath cwd)).filter t.isFile

/-- What is to be said of an override that names no file. -/
def overrideWarning? (t : FileTree) (cwd : Path) (given : Option String) : Option String :=
  match given with
  | none => none
  | some name =>
    let path := overridePath cwd name
    if t.isFile path then none
    else some (configFileName ++ " specified by " ++ configVariable ++ " was not found (" ++
      configVariable ++ " = " ++ name ++ ", resolved = " ++ path.text ++
      "); looking in app root directory")

/-! ### Searching upwards -/

/-- Whether the search ends at a directory: at the ceiling, or anywhere outside of it. -/
def endsSearch (ceiling : Option Path) (directory : Path) : Bool :=
  match ceiling with
  | none => false
  | some c => directory.same c || !directory.isWithin c

/-- The first configuration file in directories from the nearest on. -/
def search (t : FileTree) (ceiling : Option Path) : (directories : List Path) → Option Path
  | [] => none
  | d :: outer =>
    if t.isFile (d.child configFileName) then some (d.child configFileName)
    else if endsSearch ceiling d then none
    else search t ceiling outer

/-- The configuration file of a project. -/
def discover (t : FileTree) (cwd : Path) (given : Option String) (ceiling : Option Path) :
    Except ConfigError Path :=
  match overrideFile? t cwd given <|> search t ceiling cwd.ancestors with
  | some path => .ok path
  | none => .error (.missing cwd)

end Config

/-- Finds and loads the configuration of a project. -/
def ProjectConfig.load (t : FileTree) (cwd : Path) (given : Option String)
    (ceiling : Option Path) : Except ConfigError ProjectConfig := do
  let path ← Config.discover t cwd given ceiling
  let document ← Config.loadFile t path
  return ⟨path, document⟩

end Provenance
