import Provenance.Files.Tree
import Provenance.Json.Relaxed

/-!
# Configuration errors

Why no configuration was loaded. Every cause ends the loading; `message` gives its wording.
-/

namespace Provenance

/-- The name of a configuration file. -/
def configFileName : String := "tsconfig.json"

/-- The environment variable that names a configuration file. -/
def configVariable : String := "TSCONFIG_PATH"

/-- Why a file holds no document. -/
inductive DocumentError where
  | access (cause : AccessError)
  | form (cause : RelaxedError)
deriving DecidableEq, Repr

def DocumentError.message : DocumentError → String
  | .access cause => cause.message
  | .form cause => cause.message

/-- Why no configuration was loaded. -/
inductive ConfigError where
  /-- A reference leads to no file. -/
  | notFound (location : String)
  /-- A file cannot be read as a document; `location` is how the reference to it was written. -/
  | unreadable (location : String) (path : Path) (cause : DocumentError)
  /-- A chain came back to a file of its own: its files, the last one a second time. -/
  | cycle (chain : List Place)
  /-- No configuration file was found from a directory on. -/
  | missing (searchedFrom : Path)
deriving DecidableEq, Repr

def ConfigError.message : ConfigError → String
  | .notFound location => "Could not load config from " ++ location
  | .unreadable location path cause =>
    "Error loading config " ++ location ++ ":\n  Error reading \"" ++ path.text ++ "\":\n  " ++
      cause.message
  | .cycle chain =>
    "circular \"extends\" chain: " ++ " -> ".intercalate (chain.map fun place => place.path.text)
  | .missing searchedFrom =>
    "Unable to find a \"" ++ configFileName ++ "\" file in " ++ searchedFrom.text ++
      " or any parent directory. It should be placed at the root of your project. Otherwise, " ++
      "you can specify another location using the " ++ configVariable ++ " environment variable."

end Provenance
