import Provenance.Json.Basic

/-!
# Configuration documents

A configuration is a JSON document. Documents of a chain are merged, the nearer one over the
farther: objects key by key, anything else whole. The compiler options of a document always ask
for a map and for the source in it.
-/

namespace Provenance.Config

/-! ### Merging -/

mutual
/-- A document laid over another. Only two objects merge; else the upper one stays. -/
def merge (base : Json) : (upper : Json) → Json
  | .object fields =>
    match base with
    | .object below => .object (mergeFields below fields)
    | _ => .object fields
  | v => v

/-- Fields laid over an object, one after the other. -/
def mergeFields (below : List (String × Json)) : (fields : List (String × Json)) →
    List (String × Json)
  | [] => below
  | (key, value) :: rest =>
    let merged := match Json.Fields.get? key below with
      | some old => merge old value
      | none => value
    mergeFields (Json.Fields.insert key merged below) rest
end

/-- The results of laying documents over the first one, one after the other. -/
def mergeSteps : List Json → List Json
  | [] => []
  | d :: ds => go d ds
where
  go (base : Json) : List Json → List Json
    | [] => [base]
    | d :: ds => base :: go (merge base d) ds

/-- The document without the reference to its base. -/
def withoutExtends : Json → Json
  | .object fields => .object (Json.Fields.erase "extends" fields)
  | v => v

/-! ### Compiler options -/

/-- The options handed to a compiler: named values. -/
structure CompilerOptions where
  fields : Json.Fields
deriving DecidableEq

namespace CompilerOptions

/-- The options with a map and the source in it asked for. -/
def withMaps (fields : Json.Fields) : CompilerOptions :=
  ⟨Json.Fields.insert "inlineSources" (.bool true)
    (Json.Fields.insert "sourceMap" (.bool true) fields)⟩

/-- The options of a document. -/
def ofDocument (document : Json) : CompilerOptions :=
  withMaps (((document.get? "compilerOptions").bind Json.fields?).getD [])

def get? (options : CompilerOptions) (name : String) : Option Json :=
  Json.Fields.get? name options.fields

/-- Whether an option is set to true. -/
def flag (options : CompilerOptions) (name : String) : Bool := options.get? name = some (.bool true)

def toJson (options : CompilerOptions) : Json := .object options.fields

end CompilerOptions

end Provenance.Config
