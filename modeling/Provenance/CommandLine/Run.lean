import Provenance.CommandLine.Arguments
import Provenance.Config.Discovery
import Provenance.Fingerprint
import Provenance.Json.Reader
import Provenance.Mapping.Composition
import Provenance.Text.Shown

/-!
# Running a command line

`run` is the program: from the files there are, the working directory, the variable that overrides
the configuration file and the arguments, it gives what is written to either stream, the exit code
and the files afterwards.
-/

namespace Provenance.CommandLine

/-- Why a command fails. -/
inductive Failure where
  | config (cause : ConfigError)
  | unreadable (argument : String) (cause : AccessError)
  | json
  | map (cause : MapError)
  | unwritable (cause : AccessError)
deriving DecidableEq

def Failure.message : Failure → String
  | .config cause => cause.message
  | .unreadable argument cause => "cannot read " ++ argument ++ ": " ++ cause.message
  | .json => "json syntax"
  | .map cause => cause.message
  | .unwritable cause => cause.message

/-- Where a program runs. -/
structure Environment where
  tree : FileTree
  cwd : Path
  /-- The value of the variable that names a configuration file. -/
  configVariable : Option String
deriving DecidableEq, Repr

/-- What a run leaves: its exit code, what it wrote to the output and to the error stream, what it
warned of, and the files. -/
structure Outcome where
  exitCode : Nat
  output : String := ""
  errors : String := ""
  warnings : List String := []
  tree : FileTree
deriving DecidableEq, Repr

/-! ### Files -/

/-- The path that an argument names from the working directory; an empty one names nothing. -/
def Environment.path? (env : Environment) (argument : String) : Except AccessError Path :=
  if argument.isEmpty then .error .missing else .ok (env.cwd.join (.ofText argument))

def Environment.readText (env : Environment) (argument : String) : Except Failure String :=
  (do env.tree.readText (← env.path? argument)).mapError (.unreadable argument)

def Environment.write (env : Environment) (argument text : String) : Except Failure FileTree :=
  (do env.tree.write (← env.path? argument) (utf8 text)).mapError .unwritable

/-- The map in a file, of either form. -/
def Environment.readMap (env : Environment) (argument : String) : Except Failure PositionMap := do
  let text ← env.readText argument
  match Json.parse? text with
  | none => throw .json
  | some v => (PositionMap.ofJson v).mapError .map

/-! ### Commands -/

/-- The configuration file that an invocation names. The option counts before the variable. -/
def Invocation.override (i : Invocation) (env : Environment) : Option String :=
  i.config <|> env.configVariable

def Invocation.project (i : Invocation) (env : Environment) : Except Failure ProjectConfig :=
  (ProjectConfig.load env.tree env.cwd (i.override env) (i.root.map .ofText)).mapError .config

/-- What an invocation warns of, as it is logged. -/
def Invocation.warnings (i : Invocation) (env : Environment) : List String :=
  match i.command with
  | .config | .fingerprint _ =>
    if i.quiet then []
    else ((Config.overrideWarning? env.tree env.cwd (i.override env)).map Shown.log).toList
  | _ => []

/-- A line on the error stream, unless the invocation is quiet. -/
def Invocation.note (i : Invocation) (line : String) : String :=
  if i.quiet then "" else "   " ++ line ++ "\n"

/-- The text of the composed map. -/
def composedText (env : Environment) (intermediate final source : String) :
    Except Failure String := do
  let first ← (SourceMap.ofText (← env.readText intermediate)).mapError (.map ∘ .format)
  let second ← env.readMap final
  let text ← env.readText source
  return (second.through (.ofSourceMap first) ⟨source, text⟩).toJson.text

/-- Carries out an invocation, warnings apart. -/
def Invocation.perform (i : Invocation) (env : Environment) : Except Failure Outcome :=
  match i.command with
  | .config => do
    let project ← i.project env
    return {
      exitCode := 0
      output := project.document.prettyText ++ "\n"
      errors := i.note ("Resolved " ++ project.path.text)
      tree := env.tree }
  | .fingerprint transformer => do
    let project ← i.project env
    return {
      exitCode := 0
      output := Fingerprint.ofOutput transformer project.document ++ "\n"
      tree := env.tree }
  | .compose intermediate final source output => do
    let text ← composedText env intermediate final source
    match output with
    | none => return { exitCode := 0, output := text ++ "\n", tree := env.tree }
    | some file =>
      let tree ← env.write file text
      return { exitCode := 0, errors := i.note ("Wrote " ++ file), tree }
  | .lookup map position => do
    match (← env.readMap map).originIndex.originOf? position with
    | some origin => return { exitCode := 0, output := origin.text ++ "\n", tree := env.tree }
    | none =>
      return { exitCode := 1, errors := "no mapping for " ++ position.text ++ "\n", tree := env.tree }

/-! ### The program -/

def helpText : String := "\n".intercalate [
  "Two-stage source map composition",
  "",
  "Usage: " ++ programName ++ " [OPTIONS] <COMMAND>",
  "",
  "Commands:",
  "  config       Print the resolved configuration with its `extends` chain merged",
  "  fingerprint  Print the transform cache fingerprint",
  "  compose      Compose a stage-2 map with a stage-1 map",
  "  lookup       Translate a generated position through a map",
  "  help         Print this message or the help of the given subcommand(s)",
  "",
  "Options:",
  "  -q, --quiet            Suppress all output except errors",
  "  -v, --verbose          Enable verbose (debug-level) output",
  "      --config <CONFIG>  Path to the `" ++ configFileName ++ "` to use, overriding `" ++
    Provenance.configVariable ++ "`",
  "      --root <ROOT>      Do not search for `" ++ configFileName ++ "` above this directory",
  "  -h, --help             Print help",
  "  -V, --version          Print version",
  ""]

/-- The outcome of a failure: its message on the error stream. -/
def failed (env : Environment) (message : String) : Outcome :=
  { exitCode := 1, errors := "error: " ++ message ++ "\n", tree := env.tree }

/-- What is said of a command line with an error in it. -/
def usageNote (cause : ArgumentError) : String :=
  "error: " ++ cause.message ++ "\n\nFor more information, try '" ++ Terminal.marked "--help" ++
    "'.\n"

/-- The outcome of a command line that is no invocation. -/
def interrupted (env : Environment) : Interruption → Outcome
  | .error cause =>
    { exitCode := 2, errors := Terminal.strip (usageNote cause), tree := env.tree }
  | .help => { exitCode := 0, output := helpText, tree := env.tree }
  | .version =>
    { exitCode := 0, output := programName ++ " " ++ programVersion ++ "\n", tree := env.tree }
  | .nothing => { exitCode := 2, errors := helpText, tree := env.tree }

/-- Runs the program. -/
def run (env : Environment) (arguments : List String) : Outcome :=
  match Invocation.ofArguments arguments with
  | .error e => interrupted env e
  | .ok i =>
    let outcome := match i.perform env with
      | .ok outcome => outcome
      | .error e => failed env e.message
    { outcome with warnings := i.warnings env }

end Provenance.CommandLine
