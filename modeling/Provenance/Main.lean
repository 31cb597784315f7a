import Provenance.CommandLine.Run
import Provenance.Config.Footprint

/-!
# The program

The outer layer: it reads the files that a command line may look at, runs the command line, and
writes what it leaves. Files are read round by round, for what one file says tells which are
looked at next.
-/

namespace Provenance.CommandLine

/-- The paths that an invocation may look at. -/
def Invocation.paths (i : Invocation) (env : Environment) : List Path :=
  let named (arguments : List String) := arguments.map fun a => env.cwd.join (.ofText a)
  match i.command with
  | .config | .fingerprint _ =>
    Config.projectPaths env.tree env.cwd (i.override env) (i.root.map .ofText)
  | .compose intermediate final source output =>
    named ([intermediate, final, source] ++ output.toList)
  | .lookup map _ => named [map]

/-- The places on the way that segments lead from a place, both ends included. -/
def placesFrom (place : Place) : (segments : List String) → List Place
  | [] => [place]
  | segment :: rest =>
    let next := if segment = ".." then place.dropLast
      else if Path.leads segment then place ++ [segment]
      else place
    place :: placesFrom next rest

/-- What stands at a place among the files of the machine. -/
def look (place : Place) : IO (Option Entry) := do
  let path := (← IO.currentDir) / place.path.text
  if ← path.isDir then return some .directory
  let .ok content ← (IO.FS.readBinFile path).toBaseIO | return none
  return some (.file content.toList)

/-- The environment with all that an invocation may look at. -/
def gather (i : Invocation) (start : Environment) : IO Environment := do
  let mut env := start
  let mut looked : List Place := []
  repeat
    let places := (i.paths env).flatMap fun p => placesFrom [] p.segments
    let new := places.eraseDups.filter (!looked.contains ·)
    if new.isEmpty then break
    for place in new do
      if let some entry ← look place then
        env := { env with tree := env.tree.insert place entry }
    looked := looked ++ new
  return env

/-- Writes the files that a run changed. -/
def save (before after : FileTree) : IO Unit := do
  for (place, entry) in after.entries do
    if let .file content := entry then
      if before.entry? place ≠ some entry then
        IO.FS.writeBinFile place.path.text ⟨content.toArray⟩

/-- Runs a command line on the files of the machine. -/
def execute (arguments : List String) : IO UInt32 := do
  let cwd := Path.ofText (← IO.currentDir).toString
  let start : Environment := ⟨.empty, cwd, ← IO.getEnv Provenance.configVariable⟩
  let env ← match Invocation.ofArguments arguments with
    | .ok i => gather i start
    | .error _ => pure start
  let outcome := run env arguments
  save env.tree outcome.tree
  for warning in outcome.warnings do
    IO.eprintln ("WARN " ++ warning)
  IO.eprint outcome.errors
  IO.print outcome.output
  return outcome.exitCode.toUInt32

end Provenance.CommandLine

def main (arguments : List String) : IO UInt32 := Provenance.CommandLine.execute arguments
