import Provenance.Diagnostic.MessageChain
import Provenance.SourceFile

/-!
# Diagnostics

What a compiler reports about a file: how severe it is, the message, and where in the text it
arose. The first error of a list stops the compilation of its file and is shown as `rendered`.
-/

namespace Provenance

/-! ### Severity -/

/-- How severe a diagnostic is, from least to most. -/
inductive Severity where
  | message
  | suggestion
  | warning
  | error
deriving DecidableEq, Repr

namespace Severity

def all : List Severity := [.message, .suggestion, .warning, .error]

def name : Severity → String
  | .message => "message"
  | .suggestion => "suggestion"
  | .warning => "warning"
  | .error => "error"

def ofName? (name : String) : Option Severity := all.find? (·.name = name)

def rank : Severity → Nat
  | .message => 0
  | .suggestion => 1
  | .warning => 2
  | .error => 3

def isError (s : Severity) : Bool := s = .error

/-- The more severe of two. -/
def max (a b : Severity) : Severity := if a.rank ≤ b.rank then b else a

end Severity

/-! ### Diagnostics -/

/-- Something a compiler reports. -/
structure Diagnostic where
  severity : Severity
  message : MessageChain
  file : Option SourceFile
  start : Option UInt32

namespace Diagnostic

/-- An error at a character offset of a file. -/
def errorAt (file : SourceFile) (start : UInt32) (text : String) : Diagnostic :=
  ⟨.error, .ofText text, some file, some start⟩

/-- Where the diagnostic arose; without an offset, the start of its file. -/
def location (d : Diagnostic) : Option Location :=
  d.file.map fun file => file.location (d.start.getD 0).toNat

/-- The diagnostic as the text that stops a compilation. -/
def rendered (d : Diagnostic) : String :=
  match d.location with
  | some location => location.text ++ ": " ++ d.message.flatten "\n"
  | none => d.message.flatten "\n"

/-- The first error of a list. -/
def firstError? (ds : List Diagnostic) : Option Diagnostic := ds.find? (·.severity.isError)

/-- The greatest severity of a list. -/
def mostSevere? : List Diagnostic → Option Severity
  | [] => none
  | d :: ds => some (ds.foldl (fun s d => s.max d.severity) d.severity)

end Diagnostic

end Provenance
