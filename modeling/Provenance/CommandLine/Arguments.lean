import Provenance.CommandLine.Parameter
import Provenance.CommandLine.PositionText
import Provenance.Text.Terminal

/-!
# Reading arguments

Arguments are read from left to right, first those of the program and then, after its name, those
of a command. The value of an option may stand in the next argument, so what an argument gives is
settled only when the next one is known. `Invocation.ofArguments` is the whole command line.
-/

namespace Provenance.CommandLine

/-! ### Errors -/

/-- Why a command line is not understood. -/
inductive ArgumentError where
  | unexpected (argument : String)
  | unknownCommand (name : String)
  | noCommand
  | noValue (parameter : Parameter)
  | extraValue (parameter : Parameter) (value : String)
  | repeated (parameter : Parameter)
  | badPosition (value : String) (cause : PositionError)
  | notGiven (parameters : List Parameter)
deriving DecidableEq, Repr

/-- The wording of an error. What was given is set off. -/
def ArgumentError.message : ArgumentError → String
  | .unexpected argument => "unexpected argument '" ++ Terminal.marked argument ++ "' found"
  | .unknownCommand name => "unrecognized subcommand '" ++ Terminal.marked name ++ "'"
  | .noCommand => "'" ++ programName ++ "' requires a subcommand but one was not provided"
  | .noValue p => "a value is required for '" ++ p.shown ++ "' but none was supplied"
  | .extraValue p value =>
    "unexpected value '" ++ Terminal.marked value ++ "' for '" ++ p.shown ++ "' found; no more were expected"
  | .repeated p => "the argument '" ++ p.shown ++ "' cannot be used multiple times"
  | .badPosition value cause =>
    "invalid value '" ++ Terminal.marked value ++ "' for '" ++ Parameter.position.shown ++ "': " ++ cause.message
  | .notGiven ps =>
    "\n  ".intercalate ("the following required arguments were not provided:" :: ps.map (·.shown))

/-- Why the reading of a command line ends early. -/
inductive Interruption where
  | error (cause : ArgumentError)
  | help
  | version
  /-- Nothing at all was asked for. -/
  | nothing
deriving DecidableEq, Repr

/-! ### Settling -/

/-- What was read of a level: the parameters given, the one that is not settled with its value if
it has one, how many operands came, and whether only operands can come. -/
structure Reading where
  given : List (Parameter × String) := []
  pending : Option (Parameter × Option String) := none
  operands : Nat := 0
  onlyOperands : Bool := false
deriving DecidableEq, Repr

namespace Reading

def value? (r : Reading) (p : Parameter) : Option String := r.given.lookup p

/-- Whether the value of an option is still to come. -/
def awaits (r : Reading) : Bool :=
  match r.pending with
  | some (_, none) => true
  | _ => false

/-- Checks the value of a parameter. -/
def checkValue (p : Parameter) (value : String) : Except ArgumentError Unit :=
  match p with
  | .root => if value.isEmpty then .error (.noValue .root) else .ok ()
  | .position =>
    match positionOf value with
    | .ok _ => .ok ()
    | .error e => .error (.badPosition value e)
  | _ => .ok ()

/-- Takes in a parameter with its value. -/
def take (r : Reading) (p : Parameter) (value : String) : Except ArgumentError Reading := do
  if (r.value? p).isSome then throw (.repeated p)
  checkValue p value
  return { r with given := (p, value) :: r.given }

/-- Takes in what is pending. -/
def settle (r : Reading) : Except ArgumentError Reading :=
  match r.pending with
  | none => .ok r
  | some (p, none) => .error (.noValue p)
  | some (p, some value) => take { r with pending := none } p value

/-- Settles, and takes in an option with its value. -/
def takeOption (r : Reading) (p : Parameter) (value : String) : Except Interruption Reading :=
  (do (← r.settle).take p value).mapError .error

/-- Settles, and leaves a parameter pending. -/
def postpone (r : Reading) (p : Parameter) (value : Option String) : Except Interruption Reading :=
  match r.settle with
  | .error e => .error (.error e)
  | .ok r => .ok { r with pending := some (p, value) }

/-- Settles, and takes in a flag. -/
def takeFlag (r : Reading) (p : Parameter) : Except Interruption Reading :=
  match r.settle with
  | .error e => .error (.error e)
  | .ok r =>
    match p with
    | .help => .error .help
    | .version => .error .version
    | p => (r.take p "").mapError .error

/-! ### Arguments -/

/-- Reads an argument of two hyphens, given without them. A value may follow an equals sign. -/
def readLong (level : Level) (r : Reading) (argument : List Char) :
    Except Interruption Reading :=
  let name := String.ofList (argument.takeWhile (· ≠ '='))
  match level.ofLong? name, argument.dropWhile (· ≠ '=') with
  | none, _ => .error (.error (.unexpected ("--" ++ name)))
  | some p, [] => if p.takesValue then r.postpone p none else r.takeFlag p
  | some p, _ :: value =>
    if p.takesValue then r.takeOption p (.ofList value)
    else .error (.error (.extraValue p (.ofList value)))

/-- Reads the letters after one hyphen. What follows the letter of an option is its value. -/
def readShort (level : Level) (r : Reading) : (letters : List Char) → Except Interruption Reading
  | [] => .ok r
  | c :: rest =>
    match level.ofShort? c with
    | none => .error (.error (.unexpected ("-" ++ c.toString)))
    | some p =>
      if !p.takesValue then
        match r.takeFlag p with
        | .error e => .error e
        | .ok r => readShort level r rest
      else match rest with
        | [] => r.postpone p none
        | '=' :: value => r.takeOption p (.ofList value)
        | value => r.takeOption p (.ofList value)

/-- Reads an operand. -/
def readOperand (level : Level) (r : Reading) (argument : String) : Except Interruption Reading :=
  match level.operands[r.operands]? with
  | some p => { r with operands := r.operands + 1 }.postpone p (some argument)
  | none =>
    let isCommand := r.onlyOperands && CommandName.isTaken argument
    if level = .program && !isCommand then .error (.error (.unknownCommand argument))
    else .error (.error (.unexpected argument))

/-- Reads an argument that names no command. -/
def read (level : Level) (r : Reading) (argument : String) : Except Interruption Reading :=
  if r.onlyOperands then r.readOperand level argument
  else match argument.toList with
    | ['-', '-'] => .ok { r with onlyOperands := true }
    | '-' :: '-' :: long => r.readLong level long
    | '-' :: c :: letters => r.readShort level (c :: letters)
    | _ =>
      match r.pending with
      | some (p, none) => .ok { r with pending := some (p, some argument) }
      | _ => r.readOperand level argument

/-- The end of a level's arguments. -/
def finish (level : Level) (r : Reading) : Except Interruption Reading := do
  let r ← r.settle.mapError .error
  match level.required.filter fun p => (r.value? p).isNone with
  | [] => return r
  | missing => throw (.error (.notGiven missing))

/-- Reads the arguments of a command. -/
def readAll (level : Level) (r : Reading) : List String → Except Interruption Reading
  | [] => r.finish level
  | argument :: rest =>
    match r.read level argument with
    | .error e => .error e
    | .ok r => readAll level r rest

end Reading

/-! ### Invocations -/

/-- What a command line asks for. -/
inductive Command where
  | config
  | fingerprint (transformer : Option String)
  | compose (intermediate final source : String) (output : Option String)
  | lookup (map : String) (position : Position)
deriving DecidableEq, Repr

/-- A command with the settings that all commands have. -/
structure Invocation where
  quiet : Bool
  config : Option String
  root : Option String
  command : Command
deriving DecidableEq, Repr

namespace Invocation

/-- The command that a level was asked for. The parameters it requires are there. -/
def commandOf (name : CommandName) (r : Reading) : Command :=
  let value (p : Parameter) : String := (r.value? p).getD ""
  match name with
  | .config => .config
  | .fingerprint => .fingerprint (r.value? .transformer)
  | .compose =>
    .compose (value .intermediate) (value .final) (value .source) (r.value? .output)
  | .lookup => .lookup (value .map) ((positionOf (value .position)).toOption.getD ⟨1, 0⟩)

/-- The invocation of a command. Where a setting is given twice, the one after the command's name
counts. -/
def of (program : Reading) (name : CommandName) (command : Reading) : Invocation where
  quiet := (program.value? .quiet).isSome || (command.value? .quiet).isSome
  config := command.value? .config <|> program.value? .config
  root := command.value? .root <|> program.value? .root
  command := commandOf name command

/-- Reads the names after a request for help. -/
def helpOn : List String → Interruption
  | [] => .help
  | [name] =>
    if CommandName.isTaken name then .help
    else .error (.unknownCommand name)
  | name :: extra :: _ =>
    if CommandName.isTaken name then .error (.unknownCommand extra)
    else .error (.unknownCommand name)

/-- Reads the arguments of the program, up to the name of a command, and those of the command. -/
def ofReading (r : Reading) : List String → Except Interruption Invocation
  | [] =>
    match r.settle with
    | .error e => .error (.error e)
    | .ok r => .error (if r.given.isEmpty then .nothing else .error .noCommand)
  | argument :: rest =>
    let beforeCommand := !r.onlyOperands && !r.awaits
    if beforeCommand && argument = CommandName.help then .error (helpOn rest)
    else match if beforeCommand then CommandName.ofText? argument else none with
      | some name => do
        let command ← Reading.readAll (.command name) {} rest
        let program ← r.settle.mapError .error
        return of program name command
      | none =>
        match r.read .program argument with
        | .error e => .error e
        | .ok r => ofReading r rest

/-- What a command line asks for. -/
def ofArguments (arguments : List String) : Except Interruption Invocation :=
  ofReading {} arguments

end Invocation

end Provenance.CommandLine
