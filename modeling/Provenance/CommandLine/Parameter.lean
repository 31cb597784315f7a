/-!
# Commands and their parameters

What can be written on a command line: the commands, and for each of them its flags, its options,
which take a value, and its operands, which stand alone. A level of a command line is the program
itself or one of its commands.
-/

namespace Provenance.CommandLine

/-- The name of a command. -/
inductive CommandName where
  | config
  | fingerprint
  | compose
  | lookup
deriving DecidableEq, Repr

/-- The program, or one of its commands. -/
inductive Level where
  | program
  | command (name : CommandName)
deriving DecidableEq, Repr

/-- A flag, an option or an operand. -/
inductive Parameter where
  | quiet
  | verbose
  | help
  | version
  | config
  | root
  | transformer
  | intermediate
  | final
  | source
  | output
  | map
  | position
deriving DecidableEq, Repr

def programName : String := "retrace"

def programVersion : String := "0.1.0"

namespace CommandName

def all : List CommandName := [.config, .fingerprint, .compose, .lookup]

def text : CommandName → String
  | .config => "config"
  | .fingerprint => "fingerprint"
  | .compose => "compose"
  | .lookup => "lookup"

def ofText? (s : String) : Option CommandName := all.find? (·.text = s)

/-- The name under which the others are explained. -/
def help : String := "help"

/-- Whether a name is that of a command or of help. -/
def isTaken (name : String) : Bool := name = help || (ofText? name).isSome

end CommandName

namespace Parameter

/-- The word after two hyphens, for a flag or an option. -/
def long? : Parameter → Option String
  | .quiet => some "quiet"
  | .verbose => some "verbose"
  | .help => some "help"
  | .version => some "version"
  | .config => some "config"
  | .root => some "root"
  | .transformer => some "upstream"
  | .intermediate => some "intermediate"
  | .final => some "final"
  | .source => some "source"
  | .output => some "output"
  | .map | .position => none

/-- The letter after one hyphen, if there is one. -/
def short? : Parameter → Option Char
  | .quiet => some 'q'
  | .verbose => some 'v'
  | .help => some 'h'
  | .version => some 'V'
  | .output => some 'o'
  | _ => none

/-- What messages call the value of an option or an operand. -/
def valueName? : Parameter → Option String
  | .config => some "CONFIG"
  | .root => some "ROOT"
  | .transformer => some "UPSTREAM"
  | .intermediate => some "INTERMEDIATE"
  | .final => some "FINAL_MAP"
  | .source => some "SOURCE"
  | .output => some "OUTPUT"
  | .map => some "MAP"
  | .position => some "POSITION"
  | .quiet | .verbose | .help | .version => none

def takesValue (p : Parameter) : Bool := p.valueName?.isSome

/-- A parameter as messages show it. -/
def shown (p : Parameter) : String :=
  " ".intercalate
    ((p.long?.map ("--" ++ ·)).toList ++ (p.valueName?.map fun v => "<" ++ v ++ ">").toList)

end Parameter

namespace Level

/-- The flags and options of a level. Some are understood everywhere. -/
def named : Level → List Parameter
  | .program => [.quiet, .verbose, .config, .root, .help, .version]
  | .command .config | .command .lookup => [.quiet, .verbose, .config, .root, .help]
  | .command .fingerprint => [.transformer, .quiet, .verbose, .config, .root, .help]
  | .command .compose =>
    [.intermediate, .final, .source, .output, .quiet, .verbose, .config, .root, .help]

/-- The operands of a level, in order. -/
def operands : Level → List Parameter
  | .command .lookup => [.map, .position]
  | _ => []

/-- What must be given at a level. -/
def required : Level → List Parameter
  | .command .compose => [.intermediate, .final, .source]
  | .command .lookup => [.map, .position]
  | _ => []

def ofLong? (level : Level) (name : String) : Option Parameter :=
  level.named.find? (·.long? = some name)

def ofShort? (level : Level) (letter : Char) : Option Parameter :=
  level.named.find? (·.short? = some letter)

end Level

end Provenance.CommandLine
