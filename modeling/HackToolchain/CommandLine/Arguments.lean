import HackToolchain.Project.Run

/-!
# Arguments

The arguments of the command are read from left to right.  Options may stand
anywhere before `--`; a value follows its option as the next argument or is
attached to it.  Whatever is wrong first decides, and so does a request for
help or for the version.

This is the outer layer of the program: the theorems are about the runs that
arguments ask for, however they were written.
-/

namespace HackToolchain.CommandLine

open HackToolchain.Files HackToolchain.Project

/-- The options that take a value. -/
inductive Setting where
  | output
  | entry
  deriving DecidableEq, Repr

/-- The options that are either given or not. -/
inductive Switch where
  | noBootstrap
  | noComments
  | verbose
  deriving DecidableEq, Repr

/-- Why the reading of arguments ends early. -/
inductive Stop where
  | misuse
  | help
  | version
  deriving DecidableEq, Repr

/-- What the arguments have said so far. -/
structure Arguments where
  input : Option String
  output : Option String
  entry : Option String
  noBootstrap : Bool
  noComments : Bool
  verbose : Bool
  deriving DecidableEq, Repr

namespace Arguments

def initial : Arguments :=
  ⟨none, none, none, false, false, false⟩

/-- Take the input; there is only one, and it is not empty. -/
def setInput (value : String) (arguments : Arguments) : Except Stop Arguments :=
  if arguments.input.isSome || value.isEmpty then .error .misuse
  else .ok { arguments with input := some value }

/-- Take the value of a setting, which is given at most once; a path is not empty. -/
def set (setting : Setting) (value : String) (arguments : Arguments) : Except Stop Arguments :=
  match setting with
  | .output =>
      if arguments.output.isSome || value.isEmpty then .error .misuse
      else .ok { arguments with output := some value }
  | .entry =>
      if arguments.entry.isSome then .error .misuse
      else .ok { arguments with entry := some value }

def turnOn (switch : Switch) (arguments : Arguments) : Except Stop Arguments :=
  match switch with
  | .noBootstrap =>
      if arguments.noBootstrap then .error .misuse
      else .ok { arguments with noBootstrap := true }
  | .noComments =>
      if arguments.noComments then .error .misuse
      else .ok { arguments with noComments := true }
  | .verbose =>
      if arguments.verbose then .error .misuse
      else .ok { arguments with verbose := true }

/-- What the arguments have said, and the setting whose value comes next. -/
abbrev Step := Except Stop (Arguments × Option Setting)

/-- A step after which no value is due. -/
def settled (result : Except Stop Arguments) : Step :=
  result.map fun arguments => (arguments, none)

/-- Read the letters after a single dash; a value may be attached to the last of them. -/
def readLetters : List Char → Arguments → Step
  | [], arguments => .ok (arguments, none)
  | ['o'], arguments => .ok (arguments, some .output)
  | 'o' :: '=' :: value, arguments => settled (arguments.set .output (String.ofList value))
  | 'o' :: value, arguments => settled (arguments.set .output (String.ofList value))
  | 'v' :: rest, arguments =>
      match arguments.turnOn .verbose with
      | .ok arguments => readLetters rest arguments
      | .error stop => .error stop
  | 'h' :: _, _ => .error .help
  | 'V' :: _, _ => .error .version
  | _ :: _, _ => .error .misuse

/-- Read the name after two dashes, with the value attached to it. -/
def readName (name : String) (value : Option String) (arguments : Arguments) : Step :=
  match name, value with
  | "output", none => .ok (arguments, some .output)
  | "output", some value => settled (arguments.set .output value)
  | "entry", none => .ok (arguments, some .entry)
  | "entry", some value => settled (arguments.set .entry value)
  | "no-bootstrap", none => settled (arguments.turnOn .noBootstrap)
  | "no-comments", none => settled (arguments.turnOn .noComments)
  | "verbose", none => settled (arguments.turnOn .verbose)
  | "help", none => .error .help
  | "version", none => .error .version
  | _, _ => .error .misuse

/-- Read what follows two dashes: a name, and after an equals sign its value. -/
def readLong (text : List Char) (arguments : Arguments) : Step :=
  match text.span (· != '=') with
  | (name, []) => readName (String.ofList name) none arguments
  | (name, _ :: value) => readName (String.ofList name) (some (String.ofList value)) arguments

/-- Read an argument where no value is due. -/
def readOne (argument : String) (arguments : Arguments) : Step :=
  match argument.toList with
  | '-' :: '-' :: text => readLong text arguments
  | '-' :: letter :: rest => readLetters (letter :: rest) arguments
  | _ => settled (arguments.setInput argument)

/-- Read arguments that cannot be options. -/
def readInputs (arguments : Arguments) : List String → Except Stop Arguments
  | [] => .ok arguments
  | argument :: rest =>
      match arguments.setInput argument with
      | .ok arguments => arguments.readInputs rest
      | .error stop => .error stop

/-- An argument that is no value of the option before it. -/
def isOption (argument : String) : Bool :=
  argument != "-" && argument.toList.head? == some '-'

/-- Read arguments while a value may be due. -/
def readAll (arguments : Arguments) : List String → Option Setting → Except Stop Arguments
  | [], none => .ok arguments
  | [], some _ => .error .misuse
  | argument :: rest, some setting =>
      if isOption argument then .error .misuse
      else
        match arguments.set setting argument with
        | .ok arguments => arguments.readAll rest none
        | .error stop => .error stop
  | argument :: rest, none =>
      if argument = "--" then arguments.readInputs rest
      else
        match arguments.readOne argument with
        | .ok (arguments, due) => arguments.readAll rest due
        | .error stop => .error stop

/-- The entry function when none is given. -/
def defaultEntry : String := "Sys.init"

/-- The configuration that arguments with this input ask for. -/
def configuration (arguments : Arguments) (input : String) : Configuration where
  input := ⟨input⟩
  output := arguments.output.map FilePath.mk
  bootstrap := !arguments.noBootstrap
  entry := arguments.entry.getD defaultEntry
  annotate := !arguments.noComments

end Arguments

/-- A run that is asked for. -/
structure Request where
  configuration : Configuration
  verbose : Bool
  deriving DecidableEq, Repr

/-- The run that a list of arguments asks for. -/
def readArguments (arguments : List String) : Except Stop Request :=
  match Arguments.initial.readAll arguments none with
  | .error stop => .error stop
  | .ok read =>
      match read.input with
      | none => .error .misuse
      | some input => .ok ⟨read.configuration input, read.verbose⟩

end HackToolchain.CommandLine
