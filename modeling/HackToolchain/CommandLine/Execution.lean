import HackToolchain.CommandLine.Arguments
import HackToolchain.Log.Filter

/-!
# Executions of the command

An execution reads the arguments, runs what they ask for, and says what is
printed, with which code the command ends and what the files are then.
-/

namespace HackToolchain.CommandLine

open HackToolchain.Files HackToolchain.Project

def versionText : String := "hackvm 0.1.0\n"

def usageLine : String := "Usage: hackvm [OPTIONS] <INPUT>\n"

def helpText : String :=
  "Hack VM to Hack assembly translator\n" ++
  "\n" ++
  usageLine ++
  "\n" ++
  "Arguments:\n" ++
  "  <INPUT>  A .vm file, or a directory translated into one combined program\n" ++
  "\n" ++
  "Options:\n" ++
  "  -o, --output <OUTPUT>  Output file (default: `X.asm` beside `X.vm`, or `Dir/Dir.asm`)\n" ++
  "      --no-bootstrap     Omit the bootstrap code when translating a single file\n" ++
  "      --entry <ENTRY>    Function the bootstrap code calls [default: Sys.init]\n" ++
  "      --no-comments      Don't echo each VM command as a comment\n" ++
  "  -v, --verbose          Log each unit as it is translated\n" ++
  "  -h, --help             Print help\n" ++
  "  -V, --version          Print version\n"

def misuseText : String :=
  "error: invalid arguments\n\n" ++ usageLine ++ "\nFor more information, try '--help'.\n"

/-- What an execution prints and leaves behind. -/
structure Execution where
  /-- The code the command ends with. -/
  code : UInt8
  /-- The text on standard output. -/
  output : String
  /-- The text on standard error. -/
  errors : String
  files : FileSystem

/-- The written filter when the environment has none. -/
def defaultFilter (verbose : Bool) : String :=
  if verbose then "debug" else "warn"

/-- The record of a whole run. -/
def totalRecord (report : Report) : Log.Record :=
  let commands := report.summaries.foldl (fun total summary => total + summary.commands) 0
  ⟨.info, .program,
    toString report.summaries.length ++ " units, " ++ toString commands ++ " commands -> " ++
      report.output.text⟩

/-- Lines with their line feeds. -/
def unlines (lines : List String) : String :=
  String.join (lines.map (· ++ "\n"))

/-- Run a request with a written log filter. -/
def perform (request : Request) (filterText : String) (files : FileSystem) : Execution :=
  let written := Log.WrittenFilter.ofText filterText
  let outcome := run request.configuration files
  let (code, log, last) :=
    match outcome.result with
    | .ok report => ((0 : UInt8), outcome.log ++ [totalRecord report], [])
    | .error failure => (1, outcome.log, ["error: " ++ failure.message])
  let complaints := unlines (written.faults.map Log.FilterFault.message)
  let shown := String.join ((log.filter written.filter.keeps).map Log.Record.printed)
  ⟨code, "", complaints ++ shown ++ unlines last, outcome.files⟩

/-- Execute the command, given its arguments and the log filter of the environment. -/
def execute (arguments : List String) (environmentFilter : Option String) (files : FileSystem) :
    Execution :=
  match readArguments arguments with
  | .error .misuse => ⟨2, "", misuseText, files⟩
  | .error .help => ⟨0, helpText, "", files⟩
  | .error .version => ⟨0, versionText, "", files⟩
  | .ok request =>
      perform request (environmentFilter.getD (defaultFilter request.verbose)) files

end HackToolchain.CommandLine
