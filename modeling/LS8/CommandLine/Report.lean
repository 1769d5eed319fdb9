import LS8.CommandLine.Arguments
import LS8.Files

/-!
# The command

Running the command gives a report: an exit code and the texts for the two
output streams.  Trace lines stand on the error stream before any error.
-/

namespace LS8
namespace CommandLine

/-- How the command ends. -/
inductive Exit where
  | success
  /-- The arguments were not accepted. -/
  | usage
  /-- Nothing was found at the path. -/
  | notFound
  /-- The program could not be read or loaded, or it failed. -/
  | failure
  deriving DecidableEq, Repr

/-- The number of an exit. -/
def Exit.code : Exit → UInt32
  | .success => 0
  | .usage => 1
  | .notFound => 2
  | .failure => 3

/-- What the command leaves behind. -/
structure Report where
  exit : Exit
  stdout : String
  stderr : String
  deriving DecidableEq, Repr

/-- The help text. -/
def helpText : String :=
  "LS-8 emulator\n" ++
  "\n" ++
  "Usage: ls8 [OPTIONS] <PROGRAM>\n" ++
  "\n" ++
  "Arguments:\n" ++
  "  <PROGRAM>  Program to run, one binary byte per line\n" ++
  "\n" ++
  "Options:\n" ++
  "      --trace                  Print machine state to stderr before every instruction\n" ++
  "      --max-steps <MAX_STEPS>  Stop with an error after this many instructions\n" ++
  "      --strict                 Treat unknown opcodes as a fatal error instead of stalling on them\n" ++
  "  -h, --help                   Print help\n"

/-- The text of a usage error. -/
def usageText (error : UsageError) : String :=
  "error: " ++ error.message ++ "\n\nUsage: ls8 [OPTIONS] <PROGRAM>\n"

/-- The report on arguments that are not accepted. -/
def usageReport (error : UsageError) : Report :=
  ⟨.usage, "", usageText error⟩

/-- The report with the help text. -/
def helpReport : Report :=
  ⟨.success, helpText, ""⟩

/-- The text of a failure with its cause. -/
def failureText (failure cause : String) : String :=
  failure ++ "\n\nCaused by:\n    " ++ cause ++ "\n"

/-- Each line with a line feed behind it. -/
def unlines (lines : List String) : String :=
  String.join (lines.map (· ++ "\n"))

/-- The report on a program that was not loaded. -/
def loadReport (path : String) (error : LoadError) : Report :=
  match error with
  | .notFound _ => ⟨.notFound, "", error.message ++ "\n"⟩
  | .unreadable cause => ⟨.failure, "", failureText error.message cause.message⟩
  | .imageTooLarge _ =>
      ⟨.failure, "", failureText ("loading " ++ path) error.message⟩

/-- The cause of failure of a run that did not end with a halt. -/
def runFailure? : Outcome → Option String
  | .halted _ => none
  | .failed error => some error.message
  | .endless => some "program never halts"

/-- The report on a run. -/
def runReport (path : String) (session : Session) (outcome : Outcome) : Report :=
  let trace := unlines session.trace.toList
  match runFailure? outcome with
  | none => ⟨.success, session.sink.written, trace⟩
  | some cause =>
      { exit := .failure
        stdout := session.sink.written
        stderr := trace ++ failureText ("running " ++ path) cause }

/-- A session with a program that is ready to run. -/
def prepare (files : FileSystem) (request : Request) :
    Except LoadError Session := do
  let image ← Program.ofPath files request.path
  (Session.start request.configuration .unbounded).load image

/-- Carry out a request. -/
def execute (files : FileSystem) (request : Request) : Report :=
  match prepare files request with
  | .error error => loadReport request.path error
  | .ok session => runReport request.path session.run.1 session.run.2

/-- Run the command. -/
def invoke (files : FileSystem) (arguments : List String) : Report :=
  match read arguments with
  | .error error => usageReport error
  | .ok .help => helpReport
  | .ok (.execute request) => execute files request

end CommandLine
end LS8
