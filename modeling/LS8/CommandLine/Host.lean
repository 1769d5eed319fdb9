import LS8.CommandLine.Report

/-!
# Hosts

The command looks up the path of the program at its host and hands it the texts for
the two output streams.  A run is carried out in slices, so that what a program
writes is seen while it still runs.
-/

namespace LS8

/-- The session with nothing written and nothing recorded. -/
def Session.cleared (session : Session) : Session :=
  { session with
    sink := { session.sink with written := "" }
    trace := #[] }

namespace CommandLine

/-- What the command asks of the system that it runs on. -/
structure Host (m : Type → Type) where
  /-- Look up a path. -/
  find : String → m Finding
  /-- Show texts on the two output streams. -/
  display : (stdout stderr : String) → m Unit

/-- The most steps of a run before its output is shown. -/
def sliceLength : Nat := 4096

namespace Host

variable {m : Type → Type} [Monad m] (host : Host m)

/-- Show what a session has written and recorded. -/
def displayRecord (session : Session) : m Unit :=
  host.display session.sink.written (unlines session.trace.toList)

/-- Let a session run under an allowance, counting on from the steps already taken,
and show the output of each slice but the last, which is left in the session. -/
@[specialize]
def runFrom (allowance cycles : Nat) (session : Session) : m Run := do
  let slice := session.runFrom (min allowance sliceLength) cycles
  if sliceLength < allowance ∧ slice.ending = .exhausted then
    host.displayRecord slice.session
    runFrom (allowance - sliceLength) slice.cycles slice.session.cleared
  else
    return slice
termination_by allowance
decreasing_by
  simp only [sliceLength] at *
  omega

/-- Carry out a request on what is found at its path. -/
@[specialize]
def execute (request : Request) : m Report := do
  let finding ← host.find request.path
  match prepare (fun _ => finding) request with
  | .error error => return loadReport request.path error
  | .ok session =>
      let run ← host.runFrom session.allowance 0 session
      return runReport request.path run.session
        (run.outcome session.configuration.limit)

/-- Show a report and hand out its exit code. -/
def deliver (report : Report) : m UInt32 := do
  host.display report.stdout report.stderr
  return report.exit.code

/-- Run the command. -/
@[specialize]
def command (arguments : List String) : m UInt32 := do
  match read arguments with
  | .error error => host.deliver (usageReport error)
  | .ok .help => host.deliver helpReport
  | .ok (.execute request) => host.deliver (← host.execute request)

end Host
end CommandLine
end LS8
