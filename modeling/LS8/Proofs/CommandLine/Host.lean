import LS8.CommandLine.Host
import LS8.Proofs.CommandLine.Report
import LS8.Proofs.ResetSessions

/-!
# What hosts are shown

A run in slices shows its output piece by piece.  To a host that joins what it is
shown this is the same as the report, shown at once when the run has ended: the
command looks up the path of the program, shows the report and hands out its exit
code.
-/

namespace LS8

section Behind

variable (run : Run) (past : Record)

@[simp] theorem Run.session_behind :
    (run.behind past).session = run.session.behind past := rfl

@[simp] theorem Run.outcome_behind (limit : Option Nat) :
    (run.behind past).outcome limit = run.outcome limit := rfl

end Behind

namespace Session

variable (session : Session)

/-- The record is all that clearing a session takes away. -/
theorem cleared_behind_record : session.cleared.behind session.record = session := by
  obtain ⟨configuration, machine, ⟨written, room⟩, trace⟩ := session
  simp [cleared, behind, record, Sink.behind]

theorem runFrom_behind (past : Record) (allowance cycles : Nat) :
    runFrom allowance cycles (session.behind past) =
      (runFrom allowance cycles session).behind past := by
  rw [runFrom_eq_runFor, runFor_behind, runFrom_eq_runFor session]
  rfl

section Slices

variable {session} {length allowance cycles : Nat}

/-- A run whose first slice uses up its steps goes on from a cleared session. -/
theorem runFrom_of_slice_exhausted
    (length_le : length ≤ allowance)
    (exhausted : (runFrom length cycles session).ending = .exhausted) :
    runFrom allowance cycles session =
      (runFrom (allowance - length) (runFrom length cycles session).cycles
        (runFrom length cycles session).session.cleared).behind
        (runFrom length cycles session).session.record := by
  rw [← runFrom_behind, cleared_behind_record,
    ← runFrom_add_of_exhausted exhausted, Nat.add_sub_of_le length_le]

/-- A run that comes to its end in its first slice is that slice. -/
theorem runFrom_of_slice_last
    (last :
      ¬(length < allowance ∧
        (runFrom (min allowance length) cycles session).ending = .exhausted)) :
    runFrom allowance cycles session =
      runFrom (min allowance length) cycles session := by
  rcases Nat.lt_or_ge length allowance with longer | allowance_le
  · have length_le : length ≤ allowance := Nat.le_of_lt longer
    rw [Nat.min_eq_right length_le] at last ⊢
    exact runFrom_eq_of_ended (fun exhausted => last ⟨longer, exhausted⟩) length_le
  · rw [Nat.min_eq_left allowance_le]

end Slices

end Session

namespace CommandLine

theorem unlines_append (lines others : List String) :
    unlines (lines ++ others) = unlines lines ++ unlines others := by
  rw [unlines, List.map_append, String.join_append]
  rfl

/-- The report with a record in front of its texts. -/
def Report.behind (report : Report) (past : Record) : Report :=
  { report with
    stdout := past.written ++ report.stdout
    stderr := unlines past.trace.toList ++ report.stderr }

/-- What a run has already shown stands in front of the report on its rest. -/
theorem runReport_behind
    (path : String)
    (session : Session)
    (past : Record)
    (outcome : Outcome) :
    runReport path (session.behind past) outcome =
      (runReport path session outcome).behind past := by
  have trace_eq :
      unlines (session.behind past).trace.toList =
        unlines past.trace.toList ++ unlines session.trace.toList := by
    rw [← unlines_append, ← Array.toList_append]
    rfl
  unfold runReport
  rw [trace_eq]
  cases runFailure? outcome with
  | none => rfl
  | some cause =>
      simp only [Report.behind, String.append_assoc]
      rfl

/-- What is found at other paths has no part in the report on a request. -/
theorem execute_congr
    {files others : FileSystem}
    {request : Request}
    (found_eq : files request.path = others request.path) :
    execute files request = execute others request := by
  have loaded_eq :
      Program.ofPath files request.path = Program.ofPath others request.path := by
    rw [Program.ofPath, Program.ofPath, found_eq]
  rw [execute, execute, prepare, prepare, loaded_eq]

namespace Host

variable {m : Type → Type} [Monad m]

/-- Texts shown one after the other are shown as one text. -/
def Joins (host : Host m) : Prop :=
  ∀ stdout stderr laterStdout laterStderr,
    (do
      host.display stdout stderr
      host.display laterStdout laterStderr) =
      host.display (stdout ++ laterStdout) (stderr ++ laterStderr)

section Refused

variable (host : Host m) {arguments : List String}

/-- Arguments that are not accepted are answered without a look-up. -/
theorem command_of_refused
    {error : UsageError}
    (refused : read arguments = .error error) :
    host.command arguments = host.deliver (usageReport error) := by
  rw [command, refused]

theorem command_of_help (accepted : read arguments = .ok .help) :
    host.command arguments = host.deliver helpReport := by
  rw [command, accepted]

end Refused

section Joining

variable [LawfulMonad m] {host : Host m} (joins : host.Joins)

include joins

/-- A record shown in front of a report is shown with it. -/
theorem displayRecord_deliver (session : Session) (report : Report) :
    (do
      host.displayRecord session
      host.deliver report) =
      host.deliver (report.behind session.record) := by
  rw [deliver, deliver, displayRecord, ← bind_assoc, joins]
  rfl

/-- The report on a run in slices is the one on the whole run. -/
theorem runFrom_deliver
    (path : String)
    (limit : Option Nat)
    (allowance cycles : Nat)
    (session : Session) :
    (do
      let run ← host.runFrom allowance cycles session
      host.deliver (runReport path run.session (run.outcome limit))) =
      host.deliver
        (runReport path (session.runFrom allowance cycles).session
          ((session.runFrom allowance cycles).outcome limit)) := by
  induction allowance using Nat.strongRecOn generalizing cycles session with
  | ind allowance inductionHypothesis =>
      rw [Host.runFrom]
      have positive : 0 < sliceLength := by decide
      -- Its value would have the unifier count down from the allowance.
      generalize sliceLength = length at positive ⊢
      split
      case isTrue more =>
        obtain ⟨longer, exhausted⟩ := more
        have length_le : length ≤ allowance := Nat.le_of_lt longer
        rw [Nat.min_eq_right length_le] at exhausted ⊢
        have shorter : allowance - length < allowance :=
          Nat.sub_lt (Nat.zero_lt_of_lt longer) positive
        rw [bind_assoc]
        simp only [inductionHypothesis _ shorter]
        rw [displayRecord_deliver joins, ← runReport_behind,
          Session.runFrom_of_slice_exhausted length_le exhausted,
          Run.session_behind, Run.outcome_behind]
      case isFalse last =>
        rw [Session.runFrom_of_slice_last last, pure_bind]

/-- Accepted arguments lead to one look-up, and to the report on what it finds. -/
theorem command_of_accepted
    {arguments : List String}
    {request : Request}
    (accepted : read arguments = .ok (.execute request)) :
    host.command arguments = (do
      let finding ← host.find request.path
      host.deliver (CommandLine.execute (fun _ => finding) request)) := by
  rw [command, accepted]
  dsimp only
  rw [Host.execute, bind_assoc]
  congr 1
  funext finding
  rw [CommandLine.execute]
  cases prepare (fun _ => finding) request with
  | error error => rw [pure_bind]
  | ok session =>
      simp only [bind_assoc, pure_bind]
      exact runFrom_deliver joins _ _ _ _ _

end Joining

end Host

/-- What a host was asked and what it was shown. -/
structure Log where
  /-- The paths that were looked up. -/
  paths : List String
  stdout : String
  stderr : String
  deriving DecidableEq, Repr

/-- A host that finds what is in a file system, and keeps a log. -/
def Host.recording (files : FileSystem) : Host (StateM Log) where
  find path := fun log =>
    (files path, { log with paths := log.paths ++ [path] })
  display stdout stderr := fun log =>
    ((), { log with stdout := log.stdout ++ stdout, stderr := log.stderr ++ stderr })

theorem Host.joins_recording (files : FileSystem) : (recording files).Joins := by
  intro stdout stderr laterStdout laterStderr
  funext log
  simp only [recording, ← String.append_assoc]
  rfl

theorem Host.deliver_recording (files : FileSystem) (report : Report) (log : Log) :
    (recording files).deliver report log =
      (report.exit.code,
        { paths := log.paths
          stdout := log.stdout ++ report.stdout
          stderr := log.stderr ++ report.stderr }) := rfl

/-- The paths that the arguments ask to look up. -/
def requestedPaths (arguments : List String) : List String :=
  match read arguments with
  | .ok (.execute request) => [request.path]
  | _ => []

/-- The log of the command is the report that its arguments have on the files, and
the exit code is that of the report. -/
theorem command_recording
    (files : FileSystem)
    (arguments : List String)
    (log : Log) :
    (Host.recording files).command arguments log =
      ((invoke files arguments).exit.code,
        { paths := log.paths ++ requestedPaths arguments
          stdout := log.stdout ++ (invoke files arguments).stdout
          stderr := log.stderr ++ (invoke files arguments).stderr }) := by
  cases accepted : read arguments with
  | error error =>
      rw [Host.command_of_refused _ accepted, invoke_of_refused accepted,
        Host.deliver_recording]
      simp only [requestedPaths, accepted, List.append_nil]
  | ok wanted =>
      cases wanted with
      | help =>
          rw [Host.command_of_help _ accepted, Host.deliver_recording]
          simp only [invoke, requestedPaths, accepted, List.append_nil]
      | execute request =>
          have report_eq :
              execute (fun _ => files request.path) request = execute files request :=
            execute_congr rfl
          rw [Host.command_of_accepted (Host.joins_recording files) accepted,
            invoke_of_accepted accepted, ← report_eq]
          simp only [requestedPaths, accepted]
          rfl

end CommandLine
end LS8
