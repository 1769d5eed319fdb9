import LS8.Machine.Execution
import LS8.Machine.TraceLine

/-!
# Sessions

A session is a machine at work: it has a configuration that never changes, a
sink for the program's output and the trace lines recorded so far.  A step
changes the machine only if all of its output was accepted, so a failing step
leaves the machine as it was.

A run is a sequence of steps under an allowance.  With a limit in the
configuration the limit is the allowance.  Without one the allowance exceeds
the number of states that the machine and its sink can be in: a run that uses
it up has come back to an earlier state, and never ends.
-/

namespace LS8

/-- What the host chooses for a session. -/
structure Configuration where
  /-- What to do with bytes that belong to no opcode. -/
  policy : UnknownOpcodePolicy
  /-- The most steps that a run may take. -/
  limit : Option Nat
  /-- Whether a trace line is recorded before every step. -/
  tracing : Bool
  deriving DecidableEq, Repr

/-- Stall on unknown opcodes, run without a limit and record no trace. -/
def Configuration.standard : Configuration where
  policy := .stall
  limit := none
  tracing := false

/-- A machine at work. -/
structure Session where
  configuration : Configuration
  machine : Machine
  sink : Sink
  /-- The trace lines recorded so far, oldest first. -/
  trace : Array String
  deriving DecidableEq

/-- How a run under an allowance ends. -/
inductive Ending where
  /-- The machine has halted. -/
  | halted
  /-- A step has failed. -/
  | failed (error : ExecutionError)
  /-- The allowance is used up and the machine still runs. -/
  | exhausted
  deriving DecidableEq, Repr

/-- A run that has ended. -/
structure Run where
  session : Session
  /-- The number of steps that succeeded. -/
  cycles : Nat
  ending : Ending
  deriving DecidableEq

/-- What the host learns from a run. -/
inductive Outcome where
  /-- The machine has halted after a number of steps. -/
  | halted (cycles : Nat)
  /-- The run was stopped by an error. -/
  | failed (error : ExecutionError)
  /-- The run has no limit and never ends. -/
  | endless
  deriving DecidableEq, Repr

/-- The outcome of a run whose allowance came from a limit, if there is one. -/
def Run.outcome (run : Run) (limit : Option Nat) : Outcome :=
  match run.ending, limit with
  | .halted, _ => .halted run.cycles
  | .failed error, _ => .failed error
  | .exhausted, some limit => .failed (.stepLimit limit)
  | .exhausted, none => .endless

/-- The number of states of a machine: the program counter, 256 cells and
eight registers are bytes, and there are four flag values and two statuses. -/
def Machine.stateCount : Nat :=
  Nat.pow 256 (1 + 256 + 8) * 4 * 2

namespace Session

/-- A session with a machine after a reset and nothing recorded. -/
def start (configuration : Configuration) (sink : Sink) : Session where
  configuration
  machine := .initial
  sink
  trace := #[]

/-- Put the machine back to its state after a reset. -/
def reset (session : Session) : Session :=
  { session with machine := .initial }

/-- Load an image into the machine's memory. -/
def load (session : Session) (image : List UInt8) : Except LoadError Session :=
  (session.machine.load image).map fun machine => { session with machine }

/-- Record the machine's trace line, if a trace is wanted and the machine is
about to execute an instruction. -/
def observe (session : Session) : Session :=
  if session.configuration.tracing && !session.machine.isHalted then
    { session with trace := session.trace.push session.machine.traceLine }
  else
    session

/-- Write the line of an effect and move on to its machine.  If the sink
refuses a part of the line, the machine stays. -/
def commit (session : Session) (effect : Effect) :
    Session × Except ExecutionError Status :=
  match effect.line with
  | none =>
      ({ session with machine := effect.machine }, .ok effect.machine.status)
  | some line =>
      let sink := session.sink.write line.text
      if session.sink.accepts line.text then
        ({ session with machine := effect.machine, sink },
          .ok effect.machine.status)
      else
        ({ session with sink }, .error .output)

/-- Execute one instruction. -/
def step (session : Session) : Session × Except ExecutionError Status :=
  let observed := session.observe
  match session.machine.next session.configuration.policy with
  | .ok effect => observed.commit effect
  | .error error => (observed, .error error)

@[simp] theorem machine_observe (session : Session) :
    session.observe.machine = session.machine := by
  unfold observe
  split <;> rfl

@[simp] theorem sink_observe (session : Session) :
    session.observe.sink = session.sink := by
  unfold observe
  split <;> rfl

@[simp] theorem configuration_observe (session : Session) :
    session.observe.configuration = session.configuration := by
  unfold observe
  split <;> rfl

/-- A step that has no effect to commit only records the trace line. -/
theorem step_of_error
    {session : Session}
    {error : ExecutionError}
    (refused :
      session.machine.next session.configuration.policy = .error error) :
    session.step = (session.observe, .error error) := by
  simp [step, refused]

/-- A step without output moves on to the machine of its effect. -/
theorem step_of_silent
    {session : Session}
    {machine : Machine}
    (executed :
      session.machine.next session.configuration.policy =
        .ok ⟨machine, none⟩) :
    session.step =
      ({ session.observe with machine }, .ok machine.status) := by
  simp [step, executed, commit]

/-- A step whose line the sink accepts writes it and moves on. -/
theorem step_of_accepted
    {session : Session}
    {machine : Machine}
    {line : OutputLine}
    (executed :
      session.machine.next session.configuration.policy =
        .ok ⟨machine, some line⟩)
    (accepted : session.sink.accepts line.text = true) :
    session.step =
      ({ session.observe with machine, sink := session.sink.write line.text },
        .ok machine.status) := by
  simp [step, executed, commit, accepted]

/-- A step whose line the sink refuses leaves the machine as it was. -/
theorem step_of_overflow
    {session : Session}
    {machine : Machine}
    {line : OutputLine}
    (executed :
      session.machine.next session.configuration.policy =
        .ok ⟨machine, some line⟩)
    (refused : session.sink.accepts line.text = false) :
    session.step =
      ({ session.observe with sink := session.sink.write line.text },
        .error .output) := by
  simp [step, executed, commit, refused]

/-- Execute instructions until the machine halts, a step fails or the allowance
is used up, counting on from the steps already taken. -/
def runFrom : (allowance cycles : Nat) → Session → Run
  | allowance, cycles, session =>
    if session.machine.isHalted then
      ⟨session, cycles, .halted⟩
    else
      match allowance with
      | 0 => ⟨session, cycles, .exhausted⟩
      | allowance + 1 =>
          match session.step with
          | (session, .ok _) => runFrom allowance (cycles + 1) session
          | (session, .error error) => ⟨session, cycles, .failed error⟩

/-- Execute instructions under an allowance. -/
def runFor (session : Session) (allowance : Nat) : Run :=
  runFrom allowance 0 session

/-- More steps than the machine and its sink have states: a machine whose sink
has room for `n` more characters fails or stops writing after at most `n`
lines. -/
def horizon (session : Session) : Nat :=
  Machine.stateCount * (session.sink.room.getD 0 + 1)

/-- The allowance of a run: the limit, or else the horizon. -/
def allowance (session : Session) : Nat :=
  session.configuration.limit.getD session.horizon

/-- Execute instructions until the machine halts, a step fails or the limit is
reached. -/
def run (session : Session) : Session × Outcome :=
  let run := session.runFor session.allowance
  (run.session, run.outcome session.configuration.limit)

/-! ## Laws of the run loop -/

theorem runFrom_of_halted
    {session : Session}
    (halted : session.machine.status = .halted)
    (allowance cycles : Nat) :
    runFrom allowance cycles session = ⟨session, cycles, .halted⟩ := by
  unfold runFrom
  simp [Machine.isHalted, halted]

theorem runFrom_zero
    {session : Session}
    (running : session.machine.status = .running)
    (cycles : Nat) :
    runFrom 0 cycles session = ⟨session, cycles, .exhausted⟩ := by
  unfold runFrom
  simp [Machine.isHalted, running]

theorem runFrom_succ
    {session : Session}
    (running : session.machine.status = .running)
    (allowance cycles : Nat) :
    runFrom (allowance + 1) cycles session =
      match session.step with
      | (next, .ok _) => runFrom allowance (cycles + 1) next
      | (next, .error error) => ⟨next, cycles, .failed error⟩ := by
  rw [runFrom]
  simp [Machine.isHalted, running]

/-- The steps already taken only add to the count. -/
theorem runFrom_eq_runFor
    (session : Session)
    (allowance cycles : Nat) :
    runFrom allowance cycles session =
      { session.runFor allowance with
        cycles := cycles + (session.runFor allowance).cycles } := by
  unfold runFor
  induction allowance generalizing session cycles with
  | zero =>
      cases status_eq : session.machine.status with
      | running => simp [runFrom_zero status_eq]
      | halted => simp [runFrom_of_halted status_eq]
  | succ allowance ih =>
      cases status_eq : session.machine.status with
      | halted => simp [runFrom_of_halted status_eq]
      | running =>
          rw [runFrom_succ status_eq, runFrom_succ status_eq]
          rcases session.step with ⟨next, error | status⟩
          · simp
          · dsimp only
            rw [ih next (cycles + 1), ih next (0 + 1)]
            simp [Nat.add_assoc]

theorem runFor_of_halted
    {session : Session}
    (halted : session.machine.status = .halted)
    (allowance : Nat) :
    session.runFor allowance = ⟨session, 0, .halted⟩ :=
  runFrom_of_halted halted allowance 0

theorem runFor_zero
    {session : Session}
    (running : session.machine.status = .running) :
    session.runFor 0 = ⟨session, 0, .exhausted⟩ :=
  runFrom_zero running 0

/-- A run that starts with a successful step goes on from the next session. -/
theorem runFor_succ_of_ok
    {session next : Session}
    {status : Status}
    (running : session.machine.status = .running)
    (stepped : session.step = (next, .ok status))
    (allowance : Nat) :
    session.runFor (allowance + 1) =
      { next.runFor allowance with
        cycles := (next.runFor allowance).cycles + 1 } := by
  rw [runFor, runFrom_succ running, stepped]
  dsimp only
  rw [runFrom_eq_runFor, Nat.add_comm]

/-- A run whose first step fails ends there. -/
theorem runFor_succ_of_error
    {session next : Session}
    {error : ExecutionError}
    (running : session.machine.status = .running)
    (stepped : session.step = (next, .error error))
    (allowance : Nat) :
    session.runFor (allowance + 1) = ⟨next, 0, .failed error⟩ := by
  rw [runFor, runFrom_succ running, stepped]

end Session
end LS8
