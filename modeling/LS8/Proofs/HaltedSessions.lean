import LS8.Proofs.Halting
import LS8.Proofs.Operations

/-!
# Halted sessions

A machine that has halted stays halted, whatever the host does with it short of a
reset: it can be given another program and another address to go on from, but
every step is refused and every run ends before its first step.  A running machine
halts only by a step or a run, and only because the last instruction executed
there was a halt, or a division by zero whose message the sink accepted.
-/

namespace LS8
namespace Session

variable {session : Session} {operation : Operation}

/-- Nothing is recorded in front of a step that is refused. -/
theorem observe_of_halted (halted : session.machine.status = .halted) :
    session.observe = session := by
  simp [observe, Machine.isHalted, halted]

theorem perform_step_of_halted (halted : session.machine.status = .halted) :
    session.perform .step = (session, .failed .machineHalted) := by
  rw [perform, step_of_error (Machine.next_of_halted halted _),
    observe_of_halted halted]

/-- A run tests the status before the limit, so a limit of zero makes no
difference. -/
theorem perform_run_of_halted (halted : session.machine.status = .halted) :
    session.perform .run = (session, .outcome (.halted 0)) := by
  rw [perform, run, runFor_of_halted halted]
  rfl

/-- Only steps, runs and resets change the status of a machine. -/
theorem status_perform
    (noStep : operation ≠ .step)
    (noRun : operation ≠ .run)
    (noReset : operation ≠ .reset) :
    (session.perform operation).1.machine.status = session.machine.status := by
  have loaded (image : Except LoadError (List UInt8)) :
      (session.answerLoad (image >>= session.load)).1.machine.status =
        session.machine.status := by
    obtain ⟨memory, loaded_eq⟩ := session.exists_memory_answerLoad image
    rw [loaded_eq]
    rfl
  cases operation with
  | step => contradiction
  | run => contradiction
  | reset => contradiction
  | load image => exact loaded (.ok image)
  | loadText text => exact loaded (Program.parse text)
  | _ => rfl

theorem halted_perform
    (halted : session.machine.status = .halted)
    (noReset : operation ≠ .reset) :
    (session.perform operation).1.machine.status = .halted := by
  cases operation with
  | step =>
      rw [perform_step_of_halted halted]
      exact halted
  | run =>
      rw [perform_run_of_halted halted]
      exact halted
  | reset => contradiction
  | _ =>
      rw [status_perform Operation.noConfusion Operation.noConfusion noReset]
      exact halted

/-- A halted machine stays halted until it is reset. -/
theorem halted_performAll
    (halted : session.machine.status = .halted)
    {operations : List Operation}
    (noReset : .reset ∉ operations) :
    (session.performAll operations).machine.status = .halted := by
  induction operations generalizing session with
  | nil => exact halted
  | cons operation rest inductionHypothesis =>
      rw [List.mem_cons, not_or] at noReset
      rw [performAll_cons]
      exact inductionHypothesis (halted_perform halted (Ne.symm noReset.1)) noReset.2

/-- The next step halts the machine. -/
inductive Stops (session : Session) : Prop where
  /-- It executes a halt instruction. -/
  | halts :
      session.machine.nextInstruction? = some .hlt →
      Stops session
  /-- It divides by a register that is zero, and there is room for the
  message. -/
  | divides {op : AluOp} {first second : Register} :
      session.machine.nextInstruction? = some (.alu op first second) →
      op = .div ∨ op = .mod →
      session.machine.get second = 0 →
      session.sink.accepts OutputLine.zeroDivision.text = true →
      Stops session

/-- A running machine has halted after a step exactly when the step stops it. -/
theorem halted_step_iff (running : session.machine.status = .running) :
    session.step.1.machine.status = .halted ↔ session.Stops := by
  constructor
  · intro halted
    rcases stepped : session.step with ⟨next, error | status⟩
    · rw [stepped, machine_of_step_error stepped, running] at halted
      contradiction
    · obtain ⟨effect, executed, accepted, next_eq, _⟩ := step_ok_cases stepped
      rw [stepped, next_eq] at halted
      cases Machine.leads_of_next executed with
      | halts decoded => exact .halts decoded
      | divides decoded division zero =>
          exact .divides decoded division zero accepted
      | prints _ goesOn =>
          rw [goesOn] at halted
          contradiction
      | goesOn _ _ goesOn =>
          rw [goesOn] at halted
          contradiction
  · intro stops
    cases stops with
    | halts executed =>
        have next_eq := Machine.next_of_instruction running
          (Machine.nextInstruction?_eq_some_iff.mp executed).2
          session.configuration.policy
        rw [step_of_silent next_eq]
    | divides executed division zero accepted =>
        have next_eq := Machine.next_of_instruction running
          (Machine.nextInstruction?_eq_some_iff.mp executed).2
          session.configuration.policy
        rw [Machine.execute_of_zeroDivision division zero] at next_eq
        rw [step_of_accepted next_eq accepted]

/-- The last step in front of a halt stops the machine. -/
theorem HaltsAfter.stops
    {last : Nat}
    (halts : session.HaltsAfter (last + 1)) :
    (session.after last).Stops := by
  rw [← halted_step_iff (halts.running last (Nat.lt_succ_self last))]
  exact halts.halted

/-- An operation that halts a running machine executes instructions, and the last
of them stops it. -/
theorem halting_perform_cases
    (running : session.machine.status = .running)
    (halted : (session.perform operation).1.machine.status = .halted) :
    (operation = .step ∨ operation = .run) ∧
      ∃ last,
        session.HaltsAfter (last + 1) ∧
          (session.perform operation).1 = session.after (last + 1) := by
  cases operation with
  | step =>
      refine ⟨.inl rfl, 0, ?_, perform_step_fst session⟩
      rw [perform_step_fst] at halted
      rcases stepped : session.step with ⟨next, error | status⟩
      · rw [stepped, machine_of_step_error stepped, running] at halted
        contradiction
      · refine ⟨succeeds_succ stepped (succeeds_zero next), ?_, halted⟩
        intro index index_lt
        rwa [Nat.lt_one_iff.mp index_lt]
  | run =>
      refine ⟨.inr rfl, ?_⟩
      change (session.runFor session.allowance).session.machine.status = .halted
        at halted
      rcases session.runFor_cases session.allowance with
        ⟨count, _, halts, run_eq⟩ | ⟨count, _, error, fails, run_eq⟩ |
          ⟨outlasts, run_eq⟩
      · obtain ⟨last, rfl⟩ := halts.exists_eq_succ running
        exact ⟨last, halts, congrArg Run.session run_eq⟩
      · rw [run_eq, fails.machine_eq, fails.running count (Nat.le_refl count)]
          at halted
        contradiction
      · rw [run_eq, outlasts.running] at halted
        contradiction
  | reset => exact absurd halted Status.noConfusion
  | _ =>
      rw [status_perform Operation.noConfusion Operation.noConfusion
        Operation.noConfusion, running] at halted
      contradiction

/-- Only a reset makes a halted machine run again, and only a halt instruction or a
division by zero halts a running one. -/
theorem halted_until_reset (session : Session) :
    (session.machine.status = .halted →
        ∀ operations : List Operation, .reset ∉ operations →
          let last := session.performAll operations
          last.machine.status = .halted ∧
            last.perform .step = (last, .failed .machineHalted) ∧
            last.perform .run = (last, .outcome (.halted 0))) ∧
      (session.machine.status = .running →
        (session.step.1.machine.status = .halted ↔ session.Stops) ∧
          ∀ operation, (session.perform operation).1.machine.status = .halted →
            (operation = .step ∨ operation = .run) ∧
              ∃ last,
                session.HaltsAfter (last + 1) ∧
                  (session.after last).Stops ∧
                  (session.perform operation).1 = session.after (last + 1)) := by
  constructor
  · intro halted operations noReset last
    have last_halted : last.machine.status = .halted :=
      halted_performAll halted noReset
    exact ⟨last_halted, perform_step_of_halted last_halted,
      perform_run_of_halted last_halted⟩
  · intro running
    refine ⟨halted_step_iff running, ?_⟩
    intro operation halted
    obtain ⟨executes, last, halts, after_eq⟩ := halting_perform_cases running halted
    exact ⟨executes, last, halts, halts.stops, after_eq⟩

/-- A machine that stands at a division by zero, with a limit of no steps. -/
def standingAtDivision : Session where
  configuration := { Configuration.standard with limit := some 0 }
  machine :=
    { Machine.initial with
      memory := Memory.zeroed.overlay [0xA3, 0x00, 0x01] }
  sink := .unbounded
  trace := #[]

/-- A host loads a program that prints, goes to its start and lets it run. -/
def reviving : List Operation :=
  [.load [0x47, 0x00, 0x01], .setPc 0x00, .run, .push 0x05]

theorem halted_until_reset_reviving :
    let halted := (standingAtDivision.perform .step).1
    let last := halted.performAll reviving
    standingAtDivision.machine.status = .running ∧
      standingAtDivision.Stops ∧
      halted.machine.status = .halted ∧
      .reset ∉ reviving ∧
      last.machine.memory.read 0x00 = 0x47 ∧
      last.machine.status = .halted ∧
      last.perform .step = (last, .failed .machineHalted) ∧
      last.perform .run = (last, .outcome (.halted 0)) := by
  intro halted last
  have stepped : standingAtDivision.step.1.machine.status = .halted := by
    decide +kernel
  have stopped : halted.machine.status = .halted := by decide +kernel
  have noReset : .reset ∉ reviving := by decide
  obtain ⟨stops, _⟩ := (halted_until_reset standingAtDivision).2 rfl
  obtain ⟨stays, refused, ended⟩ :=
    (halted_until_reset halted).1 stopped reviving noReset
  exact ⟨rfl, stops.mp stepped, stopped, noReset, by decide +kernel, stays, refused,
    ended⟩

end Session
end LS8
