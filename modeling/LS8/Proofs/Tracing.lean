import LS8.Proofs.Alike
import LS8.Proofs.BoundedOutput

/-!
# Traces

A session that records a trace runs like one that does not.  Its trace gets one
line for each machine in front of a step, the failing step included, so the
outcome of a run tells how many lines the trace has.
-/

namespace LS8
namespace Session

/-- The trace lines of the machines in front of a number of steps. -/
def traceLines (session : Session) (count : Nat) : List String :=
  (List.range count).map fun index => (session.after index).machine.traceLine

/-- The number of lines that a run whose output is always accepted records, told
by its outcome. -/
inductive TraceLength (session : Session) : Outcome → Nat → Prop where
  /-- One line for each step. -/
  | halted {cycles : Nat} : TraceLength session (.halted cycles) cycles
  /-- One line for each step that the limit allows. -/
  | cut {limit : Nat} : TraceLength session (.failed (.stepLimit limit)) limit
  /-- One line for each step that succeeds, and one for the step that fails. -/
  | unknown {byte address : UInt8} {index : Nat} :
      session.FailsAfter index (.unknownOpcode byte address) →
      TraceLength session (.failed (.unknownOpcode byte address)) (index + 1)

variable {session : Session} {count : Nat}

theorem traceLines_succ (session : Session) (count : Nat) :
    session.traceLines (count + 1) =
      session.traceLines count ++ [(session.after count).machine.traceLine] := by
  rw [traceLines, List.range_succ, List.map_append]
  rfl

theorem trace_step (session : Session) :
    session.step.1.trace = session.observe.trace := by
  rcases stepped : session.step with ⟨next, error | status⟩
  · rcases step_error_cases stepped with ⟨_, rfl⟩ | ⟨effect, _, _, rfl, _⟩
    · rfl
    · rfl
  · obtain ⟨effect, _, _, rfl, _⟩ := step_ok_cases stepped
    rfl

/-- Every step of a running machine records a line, if a trace is wanted. -/
theorem trace_step_of_tracing
    (tracing : session.configuration.tracing = true)
    (running : session.machine.status = .running) :
    session.step.1.trace.toList =
      session.trace.toList ++ [session.machine.traceLine] := by
  rw [trace_step, observe, tracing]
  simp [Machine.isHalted, running]

theorem trace_step_of_quiet (quiet : session.configuration.tracing = false) :
    session.step.1.trace = session.trace := by
  rw [trace_step, observe, quiet]
  rfl

/-- As long as the machine runs, every step records its line. -/
theorem trace_after_of_tracing
    (tracing : session.configuration.tracing = true)
    (running : ∀ index < count, (session.after index).machine.status = .running) :
    (session.after count).trace.toList =
      session.trace.toList ++ session.traceLines count := by
  induction count with
  | zero => exact (List.append_nil _).symm
  | succ count inductionHypothesis =>
      have earlier :=
        inductionHypothesis fun index index_lt => running index (by omega)
      have still_tracing : (session.after count).configuration.tracing = true := by
        rw [configuration_after]
        exact tracing
      rw [after_succ,
        trace_step_of_tracing still_tracing (running count (Nat.lt_succ_self count)),
        earlier, List.append_assoc, traceLines_succ]

theorem trace_after_of_quiet
    (quiet : session.configuration.tracing = false)
    (count : Nat) :
    (session.after count).trace = session.trace := by
  induction count with
  | zero => rfl
  | succ count inductionHypothesis =>
      rw [after_succ, trace_step_of_quiet, inductionHypothesis]
      rw [configuration_after]
      exact quiet

/-- A run that ends records as many lines as its outcome tells. -/
theorem trace_run_of_tracing
    (tracing : session.configuration.tracing = true)
    (accepting : session.sink.room = none)
    (ends : session.run.2 ≠ .endless) :
    ∃ count,
      session.TraceLength session.run.2 count ∧
        session.run.1.trace.toList =
          session.trace.toList ++ session.traceLines count := by
  rw [run] at ends ⊢
  rcases session.runFor_cases session.allowance with
    ⟨count, _, halts, run_eq⟩ | ⟨count, _, error, fails, run_eq⟩ |
      ⟨outlasts, run_eq⟩
  · rw [run_eq]
    exact ⟨count, .halted, trace_after_of_tracing tracing halts.running⟩
  · rw [run_eq]
    refine ⟨count + 1, ?_, ?_⟩
    · rcases Machine.next_eq_error_iff.mp (fails.next_eq_error accepting) with
        ⟨halted, _⟩ | ⟨_, _, _, rfl⟩
      · rw [fails.running count (Nat.le_refl count)] at halted
        contradiction
      · exact .unknown fails
    · exact trace_after_of_tracing tracing fun index index_lt =>
        fails.running index (Nat.le_of_lt_succ index_lt)
  · rw [run_eq] at ends ⊢
    cases limit_eq : session.configuration.limit with
    | none =>
        rw [limit_eq] at ends
        exact absurd rfl ends
    | some limit =>
        rw [allowance_of_limit limit_eq] at outlasts ⊢
        exact ⟨limit, .cut,
          trace_after_of_tracing tracing fun _ index_lt =>
            outlasts.succeeds.running index_lt⟩

theorem trace_run_of_quiet (quiet : session.configuration.tracing = false) :
    session.run.1.trace = session.trace := by
  rw [run]
  rcases session.runFor_cases session.allowance with
    ⟨count, _, _, run_eq⟩ | ⟨count, _, _, _, run_eq⟩ | ⟨_, run_eq⟩
  all_goals
    rw [run_eq]
    exact trace_after_of_quiet quiet _

section Alike

variable {left right : Session}

theorem Alike.traceLines_eq (alike : left.Alike right) (count : Nat) :
    left.traceLines count = right.traceLines count := by
  apply List.map_congr_left
  intro index _
  rw [(alike.after index).machine_eq]

theorem Alike.traceLength
    {outcome : Outcome}
    (alike : left.Alike right)
    (length : left.TraceLength outcome count) :
    right.TraceLength outcome count := by
  cases length with
  | halted => exact .halted
  | cut => exact .cut
  | unknown fails => exact .unknown (alike.failsAfter fails)

end Alike

end Session
end LS8
