import LS8.Proofs.RunLoop

/-!
# Sessions that run alike

Limits and traces have no part in what a step does, so sessions that differ in
nothing else stay so with every step.  A step fails in one of them exactly when it
fails in the other, and under the same allowance their runs end alike.
-/

namespace LS8
namespace Session
namespace Alike

variable {left right : Session} {count : Nat}

theorem after (alike : left.Alike right) (count : Nat) :
    (left.after count).Alike (right.after count) := by
  induction count with
  | zero => exact alike
  | succ count inductionHypothesis => exact inductionHypothesis.step

theorem succeeds (alike : left.Alike right) (succeeds : left.Succeeds count) :
    right.Succeeds count := by
  intro index index_lt
  obtain ⟨status, stepped⟩ := succeeds index index_lt
  exact ⟨status, (alike.after index).result_eq.symm.trans stepped⟩

theorem running_after
    (alike : left.Alike right)
    (running : (left.after count).machine.status = .running) :
    (right.after count).machine.status = .running := by
  rw [← (alike.after count).machine_eq]
  exact running

theorem haltsAfter (alike : left.Alike right) (halts : left.HaltsAfter count) :
    right.HaltsAfter count where
  succeeds := alike.succeeds halts.succeeds
  running := fun index index_lt => alike.running_after (halts.running index index_lt)
  halted := by
    rw [← (alike.after count).machine_eq]
    exact halts.halted

theorem failsAfter
    {error : ExecutionError}
    (alike : left.Alike right)
    (fails : left.FailsAfter count error) :
    right.FailsAfter count error where
  succeeds := alike.succeeds fails.succeeds
  running := fun index index_le => alike.running_after (fails.running index index_le)
  failed := (alike.after count).result_eq.symm.trans fails.failed

theorem outlasts (alike : left.Alike right) (outlasts : left.Outlasts count) :
    right.Outlasts count where
  succeeds := alike.succeeds outlasts.succeeds
  running := alike.running_after outlasts.running

/-- Runs under the same allowance end alike. -/
theorem runFor_eq (alike : left.Alike right) (allowance : Nat) :
    (left.runFor allowance).session.Alike (right.runFor allowance).session ∧
      (left.runFor allowance).cycles = (right.runFor allowance).cycles ∧
      (left.runFor allowance).ending = (right.runFor allowance).ending := by
  rcases left.runFor_cases allowance with
    ⟨count, count_le, halts, run_eq⟩ | ⟨count, count_lt, error, fails, run_eq⟩ |
      ⟨outlasts, run_eq⟩
  · rw [run_eq, (alike.haltsAfter halts).runFor_eq count_le]
    exact ⟨alike.after count, rfl, rfl⟩
  · rw [run_eq, (alike.failsAfter fails).runFor_eq count_lt]
    exact ⟨alike.after (count + 1), rfl, rfl⟩
  · rw [run_eq, (alike.outlasts outlasts).runFor_eq]
    exact ⟨alike.after allowance, rfl, rfl⟩

/-- Runs under the same limit, or without one, end alike. -/
theorem run_eq
    (alike : left.Alike right)
    (limit_eq : left.configuration.limit = right.configuration.limit) :
    left.run.1.Alike right.run.1 ∧ left.run.2 = right.run.2 := by
  have allowance_eq : left.allowance = right.allowance := by
    rw [allowance, allowance, limit_eq, horizon, horizon, alike.sink_eq]
  obtain ⟨last_alike, cycles_eq, ending_eq⟩ := alike.runFor_eq right.allowance
  rw [run, run, allowance_eq]
  refine ⟨last_alike, ?_⟩
  simp only [Run.outcome, cycles_eq, ending_eq, limit_eq]

end Alike
end Session
end LS8
