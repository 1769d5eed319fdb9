import LS8.Proofs.Iteration

/-!
# Runs are repeated steps

A run under an allowance ends in one of three ways: the machine halts within
the allowance, a step within the allowance fails, or all steps of the allowance
succeed and the machine still runs.  The three exclude each other, and each one
decides the session at the end, the number of steps counted and the outcome.
-/

namespace LS8
namespace Session

/-- The machine halts after exactly a number of successful steps. -/
structure HaltsAfter (session : Session) (count : Nat) : Prop where
  succeeds : session.Succeeds count
  running : ∀ index < count, (session.after index).machine.status = .running
  halted : (session.after count).machine.status = .halted

/-- After a number of successful steps the machine still runs, and its next
step fails. -/
structure FailsAfter
    (session : Session)
    (count : Nat)
    (error : ExecutionError) : Prop where
  succeeds : session.Succeeds count
  running : ∀ index ≤ count, (session.after index).machine.status = .running
  failed : (session.after count).step.2 = .error error

/-- A number of steps all succeed and the machine still runs. -/
structure Outlasts (session : Session) (count : Nat) : Prop where
  succeeds : session.Succeeds count
  running : (session.after count).machine.status = .running

/-- The machine halts within an allowance. -/
def HaltsWithin (session : Session) (allowance : Nat) : Prop :=
  ∃ count ≤ allowance, session.HaltsAfter count

/-- A step within an allowance fails. -/
def FailsWithin (session : Session) (allowance : Nat) : Prop :=
  ∃ count < allowance, ∃ error, session.FailsAfter count error

variable {session : Session}

/-- A machine that has halted makes no step. -/
theorem HaltsAfter.le_of_succeeds
    {count steps : Nat}
    (halts : session.HaltsAfter count)
    (succeeds : session.Succeeds steps) :
    steps ≤ count := by
  apply Nat.le_of_not_lt
  intro count_lt
  have running := succeeds.running count_lt
  rw [halts.halted] at running
  contradiction

theorem HaltsAfter.unique
    {left right : Nat}
    (leftHalts : session.HaltsAfter left)
    (rightHalts : session.HaltsAfter right) :
    left = right :=
  Nat.le_antisymm
    (rightHalts.le_of_succeeds leftHalts.succeeds)
    (leftHalts.le_of_succeeds rightHalts.succeeds)

/-- A running machine halts only by a step. -/
theorem HaltsAfter.exists_eq_succ
    {count : Nat}
    (halts : session.HaltsAfter count)
    (running : session.machine.status = .running) :
    ∃ last, count = last + 1 := by
  cases count with
  | zero =>
      have halted : session.machine.status = .halted := halts.halted
      rw [running] at halted
      contradiction
  | succ last => exact ⟨last, rfl⟩

/-- No more steps succeed than those before the failing one. -/
theorem FailsAfter.le_of_succeeds
    {count steps : Nat}
    {error : ExecutionError}
    (fails : session.FailsAfter count error)
    (succeeds : session.Succeeds steps) :
    steps ≤ count := by
  apply Nat.le_of_not_lt
  intro count_lt
  obtain ⟨status, status_eq⟩ := succeeds count count_lt
  rw [fails.failed] at status_eq
  contradiction

theorem FailsAfter.unique
    {left right : Nat}
    {leftError rightError : ExecutionError}
    (leftFails : session.FailsAfter left leftError)
    (rightFails : session.FailsAfter right rightError) :
    left = right ∧ leftError = rightError := by
  have same : left = right :=
    Nat.le_antisymm
      (rightFails.le_of_succeeds leftFails.succeeds)
      (leftFails.le_of_succeeds rightFails.succeeds)
  subst same
  have failed := leftFails.failed
  rw [rightFails.failed] at failed
  exact ⟨rfl, (Except.error.inj failed).symm⟩

theorem HaltsWithin.not_failsWithin
    {allowance : Nat}
    (halts : session.HaltsWithin allowance) :
    ¬session.FailsWithin allowance := by
  obtain ⟨count, _, halts⟩ := halts
  rintro ⟨index, _, error, fails⟩
  have count_le := fails.le_of_succeeds halts.succeeds
  have running := fails.running count count_le
  rw [halts.halted] at running
  contradiction

theorem Outlasts.not_haltsWithin
    {allowance : Nat}
    (outlasts : session.Outlasts allowance) :
    ¬session.HaltsWithin allowance := by
  rintro ⟨count, count_le, halts⟩
  have allowance_le := halts.le_of_succeeds outlasts.succeeds
  have count_eq : count = allowance := by omega
  have running := outlasts.running
  rw [← count_eq, halts.halted] at running
  contradiction

theorem Outlasts.not_failsWithin
    {allowance : Nat}
    (outlasts : session.Outlasts allowance) :
    ¬session.FailsWithin allowance := by
  rintro ⟨count, count_lt, error, fails⟩
  have allowance_le := fails.le_of_succeeds outlasts.succeeds
  omega

section Front

variable {status : Status} {count : Nat}

theorem after_succ_of_step
    {next : Session}
    {result : Except ExecutionError Status}
    (stepped : session.step = (next, result))
    (count : Nat) :
    session.after (count + 1) = next.after count := by
  rw [after_succ_left, stepped]

theorem succeeds_succ
    {next : Session}
    (stepped : session.step = (next, .ok status))
    (succeeds : next.Succeeds count) :
    session.Succeeds (count + 1) := by
  rw [succeeds_succ_iff, stepped]
  exact ⟨⟨status, rfl⟩, succeeds⟩

theorem HaltsAfter.succ
    {next : Session}
    (stepped : session.step = (next, .ok status))
    (halts : next.HaltsAfter count) :
    session.HaltsAfter (count + 1) where
  succeeds := succeeds_succ stepped halts.succeeds
  running := fun _ index_lt =>
    (succeeds_succ stepped halts.succeeds).running index_lt
  halted := by
    rw [after_succ_of_step stepped]
    exact halts.halted

theorem FailsAfter.succ
    {next : Session}
    {error : ExecutionError}
    (stepped : session.step = (next, .ok status))
    (fails : next.FailsAfter count error) :
    session.FailsAfter (count + 1) error where
  succeeds := succeeds_succ stepped fails.succeeds
  running := by
    intro index index_le
    cases index with
    | zero => exact running_of_step_ok stepped
    | succ index =>
        rw [after_succ_of_step stepped]
        exact fails.running index (by omega)
  failed := by
    rw [after_succ_of_step stepped]
    exact fails.failed

theorem Outlasts.succ
    {next : Session}
    (stepped : session.step = (next, .ok status))
    (outlasts : next.Outlasts count) :
    session.Outlasts (count + 1) where
  succeeds := succeeds_succ stepped outlasts.succeeds
  running := by
    rw [after_succ_of_step stepped]
    exact outlasts.running

end Front

/-! ## The run loop -/

/-- Every run under an allowance ends in one of the three ways, with the
session and the count that belong to it. -/
theorem runFor_cases (session : Session) (allowance : Nat) :
    (∃ count ≤ allowance,
        session.HaltsAfter count ∧
          session.runFor allowance = ⟨session.after count, count, .halted⟩) ∨
      (∃ count < allowance, ∃ error,
        session.FailsAfter count error ∧
          session.runFor allowance =
            ⟨session.after (count + 1), count, .failed error⟩) ∨
      (session.Outlasts allowance ∧
        session.runFor allowance =
          ⟨session.after allowance, allowance, .exhausted⟩) := by
  induction allowance generalizing session with
  | zero =>
      cases status_eq : session.machine.status with
      | halted =>
          left
          refine ⟨0, Nat.le_refl 0, ⟨succeeds_zero session, ?_, status_eq⟩, ?_⟩
          · intro index index_lt
            omega
          · exact runFor_of_halted status_eq 0
      | running =>
          right
          right
          exact ⟨⟨succeeds_zero session, status_eq⟩, runFor_zero status_eq⟩
  | succ allowance inductionHypothesis =>
      cases status_eq : session.machine.status with
      | halted =>
          left
          refine ⟨0, Nat.zero_le _, ⟨succeeds_zero session, ?_, status_eq⟩, ?_⟩
          · intro index index_lt
            omega
          · exact runFor_of_halted status_eq _
      | running =>
          rcases stepped : session.step with ⟨next, error | status⟩
          · right
            left
            refine ⟨0, Nat.succ_pos allowance, error,
              ⟨succeeds_zero session, ?_, ?_⟩, ?_⟩
            · intro index index_le
              have index_eq : index = 0 := by omega
              rw [index_eq]
              exact status_eq
            · rw [after_zero, stepped]
            · rw [runFor_succ_of_error status_eq stepped,
                after_succ_of_step stepped, after_zero]
          · have run_eq := runFor_succ_of_ok status_eq stepped allowance
            rcases inductionHypothesis next with
              ⟨count, count_le, halts, tail_eq⟩ |
                ⟨count, count_lt, error, fails, tail_eq⟩ |
                ⟨outlasts, tail_eq⟩
            · left
              refine ⟨count + 1, by omega, halts.succ stepped, ?_⟩
              rw [run_eq, tail_eq, after_succ_of_step stepped]
            · right
              left
              refine ⟨count + 1, by omega, error, fails.succ stepped, ?_⟩
              rw [run_eq, tail_eq, after_succ_of_step stepped]
            · right
              right
              refine ⟨outlasts.succ stepped, ?_⟩
              rw [run_eq, tail_eq, after_succ_of_step stepped]

theorem HaltsAfter.runFor_eq
    {count allowance : Nat}
    (halts : session.HaltsAfter count)
    (count_le : count ≤ allowance) :
    session.runFor allowance = ⟨session.after count, count, .halted⟩ := by
  have within : session.HaltsWithin allowance := ⟨count, count_le, halts⟩
  rcases session.runFor_cases allowance with
    ⟨other, _, otherHalts, run_eq⟩ | ⟨other, other_lt, error, fails, _⟩ |
      ⟨outlasts, _⟩
  · rw [run_eq, otherHalts.unique halts]
  · exact absurd ⟨other, other_lt, error, fails⟩ within.not_failsWithin
  · exact absurd within outlasts.not_haltsWithin

theorem FailsAfter.runFor_eq
    {count allowance : Nat}
    {error : ExecutionError}
    (fails : session.FailsAfter count error)
    (count_lt : count < allowance) :
    session.runFor allowance =
      ⟨session.after (count + 1), count, .failed error⟩ := by
  have within : session.FailsWithin allowance := ⟨count, count_lt, error, fails⟩
  rcases session.runFor_cases allowance with
    ⟨other, other_le, halts, _⟩ | ⟨other, _, otherError, otherFails, run_eq⟩ |
      ⟨outlasts, _⟩
  · exact absurd within (HaltsWithin.not_failsWithin ⟨other, other_le, halts⟩)
  · obtain ⟨count_eq, error_eq⟩ := otherFails.unique fails
    rw [run_eq, count_eq, error_eq]
  · exact absurd within outlasts.not_failsWithin

theorem Outlasts.runFor_eq
    {allowance : Nat}
    (outlasts : session.Outlasts allowance) :
    session.runFor allowance =
      ⟨session.after allowance, allowance, .exhausted⟩ := by
  rcases session.runFor_cases allowance with
    ⟨count, count_le, halts, _⟩ | ⟨count, count_lt, error, fails, _⟩ |
      ⟨_, run_eq⟩
  · exact absurd ⟨count, count_le, halts⟩ outlasts.not_haltsWithin
  · exact absurd ⟨count, count_lt, error, fails⟩ outlasts.not_failsWithin
  · exact run_eq

/-- One of the three ways to end applies. -/
theorem haltsWithin_or_failsWithin_or_outlasts
    (session : Session)
    (allowance : Nat) :
    session.HaltsWithin allowance ∨
      session.FailsWithin allowance ∨
      session.Outlasts allowance := by
  rcases session.runFor_cases allowance with
    ⟨count, count_le, halts, _⟩ | ⟨count, count_lt, error, fails, _⟩ |
      ⟨outlasts, _⟩
  · exact .inl ⟨count, count_le, halts⟩
  · exact .inr (.inl ⟨count, count_lt, error, fails⟩)
  · exact .inr (.inr outlasts)

theorem runFor_cycles_le (session : Session) (allowance : Nat) :
    (session.runFor allowance).cycles ≤ allowance := by
  rcases session.runFor_cases allowance with
    ⟨count, count_le, _, run_eq⟩ | ⟨count, count_lt, _, _, run_eq⟩ |
      ⟨_, run_eq⟩
  · rw [run_eq]
    exact count_le
  · rw [run_eq]
    exact Nat.le_of_lt count_lt
  · exact Nat.le_of_eq (congrArg Run.cycles run_eq)

/-- A run that has used up its allowance goes on under another one. -/
theorem runFrom_add_of_exhausted
    {first cycles : Nat}
    (exhausted : (runFrom first cycles session).ending = .exhausted)
    (second : Nat) :
    runFrom (first + second) cycles session =
      runFrom second (runFrom first cycles session).cycles
        (runFrom first cycles session).session := by
  induction first generalizing session cycles with
  | zero =>
      cases status_eq : session.machine.status with
      | halted =>
          rw [runFrom_of_halted status_eq] at exhausted
          contradiction
      | running => rw [runFrom_zero status_eq, Nat.zero_add]
  | succ first inductionHypothesis =>
      cases status_eq : session.machine.status with
      | halted =>
          rw [runFrom_of_halted status_eq] at exhausted
          contradiction
      | running =>
          rw [runFrom_succ status_eq] at exhausted
          rw [Nat.succ_add, runFrom_succ status_eq, runFrom_succ status_eq]
          rcases stepped : session.step with ⟨next, error | status⟩ <;>
            rw [stepped] at exhausted
          · contradiction
          · exact inductionHypothesis exhausted

/-- A run that has not used up its allowance does not need a larger one. -/
theorem runFrom_eq_of_ended
    {first cycles allowance : Nat}
    (ended : (runFrom first cycles session).ending ≠ .exhausted)
    (first_le : first ≤ allowance) :
    runFrom allowance cycles session = runFrom first cycles session := by
  rw [runFrom_eq_runFor] at ended
  rw [runFrom_eq_runFor, runFrom_eq_runFor session first]
  rcases session.runFor_cases first with
    ⟨count, count_le, halts, run_eq⟩ | ⟨count, count_lt, error, fails, run_eq⟩ |
      ⟨_, run_eq⟩
  · rw [run_eq, halts.runFor_eq (Nat.le_trans count_le first_le)]
  · rw [run_eq, fails.runFor_eq (Nat.lt_of_lt_of_le count_lt first_le)]
  · rw [run_eq] at ended
    contradiction

/-- The run loop tests the status before every step, so what remains are an
unknown opcode and a text that the sink refuses. -/
theorem FailsAfter.error_cases
    {count : Nat}
    {error : ExecutionError}
    (fails : session.FailsAfter count error) :
    error = .output ∨
      (session.configuration.policy = .fault ∧
        (session.after count).machine.instruction? = none ∧
        error =
          .unknownOpcode ((session.after count).machine.fetch 0)
            (session.after count).machine.pc ∧
        session.after (count + 1) = (session.after count).observe) := by
  have running := fails.running count (Nat.le_refl count)
  have stepped :
      (session.after count).step = (session.after (count + 1), .error error) :=
    Prod.ext rfl fails.failed
  rcases step_error_cases stepped with
    ⟨refused, after_eq⟩ | ⟨_, _, _, _, error_eq⟩
  · right
    rcases Machine.next_eq_error_iff.mp refused with
      ⟨halted, _⟩ | ⟨_, unknown, faulting, error_eq⟩
    · rw [halted] at running
      contradiction
    · rw [configuration_after] at faulting
      exact ⟨faulting, unknown, error_eq, after_eq⟩
  · left
    exact error_eq

theorem FailsAfter.error_ne_machineHalted
    {count : Nat}
    {error : ExecutionError}
    (fails : session.FailsAfter count error) :
    error ≠ .machineHalted := by
  rcases fails.error_cases with error_eq | ⟨_, _, error_eq, _⟩
  · rw [error_eq]
    exact ExecutionError.noConfusion
  · rw [error_eq]
    exact ExecutionError.noConfusion

/-- The machine of a session whose step fails is the one before the step. -/
theorem FailsAfter.machine_eq
    {count : Nat}
    {error : ExecutionError}
    (fails : session.FailsAfter count error) :
    (session.after (count + 1)).machine = (session.after count).machine :=
  machine_of_step_error (Prod.ext rfl fails.failed)

/-- A run with the outcome that the machine has halted after some steps has made
just these. -/
theorem haltsAfter_of_run_halted
    {count : Nat}
    (halted : session.run.2 = .halted count) :
    count ≤ session.allowance ∧
      session.HaltsAfter count ∧ session.run.1 = session.after count := by
  rw [run] at halted ⊢
  rcases session.runFor_cases session.allowance with
    ⟨steps, steps_le, halts, run_eq⟩ | ⟨_, _, _, _, run_eq⟩ | ⟨_, run_eq⟩
  · rw [run_eq] at halted ⊢
    rw [← Outcome.halted.inj halted]
    exact ⟨steps_le, halts, rfl⟩
  · rw [run_eq] at halted
    contradiction
  · rw [run_eq] at halted
    cases limit_eq : session.configuration.limit <;> rw [limit_eq] at halted <;>
      contradiction

section Limited

variable {limit : Nat}

/-- The limit of a configuration is the allowance of its runs. -/
theorem allowance_of_limit
    (limited : session.configuration.limit = some limit) :
    session.allowance = limit := by
  rw [allowance, limited, Option.getD_some]

theorem run_of_limit
    (limited : session.configuration.limit = some limit) :
    session.run =
      ((session.runFor limit).session,
        (session.runFor limit).outcome (some limit)) := by
  rw [run, allowance_of_limit limited, limited]

/-- A limit leaves no run endless. -/
theorem run_ne_endless
    (limited : session.configuration.limit = some limit) :
    session.run.2 ≠ .endless := by
  rw [run_of_limit limited]
  dsimp only [Run.outcome]
  split
  · simp
  · simp
  · simp
  · contradiction

theorem HaltsAfter.run_eq
    {count : Nat}
    (halts : session.HaltsAfter count)
    (limited : session.configuration.limit = some limit)
    (count_le : count ≤ limit) :
    session.run = (session.after count, .halted count) := by
  rw [run_of_limit limited, halts.runFor_eq count_le]
  rfl

theorem FailsAfter.run_eq
    {count : Nat}
    {error : ExecutionError}
    (fails : session.FailsAfter count error)
    (limited : session.configuration.limit = some limit)
    (count_lt : count < limit) :
    session.run = (session.after (count + 1), .failed error) := by
  rw [run_of_limit limited, fails.runFor_eq count_lt]
  rfl

theorem Outlasts.run_eq
    (outlasts : session.Outlasts limit)
    (limited : session.configuration.limit = some limit) :
    session.run = (session.after limit, .failed (.stepLimit limit)) := by
  rw [run_of_limit limited, outlasts.runFor_eq]
  rfl

/-- The run loop never asks a halted machine for a step. -/
theorem run_ne_machineHalted
    (limited : session.configuration.limit = some limit) :
    session.run.2 ≠ .failed .machineHalted := by
  rcases session.haltsWithin_or_failsWithin_or_outlasts limit with
    ⟨count, count_le, halts⟩ | ⟨count, count_lt, error, fails⟩ | outlasts
  · rw [halts.run_eq limited count_le]
    exact Outcome.noConfusion
  · rw [fails.run_eq limited count_lt]
    intro outcome_eq
    exact fails.error_ne_machineHalted (Outcome.failed.inj outcome_eq)
  · rw [outlasts.run_eq limited]
    intro outcome_eq
    exact ExecutionError.noConfusion (Outcome.failed.inj outcome_eq)

/-- A run with a limit is its repeated steps, cut off exactly at the limit: just one of
the three ways to end applies, and decides the session and the outcome. -/
theorem run_eq_repeated_steps
    (limited : session.configuration.limit = some limit) :
    ((session.HaltsWithin limit ∨ session.FailsWithin limit ∨
          session.Outlasts limit) ∧
        ¬(session.HaltsWithin limit ∧ session.FailsWithin limit) ∧
        ¬(session.HaltsWithin limit ∧ session.Outlasts limit) ∧
        ¬(session.FailsWithin limit ∧ session.Outlasts limit)) ∧
      (∀ count ≤ limit,
        session.HaltsAfter count →
          session.run = (session.after count, .halted count)) ∧
      (∀ count < limit, ∀ error,
        session.FailsAfter count error →
          session.run = (session.after (count + 1), .failed error) ∧
            (session.after (count + 1)).machine =
              (session.after count).machine) ∧
      (session.Outlasts limit →
        session.run =
            (session.after limit, .failed (.stepLimit limit)) ∧
          (session.runFor session.allowance).cycles = limit) ∧
      session.run.2 ≠ .failed .machineHalted ∧
      (session.runFor session.allowance).cycles ≤ limit := by
  rw [allowance_of_limit limited]
  refine ⟨⟨?_, ?_, ?_, ?_⟩, ?_, ?_, ?_, ?_, ?_⟩
  · exact session.haltsWithin_or_failsWithin_or_outlasts limit
  · rintro ⟨halts, fails⟩
    exact halts.not_failsWithin fails
  · rintro ⟨halts, outlasts⟩
    exact outlasts.not_haltsWithin halts
  · rintro ⟨fails, outlasts⟩
    exact outlasts.not_failsWithin fails
  · intro count count_le halts
    exact halts.run_eq limited count_le
  · intro count count_lt error fails
    exact ⟨fails.run_eq limited count_lt, fails.machine_eq⟩
  · intro outlasts
    refine ⟨outlasts.run_eq limited, ?_⟩
    rw [outlasts.runFor_eq]
  · exact run_ne_machineHalted limited
  · exact session.runFor_cycles_le limit

end Limited

/-- A program that loads, prints and halts, with a limit of exactly its three
steps. -/
def haltingAtLimit : Session where
  configuration := { Configuration.standard with limit := some 3 }
  machine :=
    { Machine.initial with
      memory := Memory.zeroed.overlay [0x82, 0x00, 0x05, 0x47, 0x00, 0x01] }
  sink := .unbounded
  trace := #[]

theorem haltingAtLimit_haltsAfter : haltingAtLimit.HaltsAfter 3 where
  succeeds := by decide +kernel
  running := by decide +kernel
  halted := by decide +kernel

theorem run_eq_repeated_steps_haltingAtLimit :
    haltingAtLimit.configuration.limit = some 3 ∧
      haltingAtLimit.HaltsAfter 3 ∧
      haltingAtLimit.run = (haltingAtLimit.after 3, .halted 3) := by
  obtain ⟨_, halted, _⟩ :=
    run_eq_repeated_steps (show haltingAtLimit.configuration.limit = some 3 from rfl)
  refine ⟨rfl, haltingAtLimit_haltsAfter, ?_⟩
  exact halted 3 (by decide) haltingAtLimit_haltsAfter

end Session
end LS8
