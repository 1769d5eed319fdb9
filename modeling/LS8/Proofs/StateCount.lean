import Mathlib.Data.Fintype.Pi
import Mathlib.Data.Fintype.Prod
import Mathlib.Data.Fintype.BigOperators
import LS8.Proofs.BoundedOutput

/-!
# The number of states

A machine has finitely many states, and the present one alone decides which state
follows.  On the way to a halt no state comes twice, so a machine that halts does
so within as many steps as it has states.  The allowance of a run without a limit
is at least that large: such a run finds every halt, and one that finds no end has
none.
-/

namespace LS8
namespace Machine

/-- The state of a machine as a tuple of finite types. -/
def code (machine : Machine) :
    Fin 256 × (Fin 256 → Fin 256) × (Fin 8 → Fin 256) × Option Ordering × Bool :=
  (machine.pc.toFin, fun address => (machine.memory.read (.ofFin address)).toFin,
    fun register => (machine.get register).toFin, machine.flags.last,
    machine.isHalted)

theorem status_eq_of_isHalted_eq
    {left right : Machine}
    (same : left.isHalted = right.isHalted) :
    left.status = right.status := by
  unfold isHalted at same
  cases leftStatus : left.status <;> cases rightStatus : right.status <;> simp_all

theorem code_injective : Function.Injective code := by
  intro left right code_eq
  simp only [code, Prod.mk.injEq] at code_eq
  obtain ⟨pc_eq, memory_eq, registers_eq, flags_eq, halted_eq⟩ := code_eq
  have same_memory : left.memory = right.memory := by
    apply Memory.ext
    intro address
    rw [← UInt8.toFin_inj]
    simpa using congrFun memory_eq address.toFin
  have same_registers : left.registers = right.registers := by
    apply Registers.ext
    intro register
    rw [← UInt8.toFin_inj]
    exact congrFun registers_eq register
  have same_status : left.status = right.status := status_eq_of_isHalted_eq halted_eq
  obtain ⟨leftPc, leftMemory, leftRegisters, ⟨leftLast⟩, leftStatus⟩ := left
  obtain ⟨rightPc, rightMemory, rightRegisters, ⟨rightLast⟩, rightStatus⟩ := right
  rw [mk.injEq, Flags.mk.injEq]
  exact ⟨UInt8.toFin_inj.mp pc_eq, same_memory, same_registers, flags_eq, same_status⟩

/-- There are not more different machines than the number of states says. -/
theorem le_stateCount_of_injective
    {count : Nat}
    (machines : Fin count → Machine)
    (distinct : Function.Injective machines) :
    count ≤ stateCount := by
  have card_le := Fintype.card_le_of_injective _ (code_injective.comp distinct)
  simp only [Fintype.card_prod, Fintype.card_fun, Fintype.card_fin,
    Fintype.card_option, Fintype.card_bool] at card_le
  calc
    count ≤ 256 * (256 ^ 256 * (256 ^ 8 * (4 * 2))) := card_le
    _ = stateCount := by decide +kernel

end Machine

namespace Session

variable {session : Session} {count : Nat}

/-- Machines that are the same go on the same as long as their steps succeed. -/
theorem Succeeds.machine_after_add
    {left right steps : Nat}
    (succeeds : session.Succeeds (right + steps))
    (left_le : left ≤ right)
    (same : (session.after left).machine = (session.after right).machine) :
    (session.after (left + steps)).machine =
      (session.after (right + steps)).machine := by
  induction steps with
  | zero => exact same
  | succ steps inductionHypothesis =>
      have earlier := inductionHypothesis (succeeds.mono (by omega))
      obtain ⟨leftEffect, leftExecuted, left_eq⟩ :=
        succeeds.effect (show left + steps < _ by omega)
      obtain ⟨rightEffect, rightExecuted, right_eq⟩ :=
        succeeds.effect (show right + steps < _ by omega)
      rw [earlier, rightExecuted] at leftExecuted
      rw [← Nat.add_assoc, ← Nat.add_assoc, left_eq, right_eq,
        Except.ok.inj leftExecuted]

/-- On the way to a machine that makes no step no state comes twice. -/
theorem Succeeds.machine_ne
    {error : ExecutionError}
    (succeeds : session.Succeeds count)
    (refused :
      (session.after count).machine.next session.configuration.policy =
        .error error)
    {left right : Nat}
    (left_lt : left < right)
    (right_le : right ≤ count) :
    (session.after left).machine ≠ (session.after right).machine := by
  intro same
  obtain ⟨steps, rfl⟩ := Nat.exists_eq_add_of_le right_le
  have last_eq := succeeds.machine_after_add (Nat.le_of_lt left_lt) same
  obtain ⟨effect, executed, _⟩ :=
    succeeds.effect (show left + steps < right + steps by omega)
  rw [last_eq, refused] at executed
  contradiction

theorem Succeeds.lt_stateCount
    {error : ExecutionError}
    (succeeds : session.Succeeds count)
    (refused :
      (session.after count).machine.next session.configuration.policy =
        .error error) :
    count < Machine.stateCount := by
  apply Machine.le_stateCount_of_injective
    fun index : Fin (count + 1) => (session.after index).machine
  intro left right same
  apply Fin.ext
  rcases Nat.lt_trichotomy left right with left_lt | same_index | right_lt
  · exact absurd same
      (succeeds.machine_ne refused left_lt (Nat.le_of_lt_succ right.isLt))
  · exact same_index
  · exact absurd same.symm
      (succeeds.machine_ne refused right_lt (Nat.le_of_lt_succ left.isLt))

theorem HaltsAfter.lt_stateCount (halts : session.HaltsAfter count) :
    count < Machine.stateCount :=
  halts.succeeds.lt_stateCount (Machine.next_of_halted halts.halted _)

theorem FailsAfter.lt_stateCount
    {error : ExecutionError}
    (fails : session.FailsAfter count error)
    (accepting : session.sink.room = none) :
    count < Machine.stateCount :=
  fails.succeeds.lt_stateCount (fails.next_eq_error accepting)

theorem stateCount_le_horizon (session : Session) :
    Machine.stateCount ≤ session.horizon :=
  Nat.le_mul_of_pos_right _ (Nat.succ_pos _)

section Unlimited

variable (unlimited : session.configuration.limit = none)

include unlimited

theorem allowance_of_no_limit : session.allowance = session.horizon := by
  rw [allowance, unlimited, Option.getD_none]

/-- A run without a limit finds every halt. -/
theorem HaltsAfter.run_eq_of_no_limit (halts : session.HaltsAfter count) :
    session.run = (session.after count, .halted count) := by
  have count_le : count ≤ session.allowance := by
    rw [allowance_of_no_limit unlimited]
    exact Nat.le_trans (Nat.le_of_lt halts.lt_stateCount) session.stateCount_le_horizon
  rw [run, halts.runFor_eq count_le]
  rfl

/-- A run without a limit whose output is always accepted is endless exactly when
all of its steps succeed for ever. -/
theorem run_eq_endless_iff (accepting : session.sink.room = none) :
    session.run.2 = .endless ↔ ∀ count, session.Outlasts count := by
  constructor
  · intro endless count
    have outlasts : session.Outlasts session.horizon := by
      rw [run, allowance_of_no_limit unlimited] at endless
      rcases session.runFor_cases session.horizon with
        ⟨_, _, _, run_eq⟩ | ⟨_, _, _, _, run_eq⟩ | ⟨outlasts, _⟩
      · rw [run_eq] at endless
        contradiction
      · rw [run_eq] at endless
        contradiction
      · exact outlasts
    rcases session.haltsWithin_or_failsWithin_or_outlasts count with
      ⟨steps, _, halts⟩ | ⟨steps, _, error, fails⟩ | forever
    · have steps_le : steps ≤ session.horizon :=
        Nat.le_trans (Nat.le_of_lt halts.lt_stateCount) session.stateCount_le_horizon
      exact absurd ⟨steps, steps_le, halts⟩ outlasts.not_haltsWithin
    · have steps_lt : steps < session.horizon :=
        Nat.lt_of_lt_of_le (fails.lt_stateCount accepting)
          session.stateCount_le_horizon
      exact absurd ⟨steps, steps_lt, error, fails⟩ outlasts.not_failsWithin
    · exact forever
  · intro forever
    rw [run, (forever session.allowance).runFor_eq, unlimited]
    rfl

end Unlimited

end Session
end LS8
