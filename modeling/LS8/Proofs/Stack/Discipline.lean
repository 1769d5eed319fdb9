import LS8.Proofs.Iteration
import LS8.Proofs.Stack.Action

/-!
# Stack discipline

A run is followed by a list: pushes and calls put a value in front, pops and
returns take one away.  As long as the program stores nothing in the stack
pointer itself, the list is never popped when it is empty, and it never grows
beyond the 256 cells, the machine's stack holds exactly this list.  Pops then
give the values that were pushed, returns go back behind their calls, and no
cell changes but those of the stack.
-/

namespace LS8

namespace Session

/-- The list that follows a session's stack, after a number of steps. -/
def stackAfter (session : Session) : Nat → Option (List UInt8)
  | 0 => some []
  | count + 1 =>
      (session.stackAfter count).bind
        (session.after count).machine.stackAction.apply

/-- The length of the list after a number of steps. -/
def depthAfter (session : Session) (count : Nat) : Nat :=
  ((session.stackAfter count).getD []).length

/-- The greatest length of the list within a number of steps. -/
def deepest (session : Session) : Nat → Nat
  | 0 => 0
  | count + 1 => max (session.deepest count) (session.depthAfter (count + 1))

/-- The first steps of a session succeed, store nothing in the stack pointer,
and never take the list out of its bounds. -/
structure KeepsStack (session : Session) (count : Nat) : Prop where
  succeeds : session.Succeeds count
  kept : ∀ index < count, ∀ instruction,
    (session.after index).machine.instruction? = some instruction →
      instruction.target? ≠ some .stackPointer
  tracked : ∀ index ≤ count, ∃ stack,
    session.stackAfter index = some stack ∧ stack.length ≤ 256

end Session

namespace Session

variable {session : Session} {count : Nat}

theorem depthAfter_le_deepest
    {index : Nat}
    (index_le : index ≤ count) :
    session.depthAfter index ≤ session.deepest count := by
  induction count with
  | zero =>
      have index_eq : index = 0 := by omega
      rw [index_eq]
      exact Nat.le_refl 0
  | succ count inductionHypothesis =>
      rcases Nat.lt_or_ge count index with last | earlier
      · have index_eq : index = count + 1 := by omega
        rw [index_eq]
        exact Nat.le_max_right _ _
      · exact Nat.le_trans (inductionHypothesis earlier) (Nat.le_max_left _ _)

theorem depthAfter_eq
    {index : Nat}
    {stack : List UInt8}
    (stack_eq : session.stackAfter index = some stack) :
    session.depthAfter index = stack.length := by
  rw [depthAfter, stack_eq, Option.getD_some]

namespace KeepsStack

/-- The action of each step is one that the list allows. -/
theorem applied
    (keeps : session.KeepsStack count)
    {index : Nat}
    (index_lt : index < count)
    {stack : List UInt8}
    (stack_eq : session.stackAfter index = some stack) :
    ∃ next,
      session.stackAfter (index + 1) = some next ∧
        (session.after index).machine.stackAction.apply stack = some next ∧
        next.length ≤ 256 := by
  obtain ⟨next, next_eq, bounded⟩ := keeps.tracked (index + 1) index_lt
  refine ⟨next, next_eq, ?_, bounded⟩
  rw [stackAfter, stack_eq, Option.bind_some] at next_eq
  exact next_eq

/-- After every step the machine's stack holds the list, and no cell has
changed but the slots that the list has reached. -/
theorem holds
    (keeps : session.KeepsStack count)
    {index : Nat}
    (index_le : index ≤ count) :
    ∃ stack,
      session.stackAfter index = some stack ∧
        Stack.Holds session.machine.stackPointer (session.after index).machine
          stack ∧
        ∀ address,
          (∀ position < session.deepest index,
            address ≠ Stack.slot session.machine.stackPointer position) →
          (session.after index).machine.memory.read address =
            session.machine.memory.read address := by
  induction index with
  | zero => exact ⟨[], rfl, Stack.holds_nil session.machine, fun _ _ => rfl⟩
  | succ index inductionHypothesis =>
      obtain ⟨stack, stack_eq, holds, frame⟩ := inductionHypothesis (by omega)
      obtain ⟨next, next_eq, applied, bounded⟩ := keeps.applied index_le stack_eq
      obtain ⟨effect, executed, machine_eq⟩ := keeps.succeeds.effect index_le
      obtain ⟨memory_eq, stackPointer_eq⟩ :=
        Machine.next_move executed (keeps.kept index index_le)
      refine ⟨next, next_eq, ?_, ?_⟩
      · rw [machine_eq]
        exact (holds.move applied bounded).congr memory_eq stackPointer_eq
      · intro address outside
        have next_le : next.length ≤ session.deepest (index + 1) := by
          rw [← depthAfter_eq next_eq]
          exact depthAfter_le_deepest (Nat.le_refl _)
        rw [machine_eq, memory_eq, holds.read_move applied]
        · apply frame
          intro position position_lt
          have deepest_le : session.deepest index ≤ session.deepest (index + 1) :=
            Nat.le_max_left _ _
          exact outside position (by omega)
        · intro position position_lt
          exact outside position (by omega)

/-- Before a pop or a return the list is not empty, and its newest element is
at the top of the machine's stack. -/
theorem top
    (keeps : session.KeepsStack count)
    {index : Nat}
    (index_lt : index < count)
    (pops : (session.after index).machine.stackAction = .pop) :
    ∃ newest rest,
      session.stackAfter index = some (newest :: rest) ∧
        (session.after index).machine.top = newest := by
  obtain ⟨stack, stack_eq, holds, _⟩ := keeps.holds (Nat.le_of_lt index_lt)
  obtain ⟨next, _, applied, _⟩ := keeps.applied index_lt stack_eq
  rw [pops] at applied
  cases stack with
  | nil => simp [Stack.Action.apply] at applied
  | cons newest rest => exact ⟨newest, rest, stack_eq, holds.top⟩

/-- The instruction at the program counter is the one that a step executes. -/
theorem machine_after
    (keeps : session.KeepsStack count)
    {index : Nat}
    (index_lt : index < count)
    {instruction : Instruction}
    (decoded : (session.after index).machine.instruction? = some instruction) :
    (session.after (index + 1)).machine =
      ((session.after index).machine.execute instruction).machine := by
  obtain ⟨effect, executed, machine_eq⟩ := keeps.succeeds.effect index_lt
  have running := keeps.succeeds.running index_lt
  rw [Machine.next_of_instruction running decoded] at executed
  rw [machine_eq, ← Except.ok.inj executed]

/-- A pop gives the newest element of the list. -/
theorem pop
    (keeps : session.KeepsStack count)
    {index : Nat}
    (index_lt : index < count)
    {target : Register}
    (decoded :
      (session.after index).machine.instruction? = some (.pop target)) :
    ∃ newest rest,
      session.stackAfter index = some (newest :: rest) ∧
        (session.after (index + 1)).machine.get target = newest := by
  have pops : (session.after index).machine.stackAction = .pop := by
    rw [Machine.stackAction, decoded]
  obtain ⟨newest, rest, stack_eq, top_eq⟩ := keeps.top index_lt pops
  refine ⟨newest, rest, stack_eq, ?_⟩
  rw [keeps.machine_after index_lt decoded, ← top_eq]
  exact Registers.get_set_self _ _ _

/-- A return goes to the newest element of the list. -/
theorem ret
    (keeps : session.KeepsStack count)
    {index : Nat}
    (index_lt : index < count)
    (decoded : (session.after index).machine.instruction? = some .ret) :
    ∃ newest rest,
      session.stackAfter index = some (newest :: rest) ∧
        (session.after (index + 1)).machine.pc = newest := by
  have pops : (session.after index).machine.stackAction = .pop := by
    rw [Machine.stackAction, decoded]
  obtain ⟨newest, rest, stack_eq, top_eq⟩ := keeps.top index_lt pops
  refine ⟨newest, rest, stack_eq, ?_⟩
  rw [keeps.machine_after index_lt decoded, ← top_eq]
  rfl

/-- As long as the list is not shorter than it was, its older part stays. -/
theorem suffix
    (keeps : session.KeepsStack count)
    {first index : Nat}
    (first_le : first ≤ index)
    (index_le : index ≤ count)
    (above : ∀ between, first ≤ between → between ≤ index →
      session.depthAfter first ≤ session.depthAfter between)
    {older stack : List UInt8}
    (older_eq : session.stackAfter first = some older)
    (stack_eq : session.stackAfter index = some stack) :
    older <:+ stack := by
  obtain ⟨distance, rfl⟩ := Nat.exists_eq_add_of_le first_le
  induction distance generalizing stack with
  | zero =>
      have same : older = stack :=
        Option.some.inj (older_eq.symm.trans stack_eq)
      subst same
      exact List.suffix_refl older
  | succ distance inductionHypothesis =>
      obtain ⟨current, current_eq, _⟩ :=
        keeps.tracked (first + distance) (by omega)
      have index_lt : first + distance < count := index_le
      obtain ⟨next, next_eq, applied, _⟩ := keeps.applied index_lt current_eq
      have same : some next = some stack := next_eq.symm.trans stack_eq
      rw [← Option.some.inj same]
      have suffix : older <:+ current :=
        inductionHypothesis (by omega) (by omega)
          (fun between le ge => above between le (by omega)) current_eq
      have deep := above (first + distance + 1) (by omega) (by omega)
      rw [depthAfter_eq older_eq, depthAfter_eq next_eq] at deep
      exact Stack.Action.suffix_apply suffix applied deep

end KeepsStack

end Session
end LS8
