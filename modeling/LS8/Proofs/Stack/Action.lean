import LS8.Proofs.Stack.Layout
import LS8.Proofs.Step

/-!
# Stack actions of single instructions

What an instruction does to the stack is one of three actions: it pushes a
value, it pops one, or it keeps the stack.  An instruction that stores nothing
in the stack pointer does to the machine's stack what its action does to a list
of values.
-/

namespace LS8

/-- The register that an instruction stores a value in.  Moving the stack
pointer does not count. -/
def Instruction.target? : Instruction → Option Register
  | .pop target => some target
  | .ldi target _ => some target
  | .alu .cmp _ _ => none
  | .alu _ first _ => some first
  | _ => none

namespace Stack

/-- What an instruction does to the stack. -/
inductive Action where
  | push (value : UInt8)
  | pop
  | keep

/-- The effect of an action on a list of values, newest first.  There is
nothing to pop from the empty list. -/
def Action.apply : Action → List UInt8 → Option (List UInt8)
  | .push value, stack => some (value :: stack)
  | .pop, stack => stack.tail?
  | .keep, stack => some stack

/-- The effect of an action on the stack of a machine. -/
def Action.move : Action → Machine → Machine
  | .push value, machine => machine.push value
  | .pop, machine => machine.drop
  | .keep, machine => machine

end Stack

namespace Machine

/-- What the next instruction does to the stack: a call pushes the address two
bytes behind its own. -/
def stackAction (machine : Machine) : Stack.Action :=
  match machine.instruction? with
  | some (.push source) => .push (machine.get source)
  | some (.call _) => .push (machine.pc + 2)
  | some (.pop _) => .pop
  | some .ret => .pop
  | _ => .keep

/-- An instruction that stores nothing in the stack pointer leaves the stack as
its action says. -/
theorem execute_move
    {machine : Machine}
    {instruction : Instruction}
    (decoded : machine.instruction? = some instruction)
    (kept : instruction.target? ≠ some .stackPointer) :
    (machine.execute instruction).machine.memory =
        (machine.stackAction.move machine).memory ∧
      (machine.execute instruction).machine.stackPointer =
        (machine.stackAction.move machine).stackPointer := by
  rw [stackAction, decoded]
  cases instruction with
  | hlt => exact ⟨rfl, rfl⟩
  | ret => exact ⟨rfl, rfl⟩
  | push source => exact ⟨rfl, rfl⟩
  | prn source => exact ⟨rfl, rfl⟩
  | jmp target => exact ⟨rfl, rfl⟩
  | pop target =>
      have different : Register.stackPointer ≠ target := by
        intro equal
        exact kept (congrArg some equal.symm)
      exact ⟨rfl, Registers.get_set_of_ne _ _ different⟩
  | ldi target value =>
      have different : Register.stackPointer ≠ target := by
        intro equal
        exact kept (congrArg some equal.symm)
      exact ⟨rfl, Registers.get_set_of_ne _ _ different⟩
  | call target =>
      rw [execute, Instruction.length_call]
      exact ⟨rfl, rfl⟩
  | jeq target =>
      simp only [execute, jumpIf]
      split <;> exact ⟨rfl, rfl⟩
  | jne target =>
      simp only [execute, jumpIf]
      split <;> exact ⟨rfl, rfl⟩
  | alu op first second =>
      simp only [execute, calculate, AluOp.apply]
      cases computed : op.compute (machine.registers.get first)
          (machine.registers.get second) with
      | comparison outcome => exact ⟨rfl, rfl⟩
      | zeroDivisor => exact ⟨rfl, rfl⟩
      | value byte =>
          have target_eq : (Instruction.alu op first second).target? =
              some first := by
            cases op with
            | cmp => simp [AluOp.compute] at computed
            | _ => rfl
          have different : Register.stackPointer ≠ first := by
            intro equal
            rw [target_eq] at kept
            exact kept (congrArg some equal.symm)
          exact ⟨rfl, Registers.get_set_of_ne _ _ different⟩

/-- A machine that makes a step leaves the stack as its action says. -/
theorem next_move
    {machine : Machine}
    {policy : UnknownOpcodePolicy}
    {effect : Effect}
    (executed : machine.next policy = .ok effect)
    (kept : ∀ instruction, machine.instruction? = some instruction →
      instruction.target? ≠ some .stackPointer) :
    effect.machine.memory = (machine.stackAction.move machine).memory ∧
      effect.machine.stackPointer =
        (machine.stackAction.move machine).stackPointer := by
  obtain ⟨_, ⟨instruction, decoded, rfl⟩ | ⟨unknown, _, rfl⟩⟩ :=
    next_eq_ok_iff.mp executed
  · exact execute_move decoded (kept instruction decoded)
  · rw [stackAction, unknown]
    exact ⟨rfl, rfl⟩

end Machine

namespace Stack

/-- An action that a list allows does to a machine's stack what it does to the
list. -/
theorem Holds.move
    {base : UInt8}
    {machine : Machine}
    {stack next : List UInt8}
    {action : Action}
    (holds : Holds base machine stack)
    (applied : action.apply stack = some next)
    (bounded : next.length ≤ 256) :
    Holds base (action.move machine) next := by
  cases action with
  | keep =>
      have next_eq := Option.some.inj applied
      rw [← next_eq]
      exact holds
  | push value =>
      have next_eq := Option.some.inj applied
      rw [← next_eq] at bounded ⊢
      rw [List.length_cons] at bounded
      exact holds.push (by omega) value
  | pop =>
      cases stack with
      | nil => simp [Action.apply] at applied
      | cons value rest =>
          have next_eq := Option.some.inj applied
          rw [← next_eq]
          exact holds.drop

/-- An action changes no cell but the slot of the element that it adds. -/
theorem Holds.read_move
    {base : UInt8}
    {machine : Machine}
    {stack next : List UInt8}
    {action : Action}
    (holds : Holds base machine stack)
    (applied : action.apply stack = some next)
    {address : UInt8}
    (outside : ∀ position < next.length, address ≠ slot base position) :
    (action.move machine).memory.read address = machine.memory.read address := by
  cases action with
  | keep => rfl
  | pop => rfl
  | push value =>
      have next_eq := Option.some.inj applied
      rw [Action.move, holds.memory_push]
      apply Memory.read_write_of_ne
      apply outside
      rw [← next_eq, List.length_cons]
      omega

/-- What lies below an action's level stays where it is. -/
theorem Action.suffix_apply
    {below stack next : List UInt8}
    {action : Action}
    (suffix : below <:+ stack)
    (applied : action.apply stack = some next)
    (deep : below.length ≤ next.length) :
    below <:+ next := by
  cases action with
  | keep =>
      have next_eq := Option.some.inj applied
      rwa [← next_eq]
  | push value =>
      have next_eq := Option.some.inj applied
      rw [← next_eq]
      exact suffix.trans (List.suffix_cons value stack)
  | pop =>
      cases stack with
      | nil => simp [Action.apply] at applied
      | cons value rest =>
          have next_eq := Option.some.inj applied
          rw [← next_eq] at deep ⊢
          rcases List.suffix_cons_iff.mp suffix with whole | inRest
          · rw [whole, List.length_cons] at deep
            omega
          · exact inRest

end Stack

end LS8
