import LS8.Machine.Execution

/-!
# What an instruction depends on

Decoding always looks at three bytes, but an instruction depends on no more
operand bytes than its opcode counts.  Beyond them it reads memory only to take a
value off the stack, and it changes memory only to put one there: in any other
memory with the same value at the top, it does the same to the rest of the
machine, and stores the same value in the same cell.
-/

namespace LS8
namespace Machine

theorem instruction?_of_opcode
    {machine : Machine}
    {opcode : Opcode}
    (known : Opcode.ofByte? (machine.fetch 0) = some opcode) :
    machine.instruction? =
      some (.ofOpcode opcode (machine.fetch 1) (machine.fetch 2)) := by
  rw [instruction?, Instruction.decode?, known, Option.map_some]

/-- Operand bytes that an opcode does not count make no difference. -/
theorem execute_ofOpcode_congr
    {opcode : Opcode}
    {first second otherFirst otherSecond : UInt8}
    (firstCounted :
      1 ≤ operandCount opcode.byte → first = otherFirst)
    (secondCounted :
      2 ≤ operandCount opcode.byte → second = otherSecond)
    (machine : Machine) :
    machine.execute (.ofOpcode opcode first second) =
      machine.execute (.ofOpcode opcode otherFirst otherSecond) := by
  cases opcode with
  | hlt => rfl
  | ret => rfl
  | ldi => rw [firstCounted (by decide), secondCounted (by decide)]
  | alu op =>
      cases op with
      | not =>
          rw [firstCounted (by decide)]
          rfl
      | _ => rw [firstCounted (by decide), secondCounted (by decide)]
  | _ =>
      rw [firstCounted (by decide)]
      rfl

/-- The machine with another memory. -/
def withMemory (machine : Machine) (memory : Memory) : Machine :=
  { machine with memory }

@[simp] theorem memory_withMemory (machine : Machine) (memory : Memory) :
    (machine.withMemory memory).memory = memory := rfl

@[simp] theorem withMemory_self (machine : Machine) :
    machine.withMemory machine.memory = machine := rfl

/-- The addresses of the stack that an opcode reads. -/
def stackReads (machine : Machine) : Opcode → List UInt8
  | .pop | .ret => [machine.stackPointer]
  | _ => []

/-- The addresses of the stack that an opcode writes. -/
def stackWrites (machine : Machine) : Opcode → List UInt8
  | .push | .call => [machine.stackPointer - 1]
  | _ => []

/-- The memory in which an instruction has stored what it puts on the stack. -/
def store
    (machine : Machine)
    (instruction : Instruction)
    (memory : Memory) :
    Memory :=
  match instruction with
  | .push source =>
      memory.write (machine.stackPointer - 1) (machine.get source)
  | .call _ =>
      memory.write (machine.stackPointer - 1)
        (machine.pc + instruction.length)
  | _ => memory

theorem jumpIf_withMemory
    (machine : Machine)
    (memory : Memory)
    (condition : Bool)
    (instruction : Instruction)
    (target : Register) :
    (machine.withMemory memory).jumpIf condition instruction target =
      (machine.jumpIf condition instruction target).withMemory memory := by
  cases condition <;> rfl

theorem calculate_withMemory
    (machine : Machine)
    (memory : Memory)
    (instruction : Instruction)
    (op : AluOp)
    (first second : Register) :
    (machine.withMemory memory).calculate instruction op first second =
      ⟨(machine.calculate instruction op first second).machine.withMemory memory,
        (machine.calculate instruction op first second).line⟩ := by
  simp only [calculate, withMemory]
  cases op.apply machine.registers machine.flags first second with
  | ok result => rfl
  | error error => rfl

/-- In another memory with the same values where the instruction reads the
stack, it does the same. -/
theorem execute_withMemory
    {machine : Machine}
    {instruction : Instruction}
    {memory : Memory}
    (same : ∀ address ∈ machine.stackReads instruction.opcode,
      memory.read address = machine.memory.read address) :
    (machine.withMemory memory).execute instruction =
      ⟨(machine.execute instruction).machine.withMemory
          (machine.store instruction memory),
        (machine.execute instruction).line⟩ := by
  have top_eq : machine.stackPointer ∈ machine.stackReads instruction.opcode →
      (machine.withMemory memory).top = machine.top :=
    same machine.stackPointer
  cases instruction with
  | ret =>
      rw [execute, top_eq (List.mem_singleton_self _)]
      rfl
  | pop target =>
      rw [execute, top_eq (List.mem_singleton_self _)]
      rfl
  | jeq target =>
      exact congrArg (Effect.mk · none)
        (jumpIf_withMemory machine memory _ (.jeq target) target)
  | jne target =>
      exact congrArg (Effect.mk · none)
        (jumpIf_withMemory machine memory _ (.jne target) target)
  | alu op first second =>
      exact calculate_withMemory machine memory (.alu op first second) op first
        second
  | _ => rfl

/-- An instruction changes memory by what it stores. -/
theorem memory_execute (machine : Machine) (instruction : Instruction) :
    (machine.execute instruction).machine.memory =
      machine.store instruction machine.memory := by
  have unchanged :
      (machine.withMemory machine.memory).execute instruction =
        ⟨(machine.execute instruction).machine.withMemory
            (machine.store instruction machine.memory),
          (machine.execute instruction).line⟩ :=
    execute_withMemory fun _ _ => rfl
  rw [withMemory_self] at unchanged
  rw [unchanged, memory_withMemory]

/-- Memories that agree on a cell agree on it after storing, and they agree on
the cell where the instruction stores in any case. -/
theorem read_store_eq
    {machine : Machine}
    {instruction : Instruction}
    {memory other : Memory}
    {address : UInt8}
    (same : address ∉ machine.stackWrites instruction.opcode →
      other.read address = memory.read address) :
    (machine.store instruction other).read address =
      (machine.store instruction memory).read address := by
  cases instruction with
  | push source =>
      rcases Decidable.em (address = machine.stackPointer - 1) with rfl | different
      · simp [store]
      · simp only [store, Memory.read_write_of_ne _ _ different]
        exact same (by simpa [stackWrites, Instruction.opcode] using different)
  | call target =>
      rcases Decidable.em (address = machine.stackPointer - 1) with rfl | different
      · simp [store]
      · simp only [store, Memory.read_write_of_ne _ _ different]
        exact same (by simpa [stackWrites, Instruction.opcode] using different)
  | _ => exact same List.not_mem_nil

/-- An instruction that puts something on the stack prints nothing. -/
theorem line_execute_of_mem_stackWrites
    {machine : Machine}
    {instruction : Instruction}
    {address : UInt8}
    (written : address ∈ machine.stackWrites instruction.opcode) :
    (machine.execute instruction).line = none := by
  cases instruction with
  | push source => rfl
  | call target => rfl
  | _ => exact absurd written List.not_mem_nil

end Machine
end LS8
