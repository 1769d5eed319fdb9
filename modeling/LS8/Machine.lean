import LS8.Instruction
import LS8.Memory

/-!
# The machine

A machine is a program counter, memory, registers, flags and a status.  All of
it is plain data, and the host may change any part of it between steps.
-/

namespace LS8

/-- Whether a machine executes instructions. -/
inductive Status where
  | running
  | halted
  deriving DecidableEq, Repr

/-- The state of a machine. -/
structure Machine where
  /-- The address of the next instruction. -/
  pc : UInt8
  memory : Memory
  registers : Registers
  flags : Flags
  status : Status
  deriving DecidableEq

namespace Machine

/-- The machine after a reset. -/
def initial : Machine where
  pc := 0
  memory := .zeroed
  registers := .initial
  flags := .clear
  status := .running

/-- The machine executes nothing more. -/
def isHalted (machine : Machine) : Bool :=
  machine.status == .halted

/-- The value of a register. -/
def get (machine : Machine) (register : Register) : UInt8 :=
  machine.registers.get register

/-- Replace the value of a register. -/
def set (machine : Machine) (register : Register) (value : UInt8) : Machine :=
  { machine with registers := machine.registers.set register value }

/-- The stack pointer. -/
def stackPointer (machine : Machine) : UInt8 :=
  machine.registers.stackPointer

/-- Load an image into memory from address zero on. -/
def load (machine : Machine) (image : List UInt8) : Except LoadError Machine :=
  (machine.memory.load image).map fun memory => { machine with memory }

/-! ## The stack

The stack grows downwards and wraps around the ends of memory; running over or
under is not detected.
-/

/-- Lower the stack pointer by one and store a value there. -/
def push (machine : Machine) (value : UInt8) : Machine :=
  let top := machine.stackPointer - 1
  { machine with
    memory := machine.memory.write top value
    registers := machine.registers.setStackPointer top }

/-- The value at the stack pointer. -/
def top (machine : Machine) : UInt8 :=
  machine.memory.read machine.stackPointer

/-- Raise the stack pointer by one. -/
def drop (machine : Machine) : Machine :=
  { machine with
    registers := machine.registers.setStackPointer (machine.stackPointer + 1) }

/-- Take the value at the stack pointer off the stack. -/
def pop (machine : Machine) : UInt8 × Machine :=
  (machine.top, machine.drop)

@[simp] theorem stackPointer_push (machine : Machine) (value : UInt8) :
    (machine.push value).stackPointer = machine.stackPointer - 1 := by
  simp [push, stackPointer]

@[simp] theorem stackPointer_drop (machine : Machine) :
    machine.drop.stackPointer = machine.stackPointer + 1 := by
  simp [drop, stackPointer]

/-- The byte that lies a distance behind the program counter, wrapping around
the end of memory. -/
def fetch (machine : Machine) (distance : UInt8) : UInt8 :=
  machine.memory.read (machine.pc + distance)

@[simp] theorem fetch_zero (machine : Machine) :
    machine.fetch 0 = machine.memory.read machine.pc := by
  simp [fetch]

/-- The instruction at the program counter. -/
def instruction? (machine : Machine) : Option Instruction :=
  Instruction.decode? (machine.fetch 0) (machine.fetch 1) (machine.fetch 2)

/-- Move the program counter behind an instruction. -/
def advance (machine : Machine) (instruction : Instruction) : Machine :=
  { machine with pc := machine.pc + instruction.length }

end Machine
end LS8
