import Mathlib
import LS8.Machine

/-!
# The instruction set on natural numbers

This module states what each of the 22 instruction bytes does without any of
the machine's own operations.  A state is described by natural numbers, the
three bytes at the program counter are read before anything changes, and all
arithmetic is that of natural numbers, reduced modulo 256 where it could leave
the range of a byte.  Bytes that start no instruction have no next state.
-/

namespace LS8
namespace InstructionSet

/-- The cell at an address modulo 256. -/
def cellAt (address : Nat) : Fin 256 :=
  ⟨address % 256, Nat.mod_lt address (by decide)⟩

/-- The register with a number modulo 8. -/
def registerAt (number : Nat) : Fin 8 :=
  ⟨number % 8, Nat.mod_lt number (by decide)⟩

/-- A machine described by natural numbers. -/
structure State where
  pc : Nat
  cell : Fin 256 → Nat
  register : Fin 8 → Nat
  /-- The flag register: 1 for equal, 2 for greater, 4 for less. -/
  flags : Nat
  halted : Bool

namespace State

/-- The description of a machine. -/
def ofMachine (machine : Machine) : State where
  pc := machine.pc.toNat
  cell := fun address => (machine.memory.read (UInt8.ofFin address)).toNat
  register := fun number => (machine.registers.get number).toNat
  flags := machine.flags.bits.toNat
  halted := machine.isHalted

/-- The value of the cell at an address modulo 256. -/
def load (state : State) (address : Nat) : Nat :=
  state.cell (cellAt address)

/-- Replace the value of the cell at an address modulo 256. -/
def store (state : State) (address value : Nat) : State :=
  { state with
    cell := Function.update state.cell (cellAt address) value }

/-- The value of the register with a number modulo 8. -/
def get (state : State) (number : Nat) : Nat :=
  state.register (registerAt number)

/-- Replace the value of the register with a number modulo 8. -/
def set (state : State) (number value : Nat) : State :=
  { state with
    register := Function.update state.register (registerAt number) value }

/-- Replace the program counter by an address modulo 256. -/
def goto (state : State) (address : Nat) : State :=
  { state with pc := address % 256 }

end State

/-- What an arithmetic instruction computes. -/
inductive Result where
  /-- A value for the first register. -/
  | value (number : Nat)
  /-- A value for the flag register. -/
  | flags (number : Nat)
  /-- The divisor is zero. -/
  | zeroDivisor

/-- What an instruction byte computes from the values of its two registers, if
it belongs to an arithmetic instruction. -/
def compute (op x y : Nat) : Option Result :=
  match op with
  | 0x69 => some (.value (255 - x))
  | 0xA0 => some (.value ((x + y) % 256))
  | 0xA1 => some (.value ((x + 256 - y) % 256))
  | 0xA2 => some (.value (x * y % 256))
  | 0xA3 => some (if y = 0 then .zeroDivisor else .value (x / y))
  | 0xA4 => some (if y = 0 then .zeroDivisor else .value (x % y))
  | 0xA7 => some (.flags (if x = y then 1 else if y < x then 2 else 4))
  | 0xA8 => some (.value (x &&& y))
  | 0xAA => some (.value (x ||| y))
  | 0xAB => some (.value (x ^^^ y))
  | 0xAC => some (.value (x * 2 ^ y % 256))
  | 0xAD => some (.value (x / 2 ^ y))
  | _ => none

/-- The state after an arithmetic instruction and the text it writes.  After a
division by zero the program counter stays. -/
def finish (before : State) (length a : Nat) : Result → State × String
  | .value number => ((before.set a number).goto (before.pc + length), "")
  | .flags number =>
      ({ before with flags := number }.goto (before.pc + length), "")
  | .zeroDivisor => ({ before with halted := true }, "Divide by Zero Error!\n")

/-- The state after the instruction with given bytes and the text it writes. -/
def execute (before : State) (op a b : Nat) : Option (State × String) :=
  let length := 1 + op >>> 6
  let next := before.pc + length
  let sp := before.get 7
  let equal := before.flags % 2 = 1
  match op with
  -- HLT
  | 0x01 => some ({ before with halted := true }, "")
  -- RET
  | 0x11 => some ((before.set 7 ((sp + 1) % 256)).goto (before.load sp), "")
  -- PUSH: the register is read before the stack pointer moves
  | 0x45 =>
      some (((before.store (sp + 255) (before.get a)).set 7
        ((sp + 255) % 256)).goto next, "")
  -- POP: the register is written after the stack pointer has moved
  | 0x46 =>
      some (((before.set 7 ((sp + 1) % 256)).set a (before.load sp)).goto next,
        "")
  -- PRN
  | 0x47 => some (before.goto next, Nat.repr (before.get a) ++ "\n")
  -- CALL: the register is read after the stack pointer has moved
  | 0x50 =>
      let called := (before.store (sp + 255) ((before.pc + 2) % 256)).set 7
        ((sp + 255) % 256)
      some (called.goto (called.get a), "")
  -- JMP, JEQ and JNE
  | 0x54 => some (before.goto (before.get a), "")
  | 0x55 => some (before.goto (if equal then before.get a else next), "")
  | 0x56 => some (before.goto (if equal then next else before.get a), "")
  -- LDI
  | 0x82 => some ((before.set a b).goto next, "")
  | _ =>
      (compute op (before.get a) (before.get b)).map (finish before length a)

/-- The state after the instruction at the program counter and the text it
writes, if the byte there starts an instruction. -/
def step (before : State) : Option (State × String) :=
  execute before
    (before.load before.pc)
    (before.load (before.pc + 1))
    (before.load (before.pc + 2))

end InstructionSet
end LS8
