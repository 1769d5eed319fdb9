/-!
# Registers

The eight byte registers.  An operand byte names the register given by its low
three bits, and the last register is the stack pointer.
-/

namespace LS8

/-- One of the eight registers. -/
abbrev Register := Fin 8

namespace Register

/-- The register that an operand byte names. -/
def ofOperand (operand : UInt8) : Register :=
  Fin.ofNat 8 operand.toNat

/-- The register that holds the stack pointer. -/
def stackPointer : Register := 7

end Register

/-- The contents of the eight registers. -/
structure Registers where
  /-- The registers in order of number. -/
  values : Vector UInt8 8
  deriving DecidableEq

namespace Registers

/-- The stack pointer after a reset: pushing starts just below this address. -/
def initialStackPointer : UInt8 := 0xF4

/-- The value of a register. -/
def get (registers : Registers) (register : Register) : UInt8 :=
  registers.values[register]

/-- Replace the value of a register. -/
def set (registers : Registers) (register : Register) (value : UInt8) :
    Registers :=
  ⟨registers.values.set register value⟩

/-- The registers after a reset: all zero but the stack pointer. -/
def initial : Registers :=
  set ⟨Vector.replicate 8 0⟩ .stackPointer initialStackPointer

/-- The value of the stack pointer. -/
def stackPointer (registers : Registers) : UInt8 :=
  registers.get .stackPointer

/-- Replace the value of the stack pointer. -/
def setStackPointer (registers : Registers) (value : UInt8) : Registers :=
  registers.set .stackPointer value

/-- All registers in order of number. -/
def toList (registers : Registers) : List UInt8 :=
  registers.values.toList

/-- Register files that agree on every register are equal. -/
@[ext] theorem ext
    {left right : Registers}
    (agree : ∀ register, left.get register = right.get register) :
    left = right := by
  obtain ⟨leftValues⟩ := left
  obtain ⟨rightValues⟩ := right
  congr 1
  apply Vector.ext
  intro index index_lt
  exact agree ⟨index, index_lt⟩

theorem get_set
    (registers : Registers)
    (register other : Register)
    (value : UInt8) :
    (registers.set register value).get other =
      if other = register then value else registers.get other := by
  have same_iff : register.val = other.val ↔ other = register := by
    rw [Fin.val_inj, eq_comm]
  simp [get, set, Vector.getElem_set, same_iff]

@[simp] theorem get_set_self
    (registers : Registers)
    (register : Register)
    (value : UInt8) :
    (registers.set register value).get register = value := by
  simp [get_set]

theorem get_set_of_ne
    (registers : Registers)
    {register other : Register}
    (value : UInt8)
    (different : other ≠ register) :
    (registers.set register value).get other = registers.get other := by
  simp [get_set, different]

@[simp] theorem stackPointer_setStackPointer
    (registers : Registers)
    (value : UInt8) :
    (registers.setStackPointer value).stackPointer = value := by
  simp [stackPointer, setStackPointer]

end Registers
end LS8
