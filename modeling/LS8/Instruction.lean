import LS8.Opcode

/-!
# Decoded instructions

An instruction holds just the operands that it uses.  Decoding looks at three
bytes of memory, whatever the length of the instruction; a byte that belongs to
no opcode starts no instruction.
-/

namespace LS8

/-- An opcode with its operands. -/
inductive Instruction where
  /-- Halt the machine. -/
  | hlt
  /-- Pop the address of the next instruction. -/
  | ret
  /-- Push the value of a register. -/
  | push (source : Register)
  /-- Pop a value into a register. -/
  | pop (target : Register)
  /-- Print the value of a register. -/
  | prn (source : Register)
  /-- Push the address behind this instruction, and go to the address in a
  register. -/
  | call (target : Register)
  /-- Go to the address in a register. -/
  | jmp (target : Register)
  /-- Go to the address in a register after a comparison of equals. -/
  | jeq (target : Register)
  /-- Go to the address in a register except after a comparison of equals. -/
  | jne (target : Register)
  /-- Set a register to a value. -/
  | ldi (target : Register) (value : UInt8)
  /-- Apply an operation to two registers; the first one takes the result. -/
  | alu (op : AluOp) (first second : Register)
  deriving DecidableEq, Repr

namespace Instruction

/-- The instruction of an opcode with the two bytes behind it. -/
def ofOpcode (opcode : Opcode) (first second : UInt8) : Instruction :=
  match opcode with
  | .hlt => .hlt
  | .ret => .ret
  | .push => .push (.ofOperand first)
  | .pop => .pop (.ofOperand first)
  | .prn => .prn (.ofOperand first)
  | .call => .call (.ofOperand first)
  | .jmp => .jmp (.ofOperand first)
  | .jeq => .jeq (.ofOperand first)
  | .jne => .jne (.ofOperand first)
  | .ldi => .ldi (.ofOperand first) second
  | .alu op => .alu op (.ofOperand first) (.ofOperand second)

/-- The instruction that starts with a byte and is followed by two more. -/
def decode? (byte first second : UInt8) : Option Instruction :=
  (Opcode.ofByte? byte).map fun opcode => ofOpcode opcode first second

/-- The opcode of an instruction. -/
def opcode : Instruction → Opcode
  | .hlt => .hlt
  | .ret => .ret
  | .push _ => .push
  | .pop _ => .pop
  | .prn _ => .prn
  | .call _ => .call
  | .jmp _ => .jmp
  | .jeq _ => .jeq
  | .jne _ => .jne
  | .ldi _ _ => .ldi
  | .alu op _ _ => .alu op

/-- The number of bytes that an instruction takes: its opcode and operands. -/
def length (instruction : Instruction) : UInt8 :=
  operandCount instruction.opcode.byte + 1

/-- A call takes two bytes. -/
@[simp] theorem length_call (target : Register) : (call target).length = 2 := by
  change operandCount Opcode.call.byte + 1 = 2
  decide

@[simp] theorem opcode_ofOpcode (opcode : Opcode) (first second : UInt8) :
    (ofOpcode opcode first second).opcode = opcode := by
  cases opcode <;> rfl

/-- Three bytes decode to an instruction exactly when the first one is the byte
of its opcode and the other two give its operands. -/
theorem decode?_eq_some_iff
    {byte first second : UInt8}
    {instruction : Instruction} :
    decode? byte first second = some instruction ↔
      instruction.opcode.byte = byte ∧
        ofOpcode instruction.opcode first second = instruction := by
  simp only [decode?, Option.map_eq_some_iff, Opcode.ofByte?_eq_some_iff]
  constructor
  · rintro ⟨opcode, rfl, rfl⟩
    simp
  · rintro ⟨byte_eq, instruction_eq⟩
    exact ⟨instruction.opcode, byte_eq, instruction_eq⟩

/-- Bytes decode to nothing exactly when the first one belongs to no opcode. -/
theorem decode?_eq_none_iff {byte first second : UInt8} :
    decode? byte first second = none ↔ Opcode.ofByte? byte = none := by
  simp [decode?]

end Instruction
end LS8
