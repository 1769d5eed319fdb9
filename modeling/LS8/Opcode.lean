import LS8.Arithmetic
import LS8.Text.Hexadecimal

/-!
# Opcodes

The byte that starts an instruction selects what it does.  Its two top bits
count the operand bytes that follow, for every byte, known or not.
-/

namespace LS8

/-- The number of operand bytes behind an instruction byte: its two top bits. -/
def operandCount (byte : UInt8) : UInt8 :=
  byte >>> 6

/-- What an instruction does. -/
inductive Opcode where
  /-- Halt the machine. -/
  | hlt
  /-- Return from a subroutine. -/
  | ret
  /-- Push a register on the stack. -/
  | push
  /-- Pop the stack into a register. -/
  | pop
  /-- Print a register in decimal. -/
  | prn
  /-- Call the subroutine at the address in a register. -/
  | call
  /-- Jump to the address in a register. -/
  | jmp
  /-- Jump if the last comparison found its operands equal. -/
  | jeq
  /-- Jump unless the last comparison found its operands equal. -/
  | jne
  /-- Set a register to a byte of the program. -/
  | ldi
  /-- Apply an operation of the arithmetic and logic unit. -/
  | alu (op : AluOp)
  deriving DecidableEq, Repr

namespace Opcode

/-- All opcodes, in ascending order of their bytes. -/
def all : List Opcode :=
  [.hlt, .ret, .push, .pop, .prn, .call, .jmp, .jeq, .jne, .alu .not, .ldi,
    .alu .add, .alu .sub, .alu .mul, .alu .div, .alu .mod, .alu .cmp,
    .alu .and, .alu .or, .alu .xor, .alu .shl, .alu .shr]

/-- The instruction byte of an opcode. -/
def byte : Opcode → UInt8
  | .hlt => 0x01
  | .ret => 0x11
  | .push => 0x45
  | .pop => 0x46
  | .prn => 0x47
  | .call => 0x50
  | .jmp => 0x54
  | .jeq => 0x55
  | .jne => 0x56
  | .ldi => 0x82
  | .alu .not => 0x69
  | .alu .add => 0xA0
  | .alu .sub => 0xA1
  | .alu .mul => 0xA2
  | .alu .div => 0xA3
  | .alu .mod => 0xA4
  | .alu .cmp => 0xA7
  | .alu .and => 0xA8
  | .alu .or => 0xAA
  | .alu .xor => 0xAB
  | .alu .shl => 0xAC
  | .alu .shr => 0xAD

/-- The name of an opcode in assembly listings. -/
def mnemonic : Opcode → String
  | .hlt => "HLT"
  | .ret => "RET"
  | .push => "PUSH"
  | .pop => "POP"
  | .prn => "PRN"
  | .call => "CALL"
  | .jmp => "JMP"
  | .jeq => "JEQ"
  | .jne => "JNE"
  | .ldi => "LDI"
  | .alu .not => "NOT"
  | .alu .add => "ADD"
  | .alu .sub => "SUB"
  | .alu .mul => "MUL"
  | .alu .div => "DIV"
  | .alu .mod => "MOD"
  | .alu .cmp => "CMP"
  | .alu .and => "AND"
  | .alu .or => "OR"
  | .alu .xor => "XOR"
  | .alu .shl => "SHL"
  | .alu .shr => "SHR"

/-- The operation of the arithmetic and logic unit that an opcode applies. -/
def aluOp? : Opcode → Option AluOp
  | .alu op => some op
  | _ => none

/-- The opcode with a given instruction byte. -/
def ofByte? (byte : UInt8) : Option Opcode :=
  all.find? fun opcode => opcode.byte == byte

theorem mem_all (opcode : Opcode) : opcode ∈ all := by
  cases opcode with
  | alu op => cases op <;> decide
  | _ => decide

@[simp] theorem ofByte?_byte (opcode : Opcode) :
    ofByte? opcode.byte = some opcode := by
  cases opcode with
  | alu op => cases op <;> decide
  | _ => decide

/-- Decoding an instruction byte undoes encoding an opcode. -/
theorem ofByte?_eq_some_iff {byte : UInt8} {opcode : Opcode} :
    ofByte? byte = some opcode ↔ opcode.byte = byte := by
  constructor
  · intro decoded
    simpa using List.find?_some decoded
  · rintro rfl
    simp

end Opcode

/-- The listing text of an instruction byte: the mnemonic of its opcode, or the
byte itself when it is unknown. -/
def listing (byte : UInt8) : String :=
  match Opcode.ofByte? byte with
  | some opcode => opcode.mnemonic
  | none => "??(" ++ Hexadecimal.text .upper byte ++ ")"

end LS8
