import LS8.Flags
import LS8.Registers

/-!
# Arithmetic and logic

The twelve operations on two registers.  All of them work on bytes: sums,
differences and products wrap, shifting by eight or more leaves nothing, and
dividing by zero is an error that changes nothing.
-/

namespace LS8

/-- An operation of the arithmetic and logic unit. -/
inductive AluOp where
  | add
  | sub
  | mul
  | div
  | mod
  | cmp
  | and
  | or
  | xor
  | not
  | shl
  | shr
  deriving DecidableEq, Repr

/-- Why an operation has no result. -/
inductive ArithmeticError where
  | divideByZero
  deriving DecidableEq, Repr

/-- The wording of an arithmetic error. -/
def ArithmeticError.message : ArithmeticError → String
  | .divideByZero => "divide by zero"

/-- What an operation computes from its two operands. -/
inductive AluResult where
  /-- A value for the first register. -/
  | value (byte : UInt8)
  /-- Flags, without a value. -/
  | comparison (flags : Flags)
  /-- The divisor is zero. -/
  | zeroDivisor
  deriving DecidableEq, Repr

namespace AluOp

/-- The name of an operation. -/
def name : AluOp → String
  | .add => "Add"
  | .sub => "Sub"
  | .mul => "Mul"
  | .div => "Div"
  | .mod => "Mod"
  | .cmp => "Cmp"
  | .and => "And"
  | .or => "Or"
  | .xor => "Xor"
  | .not => "Not"
  | .shl => "Shl"
  | .shr => "Shr"

/-- All operations. -/
def all : List AluOp :=
  [.add, .sub, .mul, .div, .mod, .cmp, .and, .or, .xor, .not, .shl, .shr]

/-- Shift a byte left; all bits are lost from eight on. -/
def shiftLeft (value count : UInt8) : UInt8 :=
  if count < 8 then value <<< count else 0

/-- Shift a byte right; all bits are lost from eight on. -/
def shiftRight (value count : UInt8) : UInt8 :=
  if count < 8 then value >>> count else 0

/-- Compute an operation on two bytes. -/
def compute (op : AluOp) (left right : UInt8) : AluResult :=
  match op with
  | .add => .value (left + right)
  | .sub => .value (left - right)
  | .mul => .value (left * right)
  | .div => if right = 0 then .zeroDivisor else .value (left / right)
  | .mod => if right = 0 then .zeroDivisor else .value (left % right)
  | .cmp => .comparison (.compare left right)
  | .and => .value (left &&& right)
  | .or => .value (left ||| right)
  | .xor => .value (left ^^^ right)
  | .not => .value (~~~left)
  | .shl => .value (shiftLeft left right)
  | .shr => .value (shiftRight left right)

/-- Apply an operation to two registers, which may be the same one.  A value
goes into the first register, and a comparison into the flags. -/
def apply
    (op : AluOp)
    (registers : Registers)
    (flags : Flags)
    (first second : Register) :
    Except ArithmeticError (Registers × Flags) :=
  match op.compute (registers.get first) (registers.get second) with
  | .value byte => .ok (registers.set first byte, flags)
  | .comparison result => .ok (registers, result)
  | .zeroDivisor => .error .divideByZero

/-- Only a division by zero has no result. -/
theorem compute_eq_zeroDivisor_iff {op : AluOp} {left right : UInt8} :
    op.compute left right = .zeroDivisor ↔
      (op = .div ∨ op = .mod) ∧ right = 0 := by
  cases op with
  | div => simp [compute]
  | mod => simp [compute]
  | _ => simp [compute]

end AluOp
end LS8
