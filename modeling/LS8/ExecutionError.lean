import LS8.Text.Decimal
import LS8.Text.Hexadecimal

/-!
# Reasons why execution stops with an error

Each reason is a constructor, and its wording is one function.
-/

namespace LS8

/-- Why a step or a run stops with an error. -/
inductive ExecutionError where
  /-- The machine has halted and executes nothing more. -/
  | machineHalted
  /-- The byte at the program counter belongs to no opcode. -/
  | unknownOpcode (byte address : UInt8)
  /-- The limit on the number of steps was reached before a halt. -/
  | stepLimit (limit : Nat)
  /-- The sink refused a part of the output. -/
  | output
  deriving DecidableEq, Repr

/-- The wording of an execution error. -/
def ExecutionError.message : ExecutionError → String
  | .machineHalted => "machine is halted"
  | .unknownOpcode byte address =>
      "unknown opcode 0x" ++ Hexadecimal.text .lower byte ++
        " at address 0x" ++ Hexadecimal.text .lower address
  | .stepLimit limit => "no halt after " ++ Decimal.text limit ++ " steps"
  | .output => "failed to write program output"

end LS8
