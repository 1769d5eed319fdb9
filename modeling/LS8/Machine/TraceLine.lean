import LS8.Machine
import LS8.Text.Hexadecimal

/-!
# Trace lines

A trace line shows the program counter, the three bytes there and the eight
registers, each byte in two upper-case hexadecimal digits.
-/

namespace LS8
namespace Machine

/-- The bytes of a trace line, in its three groups. -/
def traceGroups (machine : Machine) : List (List UInt8) :=
  [[machine.pc],
    [machine.fetch 0, machine.fetch 1, machine.fetch 2],
    machine.registers.toList]

/-- The text of one group of a trace line. -/
def traceGroupText (bytes : List UInt8) : String :=
  " ".intercalate (bytes.map (Hexadecimal.text .upper))

/-- The line that describes a machine before it executes an instruction. -/
def traceLine (machine : Machine) : String :=
  " | ".intercalate (machine.traceGroups.map traceGroupText)

end Machine
end LS8
