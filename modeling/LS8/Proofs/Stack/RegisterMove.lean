import LS8.Proofs.Footprint.Instruction
import LS8.Proofs.Iteration

/-!
# Pushing and popping as a move

A push with a pop behind it moves the value of one register into another.  The value
is read before the stack pointer goes down and stored after it has come up again, so
this holds for the stack pointer as well, whether it is pushed, popped or both.  What
remains besides is the value in the cell below the stack.
-/

namespace LS8

namespace Machine

/-- The machine after the value of a register has gone over the stack into a register,
behind both instructions. -/
def moved (machine : Machine) (source target : Register) : Machine where
  pc := machine.pc + 4
  memory :=
    machine.memory.write (machine.stackPointer - 1) (machine.get source)
  registers := machine.registers.set target (machine.get source)
  flags := machine.flags
  status := machine.status

section BehindPush

variable (machine : Machine) (source : Register)

end BehindPush

namespace PushesThenPops

variable {machine : Machine}

end PushesThenPops
end Machine

namespace Session

variable {session : Session}

end Session
end LS8
