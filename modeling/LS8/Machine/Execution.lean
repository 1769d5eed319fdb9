import LS8.ExecutionError
import LS8.Machine
import LS8.Output

/-!
# Execution of single instructions

Executing an instruction gives the machine that follows and the line that the
program writes.  Nothing is written here: whoever holds the sink commits the
machine once the line has been accepted.
-/

namespace LS8

/-- What to do with a byte that belongs to no opcode. -/
inductive UnknownOpcodePolicy where
  /-- Stay at the byte without changing anything. -/
  | stall
  /-- Stop with an error. -/
  | fault
  deriving DecidableEq, Repr

/-- What executing an instruction leads to. -/
structure Effect where
  /-- The machine afterwards. -/
  machine : Machine
  /-- The line that the program writes, if it writes one. -/
  line : Option OutputLine
  deriving DecidableEq

namespace Machine

/-- Go to the address in a register if a condition holds, and to the next
instruction otherwise. -/
def jumpIf
    (machine : Machine)
    (condition : Bool)
    (instruction : Instruction)
    (target : Register) :
    Machine :=
  if condition then
    { machine with pc := machine.get target }
  else
    machine.advance instruction

/-- Apply an operation and go to the next instruction, or halt with a message
when the divisor is zero. -/
def calculate
    (machine : Machine)
    (instruction : Instruction)
    (op : AluOp)
    (first second : Register) :
    Effect :=
  match op.apply machine.registers machine.flags first second with
  | .ok (registers, flags) =>
      ⟨{ machine with registers, flags }.advance instruction, none⟩
  | .error .divideByZero =>
      ⟨{ machine with status := .halted }, some .zeroDivision⟩

/-- Execute an instruction that lies at the program counter.  A pushed register is read
before the stack pointer moves, the target of a call afterwards, and a popped value
is stored afterwards. -/
def execute (machine : Machine) (instruction : Instruction) : Effect :=
  match instruction with
  | .hlt => ⟨{ machine with status := .halted }, none⟩
  | .ret => ⟨{ machine.drop with pc := machine.top }, none⟩
  | .push source =>
      ⟨(machine.push (machine.get source)).advance instruction, none⟩
  | .pop target =>
      ⟨(machine.drop.set target machine.top).advance instruction, none⟩
  | .prn source =>
      ⟨machine.advance instruction, some (.number (machine.get source))⟩
  | .call target =>
      let pushed := machine.push (machine.pc + instruction.length)
      ⟨{ pushed with pc := pushed.get target }, none⟩
  | .jmp target => ⟨{ machine with pc := machine.get target }, none⟩
  | .jeq target =>
      ⟨machine.jumpIf machine.flags.isEqual instruction target, none⟩
  | .jne target =>
      ⟨machine.jumpIf (!machine.flags.isEqual) instruction target, none⟩
  | .ldi target value =>
      ⟨(machine.set target value).advance instruction, none⟩
  | .alu op first second => machine.calculate instruction op first second

/-- Fetch, decode and execute one instruction. -/
def next (machine : Machine) (policy : UnknownOpcodePolicy) :
    Except ExecutionError Effect :=
  if machine.isHalted then
    .error .machineHalted
  else
    match machine.instruction?, policy with
    | some instruction, _ => .ok (machine.execute instruction)
    | none, .stall => .ok ⟨machine, none⟩
    | none, .fault => .error (.unknownOpcode (machine.fetch 0) machine.pc)

theorem next_of_halted
    {machine : Machine}
    (halted : machine.status = .halted)
    (policy : UnknownOpcodePolicy) :
    machine.next policy = .error .machineHalted := by
  simp [next, isHalted, halted]

theorem next_of_instruction
    {machine : Machine}
    {instruction : Instruction}
    (running : machine.status = .running)
    (decoded : machine.instruction? = some instruction)
    (policy : UnknownOpcodePolicy) :
    machine.next policy = .ok (machine.execute instruction) := by
  simp [next, isHalted, running, decoded]

theorem next_stall_of_unknown
    {machine : Machine}
    (running : machine.status = .running)
    (unknown : machine.instruction? = none) :
    machine.next .stall = .ok ⟨machine, none⟩ := by
  simp [next, isHalted, running, unknown]

theorem next_fault_of_unknown
    {machine : Machine}
    (running : machine.status = .running)
    (unknown : machine.instruction? = none) :
    machine.next .fault =
      .error (.unknownOpcode (machine.fetch 0) machine.pc) := by
  simp [next, isHalted, running, unknown]

end Machine
end LS8
