import LS8.Proofs.Arithmetic
import LS8.Proofs.InstructionSet.Reference
import LS8.Proofs.Step

/-!
# Steps follow the instruction set

A step of a running machine at a known opcode does what the reference on
natural numbers says: the description of the machine afterwards is the
reference's next state, and the text written is the reference's text.  The
reference reads its three bytes before anything changes, so the theorem fixes
the order of reads and writes of every instruction, also where a register is
the stack pointer, where both operands are one register, and where the stack
reaches into the instruction itself.
-/

namespace LS8
namespace InstructionSet

namespace State

/-- A machine is determined by its description. -/
theorem ofMachine_injective
    {left right : Machine}
    (equal : ofMachine left = ofMachine right) :
    left = right := by
  have pc_eq : left.pc = right.pc :=
    UInt8.toNat_inj.mp (congrArg State.pc equal)
  have memory_eq : left.memory = right.memory := by
    apply Memory.ext
    intro address
    exact UInt8.toNat_inj.mp (congrFun (congrArg State.cell equal) address.toFin)
  have registers_eq : left.registers = right.registers := by
    apply Registers.ext
    intro number
    exact UInt8.toNat_inj.mp (congrFun (congrArg State.register equal) number)
  have flags_eq : left.flags = right.flags :=
    Flags.bits_injective (UInt8.toNat_inj.mp (congrArg State.flags equal))
  have halted_eq : left.isHalted = right.isHalted := congrArg State.halted equal
  have status_eq : left.status = right.status := by
    cases leftStatus : left.status <;> cases rightStatus : right.status <;>
      simp_all [Machine.isHalted]
  cases left
  cases right
  simp_all

theorem load_ofMachine (machine : Machine) (address : Nat) :
    (ofMachine machine).load address =
      (machine.memory.read (UInt8.ofNat address)).toNat := rfl

theorem load_pc_ofMachine (machine : Machine) (distance : UInt8) :
    (ofMachine machine).load (machine.pc.toNat + distance.toNat) =
      (machine.fetch distance).toNat := by
  rw [load_ofMachine, UInt8.ofNat_add, UInt8.ofNat_toNat, UInt8.ofNat_toNat]
  rfl

theorem store_ofMachine (machine : Machine) (address : Nat) (value : UInt8) :
    (ofMachine machine).store address value.toNat =
      ofMachine
        { machine with
          memory := machine.memory.write (UInt8.ofNat address) value } := by
  unfold store ofMachine
  congr 1
  funext other
  have same_iff :
      other = cellAt address ↔
        UInt8.ofFin other = UInt8.ofNat address := by
    constructor
    · rintro rfl
      rfl
    · intro equal
      exact congrArg UInt8.toFin equal
  rw [Function.update_apply, Memory.read_write]
  simp only [same_iff]
  split <;> rfl

theorem set_ofMachine (machine : Machine) (number : Nat) (value : UInt8) :
    (ofMachine machine).set number value.toNat =
      ofMachine (machine.set (Fin.ofNat 8 number) value) := by
  unfold set ofMachine
  congr 1
  funext other
  have number_eq : registerAt number = Fin.ofNat 8 number := rfl
  rw [Function.update_apply, number_eq, Machine.set, Registers.get_set]
  split <;> rfl

theorem goto_ofMachine (machine : Machine) (address : Nat) :
    (ofMachine machine).goto address =
      ofMachine { machine with pc := UInt8.ofNat address } := by
  have reduced : (UInt8.ofNat address).toNat = address % 256 :=
    UInt8.toNat_ofNat'
  rw [goto, ← reduced]
  rfl

/-- The machine's length of an instruction is the one that the two top bits of
its byte give. -/
theorem toNat_length (instruction : Instruction) :
    instruction.length.toNat = 1 + instruction.opcode.byte.toNat >>> 6 := by
  have byte_lt := instruction.opcode.byte.toNat_lt
  rw [Instruction.length, operandCount, UInt8.toNat_add, UInt8.toNat_shiftRight]
  change (instruction.opcode.byte.toNat >>> 6 + 1) % 256 = _
  rw [Nat.shiftRight_eq_div_pow]
  omega

theorem advance_ofMachine (machine : Machine) (instruction : Instruction) :
    (ofMachine machine).goto
        (machine.pc.toNat + (1 + instruction.opcode.byte.toNat >>> 6)) =
      ofMachine (machine.advance instruction) := by
  rw [goto_ofMachine, ← toNat_length, UInt8.ofNat_add, UInt8.ofNat_toNat,
    UInt8.ofNat_toNat]
  rfl

theorem jump_ofMachine (machine : Machine) (target : Register) :
    (ofMachine machine).goto (machine.get target).toNat =
      ofMachine { machine with pc := machine.get target } := by
  rw [goto_ofMachine, UInt8.ofNat_toNat]

theorem jumpIf_ofMachine
    (machine : Machine)
    (condition : Bool)
    (instruction : Instruction)
    (target : Register) :
    (ofMachine machine).goto
        (if condition then (machine.get target).toNat
        else machine.pc.toNat + (1 + instruction.opcode.byte.toNat >>> 6)) =
      ofMachine (machine.jumpIf condition instruction target) := by
  cases condition with
  | true => exact jump_ofMachine machine target
  | false => exact advance_ofMachine machine instruction

theorem push_ofMachine (machine : Machine) (value : UInt8) :
    ((ofMachine machine).store (machine.stackPointer.toNat + 255)
        value.toNat).set 7 ((machine.stackPointer.toNat + 255) % 256) =
      ofMachine (machine.push value) := by
  have below_eq :
      UInt8.ofNat (machine.stackPointer.toNat + 255) =
        machine.stackPointer - 1 := by
    rw [UInt8.ofNat_add, UInt8.ofNat_toNat]
    exact (UInt8.sub_eq_add_neg machine.stackPointer 1).symm
  have value_eq :
      (machine.stackPointer.toNat + 255) % 256 =
        (machine.stackPointer - 1).toNat := by
    rw [← below_eq]
    exact UInt8.toNat_ofNat'.symm
  rw [store_ofMachine, value_eq, set_ofMachine, below_eq]
  rfl

theorem drop_ofMachine (machine : Machine) :
    (ofMachine machine).set 7 ((machine.stackPointer.toNat + 1) % 256) =
      ofMachine machine.drop := by
  have value_eq :
      (machine.stackPointer.toNat + 1) % 256 =
        (machine.stackPointer + 1).toNat :=
    (UInt8.toNat_add machine.stackPointer 1).symm
  rw [value_eq, set_ofMachine]
  rfl

end State

/-! ## One case per opcode -/

/-- The description of what an operation computes. -/
def Result.ofAlu : AluResult → Result
  | .value byte => .value byte.toNat
  | .comparison outcome => .flags outcome.bits.toNat
  | .zeroDivisor => .zeroDivisor

/-- The operations on bytes compute what the reference computes. -/
theorem compute_byte (op : AluOp) (left right : UInt8) :
    compute (Opcode.alu op).byte.toNat left.toNat right.toNat =
      some (Result.ofAlu (op.compute left right)) := by
  have divisor_iff : right.toNat = 0 ↔ right = 0 :=
    UInt8.toNat_inj (b := 0)
  cases op with
  | add => simp [compute, Opcode.byte, AluOp.compute, Result.ofAlu]
  | sub =>
      simp only [AluOp.compute, Result.ofAlu, AluOp.toNat_sub]
      rfl
  | mul => simp [compute, Opcode.byte, AluOp.compute, Result.ofAlu]
  | div =>
      change some (if right.toNat = 0 then _ else _) = _
      rw [AluOp.compute]
      simp only [divisor_iff]
      split
      · rfl
      · simp [Result.ofAlu]
  | mod =>
      change some (if right.toNat = 0 then _ else _) = _
      rw [AluOp.compute]
      simp only [divisor_iff]
      split
      · rfl
      · simp [Result.ofAlu]
  | cmp =>
      simp only [AluOp.compute, Result.ofAlu, Flags.toNat_bits_compare]
      rfl
  | and => simp [compute, Opcode.byte, AluOp.compute, Result.ofAlu]
  | or => simp [compute, Opcode.byte, AluOp.compute, Result.ofAlu]
  | xor => simp [compute, Opcode.byte, AluOp.compute, Result.ofAlu]
  | not => simp [compute, Opcode.byte, AluOp.compute, Result.ofAlu]
  | shl =>
      simp only [AluOp.compute, Result.ofAlu, AluOp.toNat_shiftLeft]
      rfl
  | shr =>
      simp only [AluOp.compute, Result.ofAlu, AluOp.toNat_shiftRight]
      rfl

/-- Finishing an operation gives the state and the text of its effect. -/
theorem finish_ofMachine
    (machine : Machine)
    (instruction : Instruction)
    (op : AluOp)
    (first : Nat)
    (second : Register) :
    finish (.ofMachine machine) (1 + instruction.opcode.byte.toNat >>> 6) first
        (.ofAlu (op.compute (machine.get (Fin.ofNat 8 first))
          (machine.get second))) =
      (.ofMachine
          (machine.calculate instruction op (Fin.ofNat 8 first) second).machine,
        (machine.calculate instruction op (Fin.ofNat 8 first) second).text) := by
  unfold Machine.get Machine.calculate AluOp.apply
  cases op.compute (machine.registers.get (Fin.ofNat 8 first))
      (machine.registers.get second) with
  | value byte =>
      change (((State.ofMachine machine).set first byte.toNat).goto
        (machine.pc.toNat + (1 + instruction.opcode.byte.toNat >>> 6)), "") = _
      rw [State.set_ofMachine]
      exact Prod.ext (State.advance_ofMachine (machine.set _ byte) instruction) rfl
  | comparison outcome =>
      exact Prod.ext
        (State.advance_ofMachine { machine with flags := outcome } instruction)
        rfl
  | zeroDivisor => rfl

/-- Executing the instruction that starts with the byte of an opcode does what
the reference says for that byte. -/
theorem execute_byte
    (machine : Machine)
    (opcode : Opcode)
    (first second : UInt8) :
    execute (.ofMachine machine) opcode.byte.toNat first.toNat second.toNat =
      some
        (.ofMachine (machine.execute (.ofOpcode opcode first second)).machine,
          (machine.execute (.ofOpcode opcode first second)).text) := by
  cases opcode with
  | hlt => rfl
  | ret =>
      change some (((State.ofMachine machine).set 7
        ((machine.stackPointer.toNat + 1) % 256)).goto
          ((State.ofMachine machine).load machine.stackPointer.toNat), "") = _
      rw [State.drop_ofMachine, State.load_ofMachine, State.goto_ofMachine,
        UInt8.ofNat_toNat, UInt8.ofNat_toNat]
      rfl
  | push =>
      let source := Register.ofOperand first
      change some ((((State.ofMachine machine).store
          (machine.stackPointer.toNat + 255) (machine.get source).toNat).set 7
            ((machine.stackPointer.toNat + 255) % 256)).goto
              (machine.pc.toNat + (1 + Opcode.push.byte.toNat >>> 6)), "") = _
      rw [State.push_ofMachine]
      exact congrArg (fun state => some (state, ""))
        (State.advance_ofMachine (machine.push (machine.get source)) (.push source))
  | pop =>
      let target := Register.ofOperand first
      change some ((((State.ofMachine machine).set 7
          ((machine.stackPointer.toNat + 1) % 256)).set first.toNat
            ((State.ofMachine machine).load machine.stackPointer.toNat)).goto
              (machine.pc.toNat + (1 + Opcode.pop.byte.toNat >>> 6)), "") = _
      rw [State.drop_ofMachine, State.load_ofMachine, UInt8.ofNat_toNat,
        State.set_ofMachine]
      exact congrArg (fun state => some (state, ""))
        (State.advance_ofMachine (machine.drop.set target machine.top) (.pop target))
  | prn =>
      let source := Register.ofOperand first
      exact congrArg (fun state => some (state, Nat.repr _ ++ "\n"))
        (State.advance_ofMachine machine (.prn source))
  | call =>
      let target := Register.ofOperand first
      let next := machine.pc + (Instruction.call target).length
      have next_eq : (machine.pc.toNat + 2) % 256 = next.toNat := by
        change _ = (machine.pc + (Instruction.call target).length).toNat
        rw [Instruction.length_call]
        exact (UInt8.toNat_add machine.pc 2).symm
      change
        (let called := ((State.ofMachine machine).store
            (machine.stackPointer.toNat + 255)
            ((machine.pc.toNat + 2) % 256)).set 7
              ((machine.stackPointer.toNat + 255) % 256)
        some (called.goto (called.get first.toNat), "")) = _
      rw [next_eq, State.push_ofMachine]
      exact congrArg (fun state => some (state, ""))
        (State.jump_ofMachine (machine.push next) target)
  | jmp =>
      exact congrArg (fun state => some (state, ""))
        (State.jump_ofMachine machine (.ofOperand first))
  | jeq =>
      let target := Register.ofOperand first
      have equal_iff := machine.flags.bits_odd_iff
      change some ((State.ofMachine machine).goto
        (if machine.flags.bits.toNat % 2 = 1 then (machine.get target).toNat
        else machine.pc.toNat + (1 + Opcode.jeq.byte.toNat >>> 6)), "") = _
      simp only [equal_iff]
      exact congrArg (fun state => some (state, ""))
        (State.jumpIf_ofMachine machine machine.flags.isEqual (.jeq target) target)
  | jne =>
      let target := Register.ofOperand first
      have equal_iff : machine.flags.bits.toNat % 2 = 1 ↔
          ¬(!machine.flags.isEqual) = true := by
        rw [machine.flags.bits_odd_iff]
        simp
      change some ((State.ofMachine machine).goto
        (if machine.flags.bits.toNat % 2 = 1 then
          machine.pc.toNat + (1 + Opcode.jne.byte.toNat >>> 6)
        else (machine.get target).toNat), "") = _
      simp only [equal_iff, ite_not]
      exact congrArg (fun state => some (state, ""))
        (State.jumpIf_ofMachine machine (!machine.flags.isEqual) (.jne target)
          target)
  | ldi =>
      let target := Register.ofOperand first
      change some (((State.ofMachine machine).set first.toNat second.toNat).goto
        (machine.pc.toNat + (1 + Opcode.ldi.byte.toNat >>> 6)), "") = _
      rw [State.set_ofMachine]
      exact congrArg (fun state => some (state, ""))
        (State.advance_ofMachine (machine.set target second) (.ldi target second))
  | alu op =>
      let left := Register.ofOperand first
      let right := Register.ofOperand second
      have known : execute (.ofMachine machine) (Opcode.alu op).byte.toNat
          first.toNat second.toNat =
        (compute (Opcode.alu op).byte.toNat (machine.get left).toNat
          (machine.get right).toNat).map
            (finish (.ofMachine machine)
              (1 + (Opcode.alu op).byte.toNat >>> 6) first.toNat) := by
        cases op <;> rfl
      rw [known, compute_byte]
      exact congrArg some (finish_ofMachine machine (.alu op left right) op
        first.toNat right)

/-- The reference follows the instruction that the machine decodes. -/
theorem step_ofMachine
    {machine : Machine}
    {instruction : Instruction}
    (decoded : machine.instruction? = some instruction) :
    step (.ofMachine machine) =
      some
        (.ofMachine (machine.execute instruction).machine,
          (machine.execute instruction).text) := by
  obtain ⟨byte_eq, operands_eq⟩ := Instruction.decode?_eq_some_iff.mp decoded
  have executed := execute_byte machine instruction.opcode
    (machine.fetch 1) (machine.fetch 2)
  rw [operands_eq, byte_eq] at executed
  rw [← executed, ← State.load_pc_ofMachine, ← State.load_pc_ofMachine,
    ← State.load_pc_ofMachine]
  rfl

/-- A running machine at a known opcode makes the step of the reference: the whole machine
afterwards and the text appended to the output are those of the reference. -/
theorem step_follows_reference
    {session : Session}
    (running : session.machine.status = .running)
    (known : session.machine.fetch 0 ∈ instructionBytes)
    (accepting : session.sink.room = none) :
    ∃ (machine : Machine) (text : String),
      step (.ofMachine session.machine) = some (.ofMachine machine, text) ∧
        (∀ other, State.ofMachine other = .ofMachine machine →
          other = machine) ∧
        session.step =
          ({ session.observe with
              machine
              sink :=
                { session.sink with
                  written := session.sink.written ++ text } },
            .ok machine.status) := by
  obtain ⟨instruction, decoded⟩ := Machine.exists_instruction_of_mem known
  have executed := Machine.next_of_instruction running decoded
    session.configuration.policy
  have stepped := Session.step_of_accepts executed
    (Sink.accepts_of_room_none accepting _)
  rw [Sink.write_of_room_none accepting] at stepped
  refine ⟨(session.machine.execute instruction).machine,
    (session.machine.execute instruction).text, ?_, ?_, stepped⟩
  · exact step_ofMachine decoded
  · intro other equal
    exact State.ofMachine_injective equal

/-- A call through the stack pointer at the last address of memory, with the stack pointer
at address zero: the return address overwrites the call itself. -/
def wrappingCall : Session where
  configuration := .standard
  machine :=
    { Machine.initial with
      pc := 0xFF
      memory := (Memory.zeroed.write 0xFF 0x50).write 0x00 0x07
      registers := Registers.initial.setStackPointer 0x00 }
  sink := .unbounded
  trace := #[]

theorem step_follows_reference_wrappingCall :
    wrappingCall.machine.status = .running ∧
      wrappingCall.machine.fetch 0 ∈ instructionBytes ∧
      wrappingCall.sink.room = none ∧
      ∃ (machine : Machine) (text : String),
        step (.ofMachine wrappingCall.machine) =
            some (.ofMachine machine, text) ∧
          (∀ other, State.ofMachine other = .ofMachine machine →
            other = machine) ∧
          wrappingCall.step =
            ({ wrappingCall.observe with
                machine
                sink :=
                  { wrappingCall.sink with
                    written := wrappingCall.sink.written ++ text } },
              .ok machine.status) := by
  have known : wrappingCall.machine.fetch 0 ∈ instructionBytes := by
    decide +kernel
  exact ⟨rfl, known, rfl, step_follows_reference rfl known rfl⟩

end InstructionSet
end LS8
