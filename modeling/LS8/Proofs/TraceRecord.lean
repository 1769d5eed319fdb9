import Mathlib.Data.List.Basic
import LS8.Proofs.Footprint.Runs
import LS8.Proofs.Text.Separators

/-!
# Trace lines as records

A trace line has a fixed width and shows twelve bytes: the program counter, the three
bytes that a step fetches there, and the registers.  Its hexadecimal digits, taken in
pairs, are these bytes, so two lines are equal just when the bytes are.  A step that
takes nothing off the stack depends on no other byte of the machine, and goes the same
way wherever the line is the same.
-/

namespace LS8

namespace Hexadecimal

/-- The number that an upper-case digit stands for. -/
def value (digit : Char) : Nat :=
  if digit.isDigit then digit.toNat - '0'.toNat else digit.toNat - 'A'.toNat + 10

/-- The bytes that digits stand for, two digits each. -/
def readBytes : List Char → List UInt8
  | high :: low :: rest =>
      UInt8.ofNat (16 * value high + value low) :: readBytes rest
  | _ => []

theorem value_digit {number : Nat} (number_lt : number < 16) :
    value (digit .upper number) = number := by
  have values : ∀ number : Fin 16, value (digit .upper number) = number := by
    decide
  exact values ⟨number, number_lt⟩

theorem isAlphanum_of_mem_digits
    {character : Char}
    {byte : UInt8}
    (written : character ∈ digits .upper byte) :
    character.isAlphanum = true := by
  have byte_lt := byte.toNat_lt
  have digits_alphanum :
      ∀ number : Fin 16, (digit .upper number).isAlphanum = true := by
    decide
  rcases List.mem_pair.mp written with rfl | rfl
  · exact digits_alphanum ⟨byte.toNat / 16, by omega⟩
  · exact digits_alphanum ⟨byte.toNat % 16, by omega⟩

theorem length_flatMap_digits (bytes : List UInt8) :
    (bytes.flatMap (digits .upper)).length = 2 * bytes.length := by
  induction bytes with
  | nil => rfl
  | cons byte rest inductionHypothesis =>
      rw [List.flatMap_cons, List.length_append, inductionHypothesis, length_digits,
        List.length_cons, Nat.mul_succ, Nat.add_comm]

/-- Written bytes are read back. -/
theorem readBytes_digits (bytes : List UInt8) :
    readBytes (bytes.flatMap (digits .upper)) = bytes := by
  induction bytes with
  | nil => rfl
  | cons byte rest inductionHypothesis =>
      have byte_lt := byte.toNat_lt
      have number_eq : 16 * (byte.toNat / 16) + byte.toNat % 16 = byte.toNat :=
        Nat.div_add_mod _ _
      rw [List.flatMap_cons, digits, List.cons_append, List.cons_append,
        List.nil_append, readBytes, inductionHypothesis, value_digit (by omega),
        value_digit (by omega), number_eq, UInt8.ofNat_toNat]

end Hexadecimal

namespace Machine

/-- The bytes that the digits of a line stand for. -/
def lineBytes (line : String) : List UInt8 :=
  Hexadecimal.readBytes (line.toList.filter Char.isAlphanum)

theorem toList_traceGroupText (bytes : List UInt8) :
    (traceGroupText bytes).toList =
      [' '].intercalate (bytes.map (Hexadecimal.digits .upper)) := by
  have digits_eq : String.toList ∘ Hexadecimal.text .upper =
      Hexadecimal.digits .upper :=
    funext fun byte => Hexadecimal.toList_text .upper byte
  rw [traceGroupText, String.toList_intercalate, List.map_map, digits_eq]
  rfl

theorem length_traceGroupText (bytes : List UInt8) :
    (traceGroupText bytes).length = 2 * bytes.length + (bytes.length - 1) := by
  rw [← String.length_toList, toList_traceGroupText, Separators.length_intercalate,
    ← List.flatMap_def, Hexadecimal.length_flatMap_digits, List.length_map,
    List.length_singleton, Nat.one_mul]

/-- Of a group only the digits remain when the spaces are dropped. -/
theorem filter_traceGroupText (bytes : List UInt8) :
    (traceGroupText bytes).toList.filter Char.isAlphanum =
      bytes.flatMap (Hexadecimal.digits .upper) := by
  have kept :
      List.filter Char.isAlphanum ∘ Hexadecimal.digits .upper =
        Hexadecimal.digits .upper := by
    funext byte
    exact List.filter_eq_self.mpr fun _ written =>
      Hexadecimal.isAlphanum_of_mem_digits written
  have dropped : [' '].filter Char.isAlphanum = [] := by decide
  rw [toList_traceGroupText, Separators.filter_intercalate, dropped,
    Separators.nil_intercalate, List.map_map, kept]
  rfl

/-- The bytes of a trace line can be read off it. -/
theorem lineBytes_traceLine (machine : Machine) :
    lineBytes machine.traceLine = machine.traceGroups.flatten := by
  have groups_eq :
      (List.filter Char.isAlphanum ∘ String.toList) ∘ traceGroupText =
        List.flatMap (Hexadecimal.digits .upper) :=
    funext filter_traceGroupText
  have dropped : " | ".toList.filter Char.isAlphanum = [] := by decide
  have joined :
      (machine.traceGroups.map (List.flatMap (Hexadecimal.digits .upper))).flatten =
        machine.traceGroups.flatten.flatMap (Hexadecimal.digits .upper) := by
    rw [← List.flatMap_def, ← List.flatMap_id, List.flatMap_assoc]
    rfl
  rw [lineBytes, traceLine, String.toList_intercalate, Separators.filter_intercalate,
    dropped, Separators.nil_intercalate, List.map_map, List.map_map, groups_eq, joined,
    Hexadecimal.readBytes_digits]

theorem length_traceLine (machine : Machine) : machine.traceLine.length = 39 := by
  have registers_length : machine.registers.toList.length = 8 :=
    Vector.length_toList
  rw [← String.length_toList, traceLine, String.toList_intercalate,
    Separators.length_intercalate, traceGroups]
  simp [String.length_toList, length_traceGroupText, registers_length]

theorem flatten_traceGroups (machine : Machine) :
    machine.traceGroups.flatten =
      machine.pc :: machine.fetch 0 :: machine.fetch 1 :: machine.fetch 2 ::
        machine.registers.toList := by
  simp [traceGroups]

variable {left right machine : Machine}

/-- Trace lines are equal just when the bytes that they show are. -/
theorem traceLine_eq_iff :
    left.traceLine = right.traceLine ↔
      left.pc = right.pc ∧
        left.fetch 0 = right.fetch 0 ∧
        left.fetch 1 = right.fetch 1 ∧
        left.fetch 2 = right.fetch 2 ∧
        left.registers = right.registers := by
  constructor
  · intro line_eq
    have bytes_eq := congrArg lineBytes line_eq
    rw [lineBytes_traceLine, lineBytes_traceLine, flatten_traceGroups,
      flatten_traceGroups] at bytes_eq
    simp only [List.cons.injEq] at bytes_eq
    obtain ⟨pc_eq, first_eq, second_eq, third_eq, registers_eq⟩ := bytes_eq
    refine ⟨pc_eq, first_eq, second_eq, third_eq, ?_⟩
    exact congrArg Registers.mk (Vector.toList_inj.mp registers_eq)
  · rintro ⟨pc_eq, first_eq, second_eq, third_eq, registers_eq⟩
    rw [traceLine, traceLine, traceGroups, traceGroups, pc_eq, first_eq, second_eq,
      third_eq, registers_eq]

/-- The addresses outside the three cells that a step fetches. -/
def unfetched (machine : Machine) : Set UInt8 :=
  {address | address ∉ [machine.pc, machine.pc + 1, machine.pc + 2]}

/-- Machines with the same line, flags and status differ in no cell that a step
fetches. -/
theorem agreeOutside_of_traceLine_eq
    (line_eq : left.traceLine = right.traceLine)
    (flags_eq : left.flags = right.flags)
    (status_eq : left.status = right.status) :
    left.AgreeOutside left.unfetched right := by
  obtain ⟨pc_eq, first_eq, second_eq, third_eq, registers_eq⟩ :=
    traceLine_eq_iff.mp line_eq
  refine ⟨pc_eq.symm, registers_eq.symm, flags_eq.symm, status_eq.symm, ?_⟩
  intro address fetched
  have fetched : address ∈ [left.pc, left.pc + 1, left.pc + 2] :=
    Decidable.not_not.mp fetched
  simp only [List.mem_cons, List.not_mem_nil, or_false] at fetched
  rcases fetched with rfl | rfl | rfl
  · rw [fetch_zero, fetch_zero, ← pc_eq] at first_eq
    exact first_eq.symm
  · rw [fetch, fetch, ← pc_eq] at second_eq
    exact second_eq.symm
  · rw [fetch, fetch, ← pc_eq] at third_eq
    exact third_eq.symm

theorem stackReads_eq_nil
    {opcode : Opcode}
    (noPop : machine.memory.read machine.pc ≠ 0x46)
    (noRet : machine.memory.read machine.pc ≠ 0x11)
    (known : Opcode.ofByte? (machine.fetch 0) = some opcode) :
    machine.stackReads opcode = [] := by
  rw [Opcode.ofByte?_eq_some_iff, fetch_zero] at known
  cases opcode with
  | pop => exact absurd known.symm noPop
  | ret => exact absurd known.symm noRet
  | _ => rfl

/-- A step that takes nothing off the stack reads only cells that every step fetches. -/
theorem not_mem_unfetched_of_mem_reads
    (noPop : machine.memory.read machine.pc ≠ 0x46)
    (noRet : machine.memory.read machine.pc ≠ 0x11)
    {address : UInt8}
    (read : address ∈ machine.reads) :
    address ∉ machine.unfetched := by
  suffices fetched : address ∈ [machine.pc, machine.pc + 1, machine.pc + 2] from
    fun unfetched => unfetched fetched
  cases status_eq : machine.status with
  | halted => simp [reads, isHalted, status_eq] at read
  | running =>
      cases known : Opcode.ofByte? (machine.fetch 0) with
      | none =>
          have first_read : machine.reads = [machine.pc] := by
            rw [reads, known]
            simp [isHalted, status_eq]
          rw [first_read, List.mem_singleton] at read
          rw [read]
          exact List.mem_cons_self
      | some opcode =>
          rw [reads_of_opcode status_eq known, stackReads_eq_nil noPop noRet known,
            List.append_nil] at read
          rcases List.mem_cons.mp read with rfl | operand
          · exact List.mem_cons_self
          · exact List.mem_cons_of_mem _ (List.mem_of_mem_take operand)

end Machine

namespace Session

/-- Two running machines look the same in a trace, with the same flags and the same
policy, and both sinks accept all output. -/
structure TracedAlike (left right : Session) : Prop where
  line_eq : left.machine.traceLine = right.machine.traceLine
  flags_eq : left.machine.flags = right.machine.flags
  policy_eq : left.configuration.policy = right.configuration.policy
  left_running : left.machine.status = .running
  right_running : right.machine.status = .running
  left_accepting : left.sink.room = none
  right_accepting : right.sink.room = none

variable {left right : Session}

/-- The next step of machines that look the same in a trace goes the same way, if it
takes nothing off the stack. -/
theorem TracedAlike.step
    (alike : left.TracedAlike right)
    (noPop : left.machine.memory.read left.machine.pc ≠ 0x46)
    (noRet : left.machine.memory.read left.machine.pc ≠ 0x11) :
    left.step.2 = right.step.2 ∧
      (∃ text,
        left.step.1.sink.written = left.sink.written ++ text ∧
          right.step.1.sink.written = right.sink.written ++ text) ∧
      left.step.1.machine.pc = right.step.1.machine.pc ∧
      left.step.1.machine.registers = right.step.1.machine.registers ∧
      left.step.1.machine.flags = right.step.1.machine.flags ∧
      left.step.1.machine.status = right.step.1.machine.status := by
  -- Cells that no step fetches may differ, and this step reads none of them.
  have agree :=
    Machine.agreeOutside_of_traceLine_eq alike.line_eq alike.flags_eq
      (alike.left_running.trans alike.right_running.symm)
  rcases agree.next_cases
      (fun _ read => Machine.not_mem_unfetched_of_mem_reads noPop noRet read)
      left.configuration.policy with
    ⟨error, leftRefuses, rightRefuses, _⟩ |
      ⟨leftEffect, rightEffect, leftExecutes, rightExecutes, line_eq, _, agreeAfter⟩
  · rw [alike.policy_eq] at rightRefuses
    rw [step_of_error leftRefuses, step_of_error rightRefuses]
    refine ⟨rfl, ⟨"", ?_, ?_⟩, ?_⟩
    · rw [sink_observe, String.append_empty]
    · rw [sink_observe, String.append_empty]
    · rw [machine_observe, machine_observe]
      exact ⟨agree.pc_eq.symm, agree.registers_eq.symm, agree.flags_eq.symm,
        agree.status_eq.symm⟩
  · rw [alike.policy_eq] at rightExecutes
    have text_eq : rightEffect.text = leftEffect.text := by
      rw [Effect.text, line_eq, Effect.text]
    rw [step_of_unlimited alike.left_accepting leftExecutes,
      step_of_unlimited alike.right_accepting rightExecutes]
    refine ⟨?_, ⟨leftEffect.text, ?_, ?_⟩, agreeAfter.pc_eq.symm,
      agreeAfter.registers_eq.symm, agreeAfter.flags_eq.symm, agreeAfter.status_eq.symm⟩
    · rw [agreeAfter.status_eq]
    · rw [Sink.write_of_room_none alike.left_accepting]
    · rw [Sink.write_of_room_none alike.right_accepting, text_eq]

/-- A trace line is a record of twelve bytes, and running machines with the same line,
flags and policy make the same step, unless it is a pop or a return. -/
theorem trace_line_is_record :
    (∀ machine : Machine,
        machine.traceLine.length = 39 ∧
          Machine.lineBytes machine.traceLine =
            machine.pc :: machine.memory.read machine.pc ::
              machine.memory.read (machine.pc + 1) ::
              machine.memory.read (machine.pc + 2) :: machine.registers.toList ∧
          machine.instruction? =
            Instruction.decode? (machine.memory.read machine.pc)
              (machine.memory.read (machine.pc + 1))
              (machine.memory.read (machine.pc + 2))) ∧
      (∀ left right : Machine,
        left.traceLine = right.traceLine ↔
          left.pc = right.pc ∧
            left.memory.read left.pc = right.memory.read right.pc ∧
            left.memory.read (left.pc + 1) = right.memory.read (right.pc + 1) ∧
            left.memory.read (left.pc + 2) = right.memory.read (right.pc + 2) ∧
            left.registers = right.registers) ∧
      ∀ left right : Session,
        left.TracedAlike right →
          left.machine.memory.read left.machine.pc ≠ 0x46 →
          left.machine.memory.read left.machine.pc ≠ 0x11 →
          left.step.2 = right.step.2 ∧
            (∃ text,
              left.step.1.sink.written = left.sink.written ++ text ∧
                right.step.1.sink.written = right.sink.written ++ text) ∧
            left.step.1.machine.pc = right.step.1.machine.pc ∧
            left.step.1.machine.registers = right.step.1.machine.registers ∧
            left.step.1.machine.flags = right.step.1.machine.flags ∧
            left.step.1.machine.status = right.step.1.machine.status := by
  refine ⟨?_, ?_, ?_⟩
  · intro machine
    refine ⟨machine.length_traceLine, ?_, ?_⟩
    · rw [Machine.lineBytes_traceLine, Machine.flatten_traceGroups, Machine.fetch_zero]
      rfl
    · rw [Machine.instruction?, Machine.fetch_zero]
      rfl
  · intro left right
    rw [Machine.traceLine_eq_iff, Machine.fetch_zero, Machine.fetch_zero]
    rfl
  · intro left right alike noPop noRet
    exact alike.step noPop noRet

/-- A machine that prints a register at the end of memory. -/
def printingAtEnd : Session where
  configuration := .standard
  machine :=
    { Machine.initial with
      pc := 0xFE
      memory := Memory.zeroed.write 0xFE 0x47 |>.write 0xFF 0x01
      registers := Registers.initial.set (.ofOperand 0x01) 0x2A }
  sink := .unbounded
  trace := #[]

/-- The same in a session with a limit and a trace, where something has been printed
before and another cell is in use. -/
def printingAtEndAgain : Session where
  configuration := { policy := .stall, limit := some 5, tracing := true }
  machine :=
    printingAtEnd.machine.withMemory (printingAtEnd.machine.memory.write 0x80 0x99)
  sink := ⟨"7\n", none⟩
  trace := #[]

theorem printingAtEnd_tracedAlike : printingAtEnd.TracedAlike printingAtEndAgain where
  line_eq := by
    rw [Machine.traceLine_eq_iff]
    decide +kernel
  flags_eq := by decide +kernel
  policy_eq := rfl
  left_running := rfl
  right_running := rfl
  left_accepting := rfl
  right_accepting := rfl

theorem trace_line_is_record_printingAtEnd :
    printingAtEnd.TracedAlike printingAtEndAgain ∧
      printingAtEnd.machine.memory.read 0xFE ≠ 0x46 ∧
      printingAtEnd.machine.memory.read 0xFE ≠ 0x11 ∧
      printingAtEndAgain.machine.traceLine.length = 39 ∧
      Machine.lineBytes printingAtEndAgain.machine.traceLine =
        [0xFE, 0x47, 0x01, 0x00, 0, 0x2A, 0, 0, 0, 0, 0, 0xF4] ∧
      printingAtEndAgain.step.2 = .ok .running ∧
      printingAtEndAgain.step.1.machine.pc = 0x00 := by
  obtain ⟨records, _, steps⟩ := trace_line_is_record
  obtain ⟨length_eq, bytes_eq, _⟩ := records printingAtEndAgain.machine
  have noPop : printingAtEnd.machine.memory.read 0xFE ≠ 0x46 := by decide +kernel
  have noRet : printingAtEnd.machine.memory.read 0xFE ≠ 0x11 := by decide +kernel
  obtain ⟨result_eq, _, pc_eq, _⟩ :=
    steps printingAtEnd printingAtEndAgain printingAtEnd_tracedAlike noPop noRet
  refine ⟨printingAtEnd_tracedAlike, noPop, noRet, length_eq, ?_, ?_, ?_⟩
  · rw [bytes_eq]
    decide +kernel
  · rw [← result_eq]
    decide +kernel
  · rw [← pc_eq]
    decide +kernel

end Session
end LS8
