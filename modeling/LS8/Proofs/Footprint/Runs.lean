import Mathlib.Order.BooleanAlgebra.Set
import LS8.Proofs.Footprint.Instruction
import LS8.Proofs.Iteration

/-!
# The footprint of a run in memory

A step reads the cell at the program counter, as many cells behind it as the
opcode there counts, and the top of the stack if it takes a value off it.  Two
sessions that differ in memory only stay that way as long as no step reads a
cell in which they differ: all steps have the same results and output, and the
cells in which the sessions may differ become fewer with every push and call.
-/

namespace LS8

namespace Machine

/-- The addresses of the operand bytes that an opcode counts. -/
def operandReads (machine : Machine) (opcode : Opcode) : List UInt8 :=
  [machine.pc + 1, machine.pc + 2].take (operandCount opcode.byte).toNat

/-- The addresses that the next step reads.  A halted machine reads nothing, and
nothing is read behind an unknown byte. -/
def reads (machine : Machine) : List UInt8 :=
  if machine.isHalted then
    []
  else
    machine.pc ::
      match Opcode.ofByte? (machine.fetch 0) with
      | some opcode => machine.operandReads opcode ++ machine.stackReads opcode
      | none => []

/-- The addresses that the next step writes: those of pushes and calls. -/
def writes (machine : Machine) : List UInt8 :=
  if machine.isHalted then
    []
  else
    match Opcode.ofByte? (machine.fetch 0) with
    | some opcode => machine.stackWrites opcode
    | none => []

/-- Two machines are equal but for memory cells at hidden addresses. -/
structure AgreeOutside (hidden : Set UInt8) (left right : Machine) : Prop where
  pc_eq : right.pc = left.pc
  registers_eq : right.registers = left.registers
  flags_eq : right.flags = left.flags
  status_eq : right.status = left.status
  read_eq : ∀ address ∉ hidden,
    right.memory.read address = left.memory.read address

/-- Memory that differs at hidden addresses only is all that differs. -/
theorem agreeOutside_withMemory
    {hidden : Set UInt8}
    {machine : Machine}
    {memory : Memory}
    (read_eq : ∀ address ∉ hidden,
      memory.read address = machine.memory.read address) :
    machine.AgreeOutside hidden (machine.withMemory memory) :=
  ⟨rfl, rfl, rfl, rfl, read_eq⟩

theorem mem_operandReads
    {machine : Machine}
    {opcode : Opcode}
    {index : Nat}
    (counted : index < (operandCount opcode.byte).toNat)
    {address : UInt8}
    (present : [machine.pc + 1, machine.pc + 2][index]? = some address) :
    address ∈ machine.operandReads opcode := by
  rw [← List.getElem?_take_of_lt counted] at present
  exact List.mem_of_getElem? present

section Decoding

variable {machine : Machine} {opcode : Opcode}

theorem instruction?_of_unknown
    (unknown : Opcode.ofByte? (machine.fetch 0) = none) :
    machine.instruction? = none :=
  Instruction.decode?_eq_none_iff.mpr unknown

theorem reads_of_opcode
    (running : machine.status = .running)
    (known : Opcode.ofByte? (machine.fetch 0) = some opcode) :
    machine.reads =
      machine.pc :: (machine.operandReads opcode ++ machine.stackReads opcode) := by
  rw [reads, known]
  simp [isHalted, running]

theorem writes_of_opcode
    (running : machine.status = .running)
    (known : Opcode.ofByte? (machine.fetch 0) = some opcode) :
    machine.writes = machine.stackWrites opcode := by
  rw [writes, known]
  simp [isHalted, running]

theorem writes_of_unknown
    (unknown : Opcode.ofByte? (machine.fetch 0) = none) :
    machine.writes = [] := by
  rw [writes, unknown]
  simp

theorem writes_of_halted
    (halted : machine.status = .halted) :
    machine.writes = [] := by
  simp [writes, isHalted, halted]

end Decoding

namespace AgreeOutside

variable {hidden : Set UInt8} {left right : Machine}

theorem eq_withMemory (agree : AgreeOutside hidden left right) :
    right = left.withMemory right.memory := by
  obtain ⟨pc_eq, registers_eq, flags_eq, status_eq, _⟩ := agree
  cases right
  subst pc_eq registers_eq flags_eq status_eq
  rfl

theorem fetch_eq
    (agree : AgreeOutside hidden left right)
    {distance : UInt8}
    (unread : left.pc + distance ∉ hidden) :
    right.fetch distance = left.fetch distance := by
  rw [fetch, fetch, agree.pc_eq]
  exact agree.read_eq _ unread

/-- Where nothing is written, no hidden cell comes to light. -/
theorem of_writes_eq_nil
    (agree : AgreeOutside hidden left right)
    (writes_eq : left.writes = []) :
    AgreeOutside (hidden \ {address | address ∈ left.writes}) left right := by
  have no_writes : {address | address ∈ left.writes} = (∅ : Set UInt8) := by
    simp [writes_eq]
  rw [no_writes, Set.sdiff_empty]
  exact agree

/-- Machines that differ in no cell that an instruction reads execute it alike,
and differ in fewer cells afterwards. -/
theorem execute
    (agree : AgreeOutside hidden left right)
    {opcode : Opcode}
    (running : left.status = .running)
    (known : Opcode.ofByte? (left.fetch 0) = some opcode)
    (unread : ∀ address ∈ left.reads, address ∉ hidden)
    (policy : UnknownOpcodePolicy) :
    ∃ leftEffect rightEffect,
      left.next policy = .ok leftEffect ∧
        right.next policy = .ok rightEffect ∧
        rightEffect.line = leftEffect.line ∧
        (∀ address ∈ left.writes, leftEffect.line = none) ∧
        AgreeOutside (hidden \ {address | address ∈ left.writes})
          leftEffect.machine rightEffect.machine := by
  rw [reads_of_opcode running known] at unread
  rw [writes_of_opcode running known]
  have first_eq : right.fetch 0 = left.fetch 0 := by
    apply agree.fetch_eq
    rw [UInt8.add_zero]
    exact unread _ List.mem_cons_self
  have operand_unread : ∀ address ∈ left.operandReads opcode, address ∉ hidden :=
    fun address read =>
      unread address (List.mem_cons_of_mem _ (List.mem_append_left _ read))
  have stack_unread : ∀ address ∈ left.stackReads opcode, address ∉ hidden :=
    fun address read =>
      unread address (List.mem_cons_of_mem _ (List.mem_append_right _ read))
  have rightKnown : Opcode.ofByte? (right.fetch 0) = some opcode := by
    rw [first_eq, known]
  have rightRunning : right.status = .running := by
    rw [agree.status_eq, running]
  let instruction := Instruction.ofOpcode opcode (left.fetch 1) (left.fetch 2)
  have operands_eq :
      right.execute
          (Instruction.ofOpcode opcode (right.fetch 1) (right.fetch 2)) =
        right.execute instruction := by
    apply execute_ofOpcode_congr
    · intro counted
      exact agree.fetch_eq (operand_unread _ (mem_operandReads counted rfl))
    · intro counted
      exact agree.fetch_eq (operand_unread _ (mem_operandReads counted rfl))
  have execute_eq :
      right.execute instruction =
        ⟨(left.execute instruction).machine.withMemory
            (left.store instruction right.memory),
          (left.execute instruction).line⟩ := by
    rw [agree.eq_withMemory]
    apply execute_withMemory
    rw [Instruction.opcode_ofOpcode]
    exact fun address read => agree.read_eq address (stack_unread address read)
  refine ⟨left.execute instruction, right.execute instruction, ?_, ?_, ?_, ?_,
    ?_⟩
  · exact next_of_instruction running (instruction?_of_opcode known) policy
  · rw [← operands_eq]
    exact next_of_instruction rightRunning (instruction?_of_opcode rightKnown)
      policy
  · rw [execute_eq]
  · intro address written
    apply line_execute_of_mem_stackWrites
    rwa [Instruction.opcode_ofOpcode]
  · rw [execute_eq]
    refine ⟨rfl, rfl, rfl, rfl, ?_⟩
    intro address visible
    rw [memory_execute]
    apply read_store_eq
    rw [Instruction.opcode_ofOpcode]
    intro kept
    exact agree.read_eq address (fun isHidden => visible ⟨isHidden, kept⟩)

/-- Machines that differ in no cell that a step reads refuse to execute for the
same reason, or execute alike. -/
theorem next_cases
    (agree : AgreeOutside hidden left right)
    (unread : ∀ address ∈ left.reads, address ∉ hidden)
    (policy : UnknownOpcodePolicy) :
    (∃ error,
        left.next policy = .error error ∧
          right.next policy = .error error ∧
          left.writes = []) ∨
      ∃ leftEffect rightEffect,
        left.next policy = .ok leftEffect ∧
          right.next policy = .ok rightEffect ∧
          rightEffect.line = leftEffect.line ∧
          (∀ address ∈ left.writes, leftEffect.line = none) ∧
          AgreeOutside (hidden \ {address | address ∈ left.writes})
            leftEffect.machine rightEffect.machine := by
  cases status_eq : left.status with
  | halted =>
      left
      have rightHalted : right.status = .halted := by
        rw [agree.status_eq, status_eq]
      exact ⟨_, next_of_halted status_eq policy,
        next_of_halted rightHalted policy, writes_of_halted status_eq⟩
  | running =>
      cases known : Opcode.ofByte? (left.fetch 0) with
      | some opcode =>
          right
          exact agree.execute status_eq known unread policy
      | none =>
          have rightRunning : right.status = .running := by
            rw [agree.status_eq, status_eq]
          have first_eq : right.fetch 0 = left.fetch 0 := by
            apply agree.fetch_eq
            rw [UInt8.add_zero]
            apply unread
            rw [reads, known]
            simp [isHalted, status_eq]
          have unknown := instruction?_of_unknown known
          have rightUnknown : right.instruction? = none := by
            rw [← first_eq] at known
            exact instruction?_of_unknown known
          have writes_eq := writes_of_unknown known
          cases policy with
          | stall =>
              right
              exact ⟨_, _, next_stall_of_unknown status_eq unknown,
                next_stall_of_unknown rightRunning rightUnknown, rfl,
                fun _ _ => rfl, agree.of_writes_eq_nil writes_eq⟩
          | fault =>
              left
              refine ⟨_, next_fault_of_unknown status_eq unknown, ?_, writes_eq⟩
              rw [next_fault_of_unknown rightRunning rightUnknown, first_eq,
                agree.pc_eq]

end AgreeOutside
end Machine

namespace Session

/-- Two sessions are equal but for memory cells at hidden addresses and for their
traces. -/
structure AgreeOutside (hidden : Set UInt8) (left right : Session) : Prop where
  configuration_eq : right.configuration = left.configuration
  sink_eq : right.sink = left.sink
  machine : left.machine.AgreeOutside hidden right.machine

variable {hidden : Set UInt8} {left right : Session}

/-- A step that reads no hidden cell has the same result in both sessions. -/
theorem AgreeOutside.step
    (agree : AgreeOutside hidden left right)
    (unread : ∀ address ∈ left.machine.reads, address ∉ hidden) :
    right.step.2 = left.step.2 ∧
      AgreeOutside (hidden \ {address | address ∈ left.machine.writes})
        left.step.1 right.step.1 := by
  have policy_eq : right.configuration.policy = left.configuration.policy :=
    congrArg Configuration.policy agree.configuration_eq
  have configuration_eq :
      right.step.1.configuration = left.step.1.configuration := by
    rw [configuration_step, configuration_step, agree.configuration_eq]
  rcases agree.machine.next_cases unread left.configuration.policy with
    ⟨error, leftRefuses, rightRefuses, writes_eq⟩ |
      ⟨leftEffect, rightEffect, leftExecutes, rightExecutes, line_eq, silent,
        agreeAfter⟩
  · rw [← policy_eq] at rightRefuses
    rw [step_of_error leftRefuses, step_of_error rightRefuses] at configuration_eq ⊢
    refine ⟨rfl, configuration_eq, ?_, ?_⟩
    · rw [sink_observe, sink_observe, agree.sink_eq]
    · rw [machine_observe, machine_observe]
      exact agree.machine.of_writes_eq_nil writes_eq
  · have text_eq : rightEffect.text = leftEffect.text := by
      rw [Effect.text, line_eq, Effect.text]
    rw [← policy_eq] at rightExecutes
    cases accepted : left.sink.accepts leftEffect.text with
    | true =>
        have rightAccepts : right.sink.accepts rightEffect.text = true := by
          rw [agree.sink_eq, text_eq, accepted]
        rw [step_of_accepts leftExecutes accepted,
          step_of_accepts rightExecutes rightAccepts] at configuration_eq ⊢
        refine ⟨?_, configuration_eq, ?_, agreeAfter⟩
        · rw [agreeAfter.status_eq]
        · rw [agree.sink_eq, text_eq]
    | false =>
        have rightRefuses : right.sink.accepts rightEffect.text = false := by
          rw [agree.sink_eq, text_eq, accepted]
        -- What is refused is a line, and a step that writes a line stores
        -- nothing.
        have writes_eq : left.machine.writes = [] := by
          apply List.eq_nil_iff_forall_not_mem.mpr
          intro address written
          rw [Effect.text, silent address written] at accepted
          simp at accepted
        rw [step_of_refuses leftExecutes accepted,
          step_of_refuses rightExecutes rightRefuses] at configuration_eq ⊢
        refine ⟨rfl, configuration_eq, ?_, ?_⟩
        · rw [agree.sink_eq, text_eq]
        · rw [machine_observe, machine_observe]
          exact agree.machine.of_writes_eq_nil writes_eq

/-- The addresses that pushes and calls have written in a number of steps. -/
def written (session : Session) (count : Nat) : Set UInt8 :=
  {address | ∃ index < count, address ∈ (session.after index).machine.writes}

theorem written_zero (session : Session) : session.written 0 = ∅ := by
  simp [written]

theorem written_succ (session : Session) (count : Nat) :
    session.written (count + 1) =
      session.written count ∪
        {address | address ∈ (session.after count).machine.writes} := by
  ext address
  simp only [written, Set.mem_ofPred_eq, Set.mem_union, Nat.lt_succ_iff_lt_or_eq]
  constructor
  · rintro ⟨index, earlier | rfl, writes⟩
    · exact .inl ⟨index, earlier, writes⟩
    · exact .inr writes
  · rintro (⟨index, earlier, writes⟩ | writes)
    · exact ⟨index, .inl earlier, writes⟩
    · exact ⟨count, .inr rfl, writes⟩

/-- Sessions that differ in no cell that a run reads before it has written it
stay equal but for the cells that it has not written. -/
theorem AgreeOutside.after
    (agree : AgreeOutside hidden left right)
    {count : Nat}
    (unread : ∀ index < count, ∀ address ∈ (left.after index).machine.reads,
      address ∈ hidden → address ∈ left.written index) :
    AgreeOutside (hidden \ left.written count) (left.after count)
      (right.after count) := by
  induction count with
  | zero =>
      rw [written_zero, Set.sdiff_empty]
      exact agree
  | succ count inductionHypothesis =>
      have earlier := inductionHypothesis
        (fun index index_lt => unread index (Nat.lt_succ_of_lt index_lt))
      rw [written_succ, ← Set.sdiff_sdiff]
      refine (earlier.step ?_).2
      rintro address read ⟨isHidden, unwritten⟩
      exact unwritten (unread count (Nat.lt_succ_self count) address read isHidden)

/-- Cells that a run does not read before it has written them have no influence on it,
and the bytes behind the counted operands are never read. -/
theorem unread_cells_have_no_influence
    {count : Nat}
    (agree : AgreeOutside hidden left right)
    (unread : ∀ index < count, ∀ address ∈ (left.after index).machine.reads,
      address ∈ hidden → address ∈ left.written index) :
    (∀ index < count,
        (right.after index).step.2 = (left.after index).step.2) ∧
      (∀ index ≤ count,
        AgreeOutside (hidden \ left.written index) (left.after index)
          (right.after index)) ∧
      ∀ (machine : Machine) (opcode : Opcode)
        (first second otherFirst otherSecond : UInt8),
        (1 ≤ operandCount opcode.byte → first = otherFirst) →
          (2 ≤ operandCount opcode.byte → second = otherSecond) →
          machine.execute (.ofOpcode opcode first second) =
            machine.execute (.ofOpcode opcode otherFirst otherSecond) := by
  have agreeAfter : ∀ index ≤ count,
      AgreeOutside (hidden \ left.written index) (left.after index)
        (right.after index) := by
    intro index index_le
    apply agree.after
    intro earlier earlier_lt
    exact unread earlier (Nat.lt_of_lt_of_le earlier_lt index_le)
  refine ⟨?_, agreeAfter, ?_⟩
  · intro index index_lt
    refine ((agreeAfter index (Nat.le_of_lt index_lt)).step ?_).1
    rintro address read ⟨isHidden, unwritten⟩
    exact unwritten (unread index index_lt address read isHidden)
  · intro machine opcode first second otherFirst otherSecond firstCounted
      secondCounted
    exact Machine.execute_ofOpcode_congr firstCounted secondCounted machine

/-- A program that moves a value over the stack and takes its complement. -/
def complementing : Session where
  configuration := .standard
  machine :=
    { Machine.initial with
      memory := Memory.zeroed.overlay
        [0x82, 0x00, 0x05, 0x45, 0x00, 0x46, 0x01, 0x69, 0x01, 0x01] }
  sink := .unbounded
  trace := #[]

/-- The same program with other values in the cell of the stack and in the cell
behind the complement, which is fetched like a second register. -/
def complementingElsewhere : Session :=
  { complementing with
    machine :=
      complementing.machine.withMemory
        ((complementing.machine.memory.write 0xf3 0x77).write 0x09 0xaa) }

theorem complementing_agreeOutside :
    complementing.AgreeOutside {0x09, 0xf3} complementingElsewhere where
  configuration_eq := rfl
  sink_eq := rfl
  machine := by
    apply Machine.agreeOutside_withMemory
    intro address visible
    rw [Set.mem_insert_iff, Set.mem_singleton_iff, not_or] at visible
    exact (Memory.read_write_of_ne _ _ visible.1).trans
      (Memory.read_write_of_ne _ _ visible.2)

theorem complementing_unread :
    ∀ index < 4, ∀ address ∈ (complementing.after index).machine.reads,
      address ∈ ({0x09, 0xf3} : Set UInt8) →
        address ∈ complementing.written index := by
  have checked :
      ∀ index < 4, ∀ address ∈ (complementing.after index).machine.reads,
        (address = 0x09 ∨ address = 0xf3) →
          ∃ earlier < index,
            address ∈ (complementing.after earlier).machine.writes := by
    decide +kernel
  exact checked

theorem unread_cells_have_no_influence_complementing :
    complementing.AgreeOutside {0x09, 0xf3} complementingElsewhere ∧
      (∀ index < 4, ∀ address ∈ (complementing.after index).machine.reads,
        address ∈ ({0x09, 0xf3} : Set UInt8) →
          address ∈ complementing.written index) ∧
      (complementingElsewhere.after 4).machine.get 1 = 0xfa := by
  obtain ⟨_, agree, _⟩ :=
    unread_cells_have_no_influence complementing_agreeOutside
      complementing_unread
  refine ⟨complementing_agreeOutside, complementing_unread, ?_⟩
  rw [Machine.get, (agree 4 (Nat.le_refl 4)).machine.registers_eq]
  decide +kernel

end Session
end LS8
