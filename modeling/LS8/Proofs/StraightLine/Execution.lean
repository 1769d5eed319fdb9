import LS8.Proofs.Footprint.Instruction
import LS8.Proofs.RunLoop
import LS8.Proofs.StraightLine.Code

/-!
# Execution of straight-line code

A machine that runs an encoded program does what the interpretation of the
program says, as long as no push reaches into the program itself.  The invariant
is an alignment: whenever the machine is about to execute an instruction, its
program counter is the address of the first byte of the statement that the
interpretation carries out next.
-/

namespace LS8

namespace StraightLine

/-- The data of a session. -/
def Data.of (session : Session) : Data where
  registers := session.machine.registers
  flags := session.machine.flags.bits.toNat
  memory := session.machine.memory
  output := session.sink.written

/-- The session after an instruction whose text was accepted. -/
def advanced (session : Session) (effect : Effect) : Session :=
  { session.observe with
    machine := effect.machine
    sink :=
      { session.sink with written := session.sink.written ++ effect.text } }

/-- An image lies in memory from address zero on. -/
def HoldsImage (memory : Memory) (image : List UInt8) : Prop :=
  ∀ (index : Nat) (byte : UInt8),
    image[index]? = some byte → memory.read (UInt8.ofNat index) = byte

section Decoding

variable {machine : Machine} {front rest : List UInt8}

theorem HoldsImage.fetch
    {bytes : List UInt8}
    (holds : HoldsImage machine.memory (front ++ (bytes ++ rest)))
    (pc_eq : machine.pc = UInt8.ofNat front.length)
    {distance byte : UInt8}
    (present : bytes[distance.toNat]? = some byte) :
    machine.fetch distance = byte := by
  have inside : distance.toNat < bytes.length :=
    (List.getElem?_eq_some_iff.mp present).1
  have address_eq :
      machine.pc + distance = UInt8.ofNat (front.length + distance.toNat) := by
    rw [pc_eq, UInt8.ofNat_add, UInt8.ofNat_toNat]
  rw [Machine.fetch, address_eq]
  apply holds
  rw [List.getElem?_append_right (Nat.le_add_right _ _), Nat.add_sub_cancel_left,
    List.getElem?_append_left inside]
  exact present

/-- At the first byte of a statement the machine decodes an instruction that does
what the statement's own instruction does. -/
theorem HoldsImage.decode
    {statement : Statement}
    (holds : HoldsImage machine.memory (front ++ (statement.bytes ++ rest)))
    (pc_eq : machine.pc = UInt8.ofNat front.length) :
    ∃ instruction,
      machine.instruction? = some instruction ∧
        machine.execute instruction = machine.execute statement.instruction := by
  have byte_eq : machine.fetch 0 = statement.opcode.byte :=
    holds.fetch pc_eq rfl
  have known : Opcode.ofByte? (machine.fetch 0) = some statement.opcode := by
    rw [byte_eq, Opcode.ofByte?_byte]
  refine ⟨_, Machine.instruction?_of_opcode known, ?_⟩
  apply Machine.execute_ofOpcode_congr
  · intro counted
    exact holds.fetch pc_eq (statement.getElem?_bytes counted)
  · intro counted
    exact holds.fetch pc_eq (statement.getElem?_bytes counted)

end Decoding

section Statements

variable {session : Session} {statement : Statement}

/-- What an operation other than a comparison puts into its first register. -/
theorem execute_alu
    {op : AluOp}
    {first second : UInt8}
    (noComparison : op ≠ .cmp)
    (proceeds : ¬(Statement.alu op first second).DividesByZero (.of session)) :
    let x := (session.machine.get (.ofOperand first)).toNat
    let y := (session.machine.get (.ofOperand second)).toNat
    session.machine.execute (Statement.alu op first second).instruction =
      ⟨{ session.machine with
          registers :=
            session.machine.registers.set (.ofOperand first)
              (.ofNat (op.number x y)) }.advance
          (Statement.alu op first second).instruction,
        none⟩ := by
  intro x y
  have defined : ¬((op = .div ∨ op = .mod) ∧ y = 0) := fun ⟨division, zero⟩ =>
    proceeds ⟨division, UInt8.toNat_inj.mp zero⟩
  obtain ⟨byte, computed, number_eq⟩ := AluOp.compute_eq_value noComparison defined
  rw [← number_eq, UInt8.ofNat_toNat]
  have applied := @AluOp.apply_of_value _ _ session.machine.flags _ _ _ computed
  simp only [Statement.instruction, Statement.opcode, Statement.first,
    Statement.second, Instruction.ofOpcode, Machine.execute, Machine.calculate,
    applied]

/-- The instruction of a statement does what the statement says, and goes on to
the next one. -/
theorem execute_of_proceeds
    (proceeds : ¬statement.DividesByZero (.of session)) :
    let effect := session.machine.execute statement.instruction
    Data.of (advanced session effect) = statement.apply (.of session) ∧
      effect.machine.pc = session.machine.pc + statement.instruction.length ∧
      effect.machine.status = session.machine.status := by
  intro effect
  cases statement with
  | prn source => exact ⟨rfl, rfl, rfl⟩
  | alu op first second =>
      rcases Decidable.em (op = .cmp) with rfl | noComparison
      · have flags_eq := Flags.toNat_bits_compare
          (session.machine.get (.ofOperand first))
          (session.machine.get (.ofOperand second))
        refine ⟨?_, rfl, rfl⟩
        rw [Statement.apply, if_pos rfl]
        exact congrArg₂ (fun flags output => Data.mk _ flags _ output)
          flags_eq String.append_empty
      · have effect_eq : effect = _ := execute_alu noComparison proceeds
        rw [effect_eq]
        refine ⟨?_, rfl, rfl⟩
        rw [Statement.apply, if_neg noComparison]
        exact congrArg (Data.mk _ _ _) String.append_empty
  | _ => exact ⟨congrArg (Data.mk _ _ _) String.append_empty, rfl, rfl⟩

/-- The instruction of a statement that divides by zero halts with a message. -/
theorem execute_of_divides
    (divides : statement.DividesByZero (.of session)) :
    session.machine.execute statement.instruction =
      ⟨{ session.machine with status := .halted }, some .zeroDivision⟩ := by
  cases statement with
  | alu op first second => exact Machine.execute_of_zeroDivision divides.1 divides.2
  | _ => exact divides.elim

end Statements

section Images

variable {memory : Memory} {image : List UInt8}

theorem HoldsImage.write
    (holds : HoldsImage memory image)
    (fits : image.length ≤ Memory.size)
    {address : UInt8}
    (outside : image.length ≤ address.toNat)
    (value : UInt8) :
    HoldsImage (memory.write address value) image := by
  intro index byte present
  have inside : index < image.length := (List.getElem?_eq_some_iff.mp present).1
  have index_eq : (UInt8.ofNat index).toNat = index :=
    UInt8.toNat_ofNat_of_lt' (Nat.lt_of_lt_of_le inside fits)
  rw [Memory.read_write_of_ne]
  · exact holds index byte present
  · rintro rfl
    omega

/-- A statement that writes outside an image leaves it in place. -/
theorem HoldsImage.apply
    {statement : Statement}
    {data : Data}
    (holds : HoldsImage data.memory image)
    (fits : image.length ≤ Memory.size)
    (outside : ∀ address ∈ statement.writes data,
      image.length ≤ address.toNat) :
    HoldsImage (statement.apply data).memory image := by
  cases statement with
  | push source => exact holds.write fits (outside _ (List.mem_singleton_self _)) _
  | alu op first second =>
      rw [Statement.apply]
      split <;> exact holds
  | _ => exact holds

/-- A loaded image is in place. -/
theorem holdsImage_overlay (fits : image.length ≤ Memory.size) (memory : Memory) :
    HoldsImage (memory.overlay image) image := by
  intro index byte present
  have inside : index < image.length := (List.getElem?_eq_some_iff.mp present).1
  rw [Memory.read_overlay,
    UInt8.toNat_ofNat_of_lt' (Nat.lt_of_lt_of_le inside fits),
    List.getD_eq_getElem?_getD, present, Option.getD_some]

end Images

/-- The session runs, accepts all output, and stands behind the bytes of some
statements. -/
structure StandsBehind (session : Session) (front : List Statement) : Prop where
  pc_eq : session.machine.pc = UInt8.ofNat (code front).length
  running : session.machine.status = .running
  accepting : session.sink.room = none

section Steps

variable {session : Session} {front : List Statement}

theorem StandsBehind.step_eq
    (stands : StandsBehind session front)
    {instruction : Instruction}
    (decoded : session.machine.instruction? = some instruction) :
    session.step =
      (advanced session (session.machine.execute instruction),
        .ok (session.machine.execute instruction).machine.status) := by
  have executed := Machine.next_of_instruction stands.running decoded
    session.configuration.policy
  rw [Session.step_of_unlimited stands.accepting executed,
    Sink.write_of_room_none stands.accepting]
  rfl

variable {statement : Statement} {rest : List UInt8}

/-- At a statement, a step executes the statement's own instruction. -/
theorem StandsBehind.step_of_statement
    (stands : StandsBehind session front)
    (holds : HoldsImage session.machine.memory
      (code front ++ (statement.bytes ++ rest))) :
    session.step =
      (advanced session (session.machine.execute statement.instruction),
        .ok (session.machine.execute statement.instruction).machine.status) := by
  obtain ⟨instruction, decoded, execute_eq⟩ := holds.decode stands.pc_eq
  rw [stands.step_eq decoded, execute_eq]

/-- A step carries out the statement that the session stands in front of, and
moves behind it. -/
theorem StandsBehind.step_of_proceeds
    (stands : StandsBehind session front)
    (holds : HoldsImage session.machine.memory
      (code front ++ (statement.bytes ++ rest)))
    (proceeds : ¬statement.DividesByZero (.of session)) :
    ∃ next,
      session.step = (next, .ok .running) ∧
        Data.of next = statement.apply (.of session) ∧
        StandsBehind next (front ++ [statement]) := by
  obtain ⟨data_eq, pc_eq, status_eq⟩ := execute_of_proceeds proceeds
  rw [stands.running] at status_eq
  refine ⟨advanced session (session.machine.execute statement.instruction),
    ?_, data_eq, ?_, status_eq, stands.accepting⟩
  · rw [stands.step_of_statement holds, status_eq]
  · rw [advanced, pc_eq, code_append, code_cons, code_nil, List.append_nil,
      List.length_append, UInt8.ofNat_add, ← stands.pc_eq,
      ← statement.length_instruction]

/-- The next step halts the machine where it stands. -/
structure HaltsNext (session : Session) (data : Data) : Prop where
  stepped : session.step = (session.step.1, .ok .halted)
  data_eq : Data.of session.step.1 = data
  pc_eq : session.step.1.machine.pc = session.machine.pc
  halted : session.step.1.machine.status = .halted

/-- The machine halts in front of a statement that divides by zero. -/
theorem StandsBehind.haltsNext_of_divides
    (stands : StandsBehind session front)
    (holds : HoldsImage session.machine.memory
      (code front ++ (statement.bytes ++ rest)))
    (divides : statement.DividesByZero (.of session)) :
    HaltsNext session ((Data.of session).write zeroDivisionText) := by
  have step_eq := stands.step_of_statement holds
  rw [execute_of_divides divides] at step_eq
  constructor <;> rw [step_eq] <;> rfl

/-- The machine halts behind the last statement. -/
theorem StandsBehind.haltsNext_of_hlt
    (stands : StandsBehind session front)
    (holds : HoldsImage session.machine.memory (image front)) :
    HaltsNext session (.of session) := by
  have byte_eq : session.machine.fetch 0 = Opcode.hlt.byte := by
    rw [image, ← List.append_nil [Opcode.hlt.byte]] at holds
    exact holds.fetch stands.pc_eq rfl
  have known : Opcode.ofByte? (session.machine.fetch 0) = some .hlt := by
    rw [byte_eq, Opcode.ofByte?_byte]
  have step_eq := stands.step_eq (Machine.instruction?_of_opcode known)
  constructor <;> rw [step_eq]
  · rfl
  · exact congrArg (Data.mk _ _ _) String.append_empty
  · rfl
  · rfl

end Steps

/-! ## Runs -/

/-- The machine halts right behind some further statements, having carried out
just these. -/
structure HaltsBehind
    (session : Session)
    (front completed : List Statement)
    (data : Data) : Prop where
  halts : session.HaltsAfter (completed.length + 1)
  data_eq : Data.of (session.after (completed.length + 1)) = data
  pc_eq :
    (session.after (completed.length + 1)).machine.pc =
      UInt8.ofNat (code (front ++ completed)).length

section Runs

variable
  {session : Session}
  {front completed : List Statement}
  {data : Data}

theorem HaltsNext.haltsBehind
    (haltsNext : HaltsNext session data)
    (stands : StandsBehind session front) :
    HaltsBehind session front [] data where
  halts := .succ haltsNext.stepped
    { succeeds := Session.succeeds_zero _
      running := fun index index_lt => absurd index_lt (Nat.not_lt_zero index)
      halted := haltsNext.halted }
  data_eq := haltsNext.data_eq
  pc_eq := by
    rw [List.append_nil, ← stands.pc_eq]
    exact haltsNext.pc_eq

theorem HaltsBehind.cons
    {next : Session}
    {status : Status}
    {statement : Statement}
    (stepped : session.step = (next, .ok status))
    (haltsBehind : HaltsBehind next (front ++ [statement]) completed data) :
    HaltsBehind session front (statement :: completed) data where
  halts := haltsBehind.halts.succ stepped
  data_eq := by
    rw [List.length_cons, Session.after_succ_of_step stepped]
    exact haltsBehind.data_eq
  pc_eq := by
    rw [List.length_cons, Session.after_succ_of_step stepped,
      haltsBehind.pc_eq, List.append_assoc, List.singleton_append]

/-- From any statement of an image on, the machine does what the interpretation
of the remaining statements says. -/
theorem StandsBehind.haltsBehind
    {program : List Statement}
    (stands : StandsBehind session front)
    (holds : HoldsImage session.machine.memory (image (front ++ program)))
    (fits : (image (front ++ program)).length ≤ Memory.size)
    (outside : ∀ address ∈ writes program (.of session),
      (image (front ++ program)).length ≤ address.toNat) :
    HaltsBehind session front
      ((interpret program (.of session)).completed program)
      (interpret program (.of session)).data := by
  induction program generalizing session front with
  | nil =>
      rw [List.append_nil] at holds
      exact (stands.haltsNext_of_hlt holds).haltsBehind stands
  | cons statement rest inductionHypothesis =>
      have holdsStatement := holds
      rw [image_append_cons] at holdsStatement
      rcases Decidable.em (statement.DividesByZero (.of session)) with
        divides | proceeds
      · rw [interpret_cons_of_divides divides]
        exact (stands.haltsNext_of_divides holdsStatement divides).haltsBehind
          stands
      · obtain ⟨next, stepped, data_eq, nextStands⟩ :=
          stands.step_of_proceeds holdsStatement proceeds
        have memory_eq :
            next.machine.memory = (statement.apply (.of session)).memory :=
          congrArg Data.memory data_eq
        rw [writes_cons proceeds, ← data_eq] at outside
        rw [completed_cons proceeds, interpret_cons proceeds, ← data_eq]
        rw [← List.singleton_append, ← List.append_assoc] at holds fits outside
        apply HaltsBehind.cons stepped
        -- The image is the same with one more statement in front, and it is
        -- still in place because the statement has written outside of it.
        apply inductionHypothesis nextStands
        · rw [memory_eq]
          apply HoldsImage.apply holds fits
          intro address written
          exact outside address (List.mem_append_left _ written)
        · exact fits
        · intro address written
          exact outside address (List.mem_append_right _ written)

end Runs

/-- A session after a reset that has loaded the image of a program. -/
def ready
    (configuration : Configuration)
    (sink : Sink)
    (program : List Statement) :
    Session :=
  { Session.start configuration sink with
    machine :=
      { Machine.initial with memory := Memory.zeroed.overlay (image program) } }

section Ready

variable
  {configuration : Configuration}
  {sink : Sink}
  {program : List Statement}

theorem load_image (fits : (image program).length ≤ Memory.size) :
    (Session.start configuration sink).load (image program) =
      .ok (ready configuration sink program) := by
  rw [Session.load, Machine.load, Memory.load_of_length_le _ fits]
  rfl

/-- Halting behind the first statements of a program is how a run with enough
allowance ends. -/
theorem HaltsBehind.run_eq
    {completed rest : List Statement}
    {data : Data}
    {limit : Nat}
    (haltsBehind :
      HaltsBehind (ready configuration sink program) [] completed data)
    (split : completed ++ rest = program)
    (fits : (image program).length ≤ Memory.size)
    (limited : configuration.limit = some limit)
    (allowed : program.length + 1 ≤ limit) :
    ∃ final,
      (ready configuration sink program).run =
          (final, .halted (completed.length + 1)) ∧
        Data.of final = data ∧
        final.machine.status = .halted ∧
        final.machine.pc.toNat = (code completed).length := by
  have count_le : completed.length ≤ program.length := by
    rw [← split, List.length_append]
    exact Nat.le_add_right _ _
  have code_lt : (code completed).length < Memory.size := by
    rw [image, ← split, code_append, List.length_append, List.length_append,
      List.length_singleton] at fits
    omega
  refine ⟨_, haltsBehind.halts.run_eq limited (by omega), haltsBehind.data_eq,
    haltsBehind.halts.halted, ?_⟩
  rw [haltsBehind.pc_eq, List.nil_append, UInt8.toNat_ofNat_of_lt' code_lt]

/-- A program that fits into memory and whose pushes stay away from its bytes runs as it
is interpreted, up to its halt or its first division by zero. -/
theorem run_follows_interpretation
    {limit : Nat}
    (fits : (image program).length ≤ Memory.size)
    (limited : configuration.limit = some limit)
    (allowed : program.length + 1 ≤ limit)
    (accepting : sink.room = none)
    (outside :
      ∀ address ∈ writes program (.loaded (image program) sink.written),
        (image program).length ≤ address.toNat) :
    let interpretation :=
      interpret program (.loaded (image program) sink.written)
    ∃ loaded final outcome,
      (Session.start configuration sink).load (image program) = .ok loaded ∧
        loaded.run = (final, outcome) ∧
        Data.of final = interpretation.data ∧
        final.machine.status = .halted ∧
        (interpretation.stop = none →
          outcome = .halted (program.length + 1) ∧
            final.machine.pc.toNat = (code program).length) ∧
        (∀ position,
          interpretation.stop = some position →
            outcome = .halted (position + 1) ∧
              final.machine.pc.toNat =
                (code (program.take position)).length) := by
  intro interpretation
  have stands : StandsBehind (ready configuration sink program) [] :=
    ⟨rfl, rfl, accepting⟩
  have haltsBehind :
      HaltsBehind (ready configuration sink program) []
        (interpretation.completed program) interpretation.data :=
    stands.haltsBehind (holdsImage_overlay fits Memory.zeroed) fits outside
  obtain ⟨rest, split⟩ := interpretation.exists_completed_append program
  obtain ⟨final, run_eq, data_eq, halted, pc_eq⟩ :=
    haltsBehind.run_eq split fits limited allowed
  refine ⟨_, final, _, load_image fits, run_eq, data_eq, halted, ?_, ?_⟩
  · intro stop_eq
    rw [Interpretation.completed_of_stop_eq_none stop_eq] at pc_eq ⊢
    exact ⟨rfl, pc_eq⟩
  · intro position stop_eq
    have position_le : position ≤ program.length := Nat.le_of_lt (stop_lt stop_eq)
    rw [Interpretation.completed_of_stop_eq_some stop_eq] at pc_eq ⊢
    rw [List.length_take_of_le position_le]
    exact ⟨rfl, pc_eq⟩

end Ready

/-- A program that loads the byte of a print instruction, sends it over the
stack, prints it and its complement, and divides by a register that is zero. -/
def dividing : List Statement :=
  [.ldi 0x08 0x47, .push 0x00, .pop 0x09, .prn 0x01, .alu .not 0x01 0x00,
    .prn 0x01, .alu .div 0x00 0x02, .prn 0x00]

/-- Just enough steps for the whole program. -/
def dividingLimit : Configuration :=
  { Configuration.standard with limit := some 9 }

theorem run_follows_interpretation_dividing :
    (image dividing).length ≤ Memory.size ∧
      dividingLimit.limit = some 9 ∧
      dividing.length + 1 ≤ 9 ∧
      Sink.unbounded.room = none ∧
      (∀ address ∈
          writes dividing (.loaded (image dividing) Sink.unbounded.written),
        (image dividing).length ≤ address.toNat) ∧
      ∃ loaded final,
        (Session.start dividingLimit .unbounded).load (image dividing) =
            .ok loaded ∧
          loaded.run = (final, .halted 7) ∧
          final.machine.pc.toNat = 13 ∧
          final.sink.written = "71\n184\nDivide by Zero Error!\n" := by
  have fits : (image dividing).length ≤ Memory.size := by decide
  have limited : dividingLimit.limit = some 9 := rfl
  have allowed : dividing.length + 1 ≤ 9 := by decide
  have accepting : Sink.unbounded.room = none := rfl
  have outside :
      ∀ address ∈
          writes dividing (.loaded (image dividing) Sink.unbounded.written),
        (image dividing).length ≤ address.toNat := by
    decide +kernel
  obtain ⟨loaded, final, outcome, load_eq, run_eq, data_eq, _, _, stopped⟩ :=
    run_follows_interpretation fits limited allowed accepting outside
  obtain ⟨rfl, pc_eq⟩ := stopped 6 (by decide +kernel)
  refine ⟨fits, limited, allowed, accepting, outside, loaded, final, load_eq,
    run_eq, pc_eq, ?_⟩
  exact (congrArg Data.output data_eq).trans (by decide +kernel)

end StraightLine
end LS8
