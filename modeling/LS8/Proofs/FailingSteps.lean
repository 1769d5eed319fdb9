import LS8.Proofs.Step

/-!
# Failing steps

There are three reasons for a step to fail: the machine has halted, it has to
stop at a byte that belongs to no opcode, or the next instruction writes a line
for which the sink has no room.  The three exclude each other, and without them
a step succeeds.  A step that fails leaves the machine and the configuration as
they were; only a line that did not fit has left its first part in the sink.
-/

namespace LS8

namespace Machine

/-- The next instruction writes a line. -/
inductive Writes (machine : Machine) : OutputLine → Prop where
  /-- A print writes the value of its register. -/
  | number {source : Register} :
      machine.instruction? = some (.prn source) →
      Writes machine (.number (machine.get source))
  /-- A division by a register that is zero writes a message. -/
  | zeroDivision {op : AluOp} {first second : Register} :
      machine.instruction? = some (.alu op first second) →
      op = .div ∨ op = .mod →
      machine.get second = 0 →
      Writes machine .zeroDivision

/-- The line of an effect is the one that the instruction writes. -/
theorem line_execute_eq_some_iff
    {machine : Machine}
    {instruction : Instruction}
    (decoded : machine.instruction? = some instruction)
    (line : OutputLine) :
    (machine.execute instruction).line = some line ↔ machine.Writes line := by
  constructor
  · intro writes
    cases instruction with
    | prn source =>
        rw [← Option.some.inj writes]
        exact .number decoded
    | alu op first second =>
        simp only [execute, calculate, AluOp.apply] at writes
        cases computed : op.compute (machine.registers.get first)
            (machine.registers.get second) with
        | value byte => simp [computed] at writes
        | comparison outcome => simp [computed] at writes
        | zeroDivisor =>
            obtain ⟨division, zero⟩ := AluOp.compute_eq_zeroDivisor_iff.mp computed
            rw [computed] at writes
            rw [← Option.some.inj writes]
            exact .zeroDivision decoded division zero
    | jeq target =>
        simp only [execute] at writes
        contradiction
    | jne target =>
        simp only [execute] at writes
        contradiction
    | _ => contradiction
  · intro writes
    cases writes with
    | number printing =>
        have same := Option.some.inj (decoded.symm.trans printing)
        rw [same]
        rfl
    | @zeroDivision op first second dividing division zero =>
        have same := Option.some.inj (decoded.symm.trans dividing)
        rw [same, execute_of_zeroDivision division zero]

end Machine

namespace Session

/-- The machine has to stop at a byte that belongs to none of the opcodes. -/
structure Faults (session : Session) : Prop where
  running : session.machine.status = .running
  faulting : session.configuration.policy = .fault
  unknown : session.machine.fetch 0 ∉ instructionBytes

/-- The next instruction writes a line that is longer than the room left in the
sink. -/
structure Overflows
    (session : Session)
    (line : OutputLine)
    (room : Nat) : Prop where
  running : session.machine.status = .running
  writes : session.machine.Writes line
  limited : session.sink.room = some room
  tooLong : room < line.text.utf8ByteSize

variable {session : Session}

theorem step_eq_of_failed
    {error : ExecutionError}
    (failed : session.step.2 = .error error) :
    session.step = (session.step.1, .error error) :=
  Prod.ext rfl failed

theorem step_eq_machineHalted_iff :
    session.step.2 = .error .machineHalted ↔
      session.machine.status = .halted := by
  constructor
  · intro failed
    rcases step_error_cases (step_eq_of_failed failed) with
      ⟨refused, _⟩ | ⟨_, _, _, _, error_eq⟩
    · rcases Machine.next_eq_error_iff.mp refused with
        ⟨halted, _⟩ | ⟨_, _, _, error_eq⟩
      · exact halted
      · contradiction
    · contradiction
  · intro halted
    rw [step_of_error (Machine.next_of_halted halted _)]

/-- A step that stops at an unknown byte names the byte and its address. -/
theorem step_eq_unknownOpcode_iff {byte address : UInt8} :
    session.step.2 = .error (.unknownOpcode byte address) ↔
      session.Faults ∧ byte = session.machine.fetch 0 ∧
        address = session.machine.pc := by
  constructor
  · intro failed
    rcases step_error_cases (step_eq_of_failed failed) with
      ⟨refused, _⟩ | ⟨_, _, _, _, error_eq⟩
    · rcases Machine.next_eq_error_iff.mp refused with
        ⟨_, error_eq⟩ | ⟨running, unknown, faulting, error_eq⟩
      · contradiction
      · injection error_eq with byte_eq address_eq
        have unlisted := Machine.instruction?_eq_none_iff.mp unknown
        exact ⟨⟨running, faulting, unlisted⟩, byte_eq, address_eq⟩
    · contradiction
  · rintro ⟨faults, rfl, rfl⟩
    have refused : session.machine.next session.configuration.policy =
        .error (.unknownOpcode (session.machine.fetch 0) session.machine.pc) := by
      rw [faults.faulting]
      exact Machine.next_fault_of_unknown faults.running
        (Machine.instruction?_eq_none_iff.mpr faults.unknown)
    rw [step_of_error refused]

/-- A line that does not fit leaves its first part in the sink. -/
theorem Overflows.step_eq
    {line : OutputLine}
    {room : Nat}
    (overflows : session.Overflows line room) :
    session.step =
      ({ session.observe with sink := session.sink.write line.text },
        .error .output) := by
  obtain ⟨instruction, decoded⟩ :
      ∃ instruction, session.machine.instruction? = some instruction := by
    cases overflows.writes with
    | number printing => exact ⟨_, printing⟩
    | zeroDivision dividing => exact ⟨_, dividing⟩
  have line_eq := (Machine.line_execute_eq_some_iff decoded line).mpr
    overflows.writes
  have text_eq : (session.machine.execute instruction).text = line.text := by
    rw [Effect.text, line_eq]
    rfl
  have tooLong := overflows.tooLong
  rw [OutputLine.utf8ByteSize_text] at tooLong
  rw [← text_eq] at tooLong ⊢
  apply step_of_refuses
  · exact Machine.next_of_instruction overflows.running decoded _
  · simpa [Sink.accepts, overflows.limited] using tooLong

theorem step_eq_output_iff :
    session.step.2 = .error .output ↔
      ∃ line room, session.Overflows line room := by
  constructor
  · intro failed
    rcases step_error_cases (step_eq_of_failed failed) with
      ⟨refused, _⟩ | ⟨effect, executed, refused, _, _⟩
    · rcases Machine.next_eq_error_iff.mp refused with
        ⟨_, error_eq⟩ | ⟨_, _, _, error_eq⟩
      · contradiction
      · contradiction
    · obtain ⟨line, text_eq, line_eq⟩ :
          ∃ line : OutputLine, effect.text = line.text ∧ effect.line = some line := by
        obtain ⟨machine, _ | line⟩ := effect
        · simp at refused
        · exact ⟨line, rfl, rfl⟩
      obtain ⟨room, limited, tooLong⟩ :
          ∃ room, session.sink.room = some room ∧ room < line.text.length := by
        rw [text_eq] at refused
        cases room_eq : session.sink.room with
        | none => simp [Sink.accepts, room_eq] at refused
        | some room =>
            refine ⟨room, rfl, ?_⟩
            simpa [Sink.accepts, room_eq] using refused
      obtain ⟨running, ⟨instruction, decoded, rfl⟩ | ⟨_, _, rfl⟩⟩ :=
        Machine.next_eq_ok_iff.mp executed
      · refine ⟨line, room, running, ?_, limited, ?_⟩
        · exact (Machine.line_execute_eq_some_iff decoded line).mp line_eq
        · rwa [OutputLine.utf8ByteSize_text]
      · contradiction
  · rintro ⟨line, room, overflows⟩
    rw [overflows.step_eq]

/-- No step fails for any other reason. -/
theorem step_error_eq
    {error : ExecutionError}
    (failed : session.step.2 = .error error) :
    error = .machineHalted ∨
      (∃ byte address, error = .unknownOpcode byte address) ∨
      error = .output := by
  rcases step_error_cases (step_eq_of_failed failed) with
    ⟨refused, _⟩ | ⟨_, _, _, _, error_eq⟩
  · rcases Machine.next_eq_error_iff.mp refused with
      ⟨_, error_eq⟩ | ⟨_, _, _, error_eq⟩
    · exact .inl error_eq
    · exact .inr (.inl ⟨_, _, error_eq⟩)
  · exact .inr (.inr error_eq)

theorem step_isOk_iff :
    (∃ status, session.step.2 = .ok status) ↔
      session.machine.status ≠ .halted ∧ ¬session.Faults ∧
        ¬∃ line room, session.Overflows line room := by
  rw [← step_eq_output_iff, ne_eq, ← step_eq_machineHalted_iff]
  cases result : session.step.2 with
  | ok status =>
      have known : ¬session.Faults := by
        intro faults
        have failed := step_eq_unknownOpcode_iff.mpr ⟨faults, rfl, rfl⟩
        rw [result] at failed
        contradiction
      simp [known]
  | error error =>
      rcases step_error_eq result with rfl | ⟨byte, address, rfl⟩ | rfl
      · simp
      · simp [(step_eq_unknownOpcode_iff.mp result).1]
      · simp

/-- Only a refused line changes the sink of a failing step. -/
theorem sink_of_step_error
    {error : ExecutionError}
    (failed : session.step.2 = .error error)
    (silent : error ≠ .output) :
    session.step.1.sink = session.sink := by
  rcases step_error_cases (step_eq_of_failed failed) with
    ⟨_, next_eq⟩ | ⟨_, _, _, _, error_eq⟩
  · rw [next_eq, sink_observe]
  · exact absurd error_eq silent

theorem Overflows.written_eq
    {line : OutputLine}
    {room : Nat}
    (overflows : session.Overflows line room) :
    session.step.1.sink.written =
      session.sink.written ++ String.ofList (line.text.toList.take room) := by
  rw [overflows.step_eq]
  simp [Sink.write, overflows.limited]

/-- A failing step can be made up for: with another sink the machine does what
it would have done with that sink at once. -/
theorem step_withSink_of_step_error
    {error : ExecutionError}
    (failed : session.step.2 = .error error)
    (sink : Sink) :
    (session.step.1.withSink sink).step.1.machine =
        (session.withSink sink).step.1.machine ∧
      (session.step.1.withSink sink).step.1.sink =
        (session.withSink sink).step.1.sink ∧
      (session.step.1.withSink sink).step.2 =
        (session.withSink sink).step.2 := by
  apply Alike.step_cases
  constructor
  · rw [machine_withSink, machine_withSink]
    exact machine_of_step_error (step_eq_of_failed failed)
  · exact congrArg Configuration.policy (configuration_step session)
  · rfl

/-- A step fails for exactly one of three reasons, leaves everything but the sink as it
was, and can be repeated with another sink. -/
theorem failing_step_changes_nothing (session : Session) :
    (session.step.2 = .error .machineHalted ↔
        session.machine.status = .halted) ∧
      (∀ byte address,
        session.step.2 = .error (.unknownOpcode byte address) ↔
          session.Faults ∧ byte = session.machine.fetch 0 ∧
            address = session.machine.pc) ∧
      (session.step.2 = .error .output ↔
        ∃ line room, session.Overflows line room) ∧
      ((∃ status, session.step.2 = .ok status) ↔
        session.machine.status ≠ .halted ∧ ¬session.Faults ∧
          ¬∃ line room, session.Overflows line room) ∧
      (∀ error, session.step.2 = .error error →
        session.step.1.machine = session.machine ∧
          session.step.1.configuration = session.configuration ∧
          (error ≠ .output → session.step.1.sink = session.sink)) ∧
      (∀ line room, session.Overflows line room →
        session.step.1.machine.status = .running ∧
          session.step.1.sink.written =
            session.sink.written ++
              String.ofList (line.text.toList.take room)) ∧
      ∀ error, session.step.2 = .error error → ∀ sink,
        (session.step.1.withSink sink).step.1.machine =
            (session.withSink sink).step.1.machine ∧
          (session.step.1.withSink sink).step.1.sink =
            (session.withSink sink).step.1.sink ∧
          (session.step.1.withSink sink).step.2 =
            (session.withSink sink).step.2 := by
  refine ⟨step_eq_machineHalted_iff, ?_, step_eq_output_iff, step_isOk_iff, ?_,
    ?_, ?_⟩
  · intro byte address
    exact step_eq_unknownOpcode_iff
  · intro error failed
    refine ⟨machine_of_step_error (step_eq_of_failed failed), ?_, ?_⟩
    · exact configuration_step session
    · exact sink_of_step_error failed
  · intro line room overflows
    have failed := step_eq_output_iff.mpr ⟨line, room, overflows⟩
    refine ⟨?_, overflows.written_eq⟩
    rw [machine_of_step_error (step_eq_of_failed failed)]
    exact overflows.running
  · intro error failed sink
    exact step_withSink_of_step_error failed sink

/-- A division by zero with room for five characters of its message. -/
def unwritableDivision : Session where
  configuration := .standard
  machine :=
    { Machine.initial with
      memory := Memory.zeroed.overlay [0xa3, 0x00, 0x01] }
  sink := .bounded 5
  trace := #[]

theorem unwritableDivision_overflows :
    unwritableDivision.Overflows .zeroDivision 5 where
  running := rfl
  writes := by
    have dividing : unwritableDivision.machine.instruction? =
        some (.alu .div 0 1) := by
      decide +kernel
    exact .zeroDivision dividing (.inl rfl) (by decide +kernel)
  limited := rfl
  tooLong := by decide +kernel

theorem failing_step_changes_nothing_unwritableDivision :
    unwritableDivision.step.2 = .error .output ∧
      unwritableDivision.step.1.machine = unwritableDivision.machine ∧
      unwritableDivision.step.1.sink.written = "Divid" ∧
      (unwritableDivision.step.1.withSink .unbounded).step.1.machine.status =
        .halted := by
  obtain ⟨_, _, output_iff, _, unchanged, overflow, retry⟩ :=
    failing_step_changes_nothing unwritableDivision
  have failed := output_iff.mpr ⟨_, _, unwritableDivision_overflows⟩
  refine ⟨failed, (unchanged _ failed).1, ?_, ?_⟩
  · rw [(overflow _ _ unwritableDivision_overflows).2]
    decide +kernel
  · rw [(retry _ failed .unbounded).1]
    decide +kernel

end Session
end LS8
