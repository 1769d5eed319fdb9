import LS8.Session

/-!
# What a step does

Executing an instruction writes one text, which is empty for an instruction
without output.  With that, a step is described by three facts: it succeeds
exactly when its instruction can be executed and the sink accepts the text; a
step that succeeds moves on to the machine of its effect; and a step that fails
leaves the machine as it was.
-/

namespace LS8

/-- The text that an effect writes. -/
def Effect.text (effect : Effect) : String :=
  (effect.line.map OutputLine.text).getD ""

@[simp] theorem Effect.text_silent (machine : Machine) :
    Effect.text ⟨machine, none⟩ = "" := rfl

@[simp] theorem Effect.text_line (machine : Machine) (line : OutputLine) :
    Effect.text ⟨machine, some line⟩ = line.text := rfl

namespace Sink

/-- Every sink accepts the empty text. -/
@[simp] theorem accepts_empty (sink : Sink) : sink.accepts "" = true := by
  cases room_eq : sink.room with
  | none => exact accepts_of_room_none room_eq ""
  | some room => simp [accepts, room_eq]

/-- Writing the empty text changes nothing. -/
@[simp] theorem write_empty (sink : Sink) : sink.write "" = sink := by
  obtain ⟨written, room⟩ := sink
  cases room <;> simp [write]

/-- A sink without a limit keeps every text as a whole. -/
theorem write_of_room_none
    {sink : Sink}
    (noLimit : sink.room = none)
    (text : String) :
    sink.write text = { sink with written := sink.written ++ text } := by
  simp [write, noLimit]

end Sink

/-- The bytes that start an instruction. -/
def instructionBytes : List UInt8 :=
  [0x01, 0x11, 0x45, 0x46, 0x47, 0x50, 0x54, 0x55, 0x56, 0x69, 0x82,
    0xA0, 0xA1, 0xA2, 0xA3, 0xA4, 0xA7, 0xA8, 0xAA, 0xAB, 0xAC, 0xAD]

theorem map_byte_all : Opcode.all.map Opcode.byte = instructionBytes := rfl

namespace Machine

/-- There is an instruction at the program counter exactly when one of the bytes that
start an instruction is there. -/
theorem instruction?_eq_none_iff {machine : Machine} :
    machine.instruction? = none ↔ machine.fetch 0 ∉ instructionBytes := by
  rw [instruction?, Instruction.decode?_eq_none_iff, Option.eq_none_iff_forall_ne_some,
    ← map_byte_all, List.mem_map]
  simp only [ne_eq, Opcode.ofByte?_eq_some_iff, Opcode.mem_all, true_and,
    not_exists]

theorem exists_instruction_of_mem
    {machine : Machine}
    (known : machine.fetch 0 ∈ instructionBytes) :
    ∃ instruction, machine.instruction? = some instruction := by
  apply Option.ne_none_iff_exists'.mp
  intro unknown
  exact instruction?_eq_none_iff.mp unknown known

/-- A machine executes an instruction exactly when it is running and either has
an instruction at its program counter, or stalls there. -/
theorem next_eq_ok_iff
    {machine : Machine}
    {policy : UnknownOpcodePolicy}
    {effect : Effect} :
    machine.next policy = .ok effect ↔
      machine.status = .running ∧
        ((∃ instruction,
            machine.instruction? = some instruction ∧
              effect = machine.execute instruction) ∨
          (machine.instruction? = none ∧ policy = .stall ∧
            effect = ⟨machine, none⟩)) := by
  cases status_eq : machine.status with
  | halted => simp [next_of_halted status_eq]
  | running =>
      cases decoded : machine.instruction? with
      | some instruction =>
          rw [next_of_instruction status_eq decoded]
          simp [eq_comm]
      | none =>
          cases policy with
          | stall =>
              rw [next_stall_of_unknown status_eq decoded]
              simp [eq_comm]
          | fault =>
              rw [next_fault_of_unknown status_eq decoded]
              simp

/-- A machine refuses to execute exactly when it has halted, or when the byte
at its program counter is unknown and the policy says to stop there. -/
theorem next_eq_error_iff
    {machine : Machine}
    {policy : UnknownOpcodePolicy}
    {error : ExecutionError} :
    machine.next policy = .error error ↔
      (machine.status = .halted ∧ error = .machineHalted) ∨
        (machine.status = .running ∧ machine.instruction? = none ∧
          policy = .fault ∧
          error = .unknownOpcode (machine.fetch 0) machine.pc) := by
  cases status_eq : machine.status with
  | halted =>
      rw [next_of_halted status_eq]
      simp [eq_comm]
  | running =>
      cases decoded : machine.instruction? with
      | some instruction => simp [next_of_instruction status_eq decoded]
      | none =>
          cases policy with
          | stall => simp [next_stall_of_unknown status_eq decoded]
          | fault =>
              rw [next_fault_of_unknown status_eq decoded]
              simp [eq_comm]

/-- A division by a register that is zero halts the machine with a message. -/
theorem execute_of_zeroDivision
    {machine : Machine}
    {op : AluOp}
    {first second : Register}
    (division : op = .div ∨ op = .mod)
    (zero : machine.get second = 0) :
    machine.execute (.alu op first second) =
      ⟨{ machine with status := .halted }, some .zeroDivision⟩ := by
  have computed :
      op.compute (machine.registers.get first) (machine.registers.get second) =
        .zeroDivisor :=
    AluOp.compute_eq_zeroDivisor_iff.mpr ⟨division, zero⟩
  simp only [execute, calculate, AluOp.apply, computed]

/-- The instruction that a machine executes next.  A machine that has halted
executes none. -/
def nextInstruction? (machine : Machine) : Option Instruction :=
  match machine.status with
  | .running => machine.instruction?
  | .halted => none

theorem nextInstruction?_eq_some_iff
    {machine : Machine}
    {instruction : Instruction} :
    machine.nextInstruction? = some instruction ↔
      machine.status = .running ∧ machine.instruction? = some instruction := by
  unfold nextInstruction?
  cases machine.status <;> simp

end Machine

namespace Session

/-- The session with another sink. -/
def withSink (session : Session) (sink : Sink) : Session :=
  { session with sink }

section WithSink

variable (session : Session) (sink : Sink)

@[simp] theorem machine_withSink :
    (session.withSink sink).machine = session.machine := rfl

@[simp] theorem sink_withSink : (session.withSink sink).sink = sink := rfl

/-- The sink has no part in the trace. -/
theorem observe_withSink :
    (session.withSink sink).observe = session.observe.withSink sink := by
  unfold observe
  rw [apply_ite (fun observed : Session => observed.withSink sink)]
  rfl

end WithSink

/-- A step whose text the sink accepts moves on to the machine of its effect. -/
theorem step_of_accepts
    {session : Session}
    {effect : Effect}
    (executed :
      session.machine.next session.configuration.policy = .ok effect)
    (accepted : session.sink.accepts effect.text = true) :
    session.step =
      ({ session.observe with
          machine := effect.machine
          sink := session.sink.write effect.text },
        .ok effect.machine.status) := by
  obtain ⟨machine, line⟩ := effect
  cases line with
  | none =>
      rw [step_of_silent executed, Effect.text_silent, Sink.write_empty,
        ← sink_observe session]
  | some line => exact step_of_accepted executed accepted

/-- A sink without a limit takes every text, so a step that the machine makes
succeeds. -/
theorem step_of_unlimited
    {session : Session}
    {effect : Effect}
    (unlimited : session.sink.room = none)
    (executed :
      session.machine.next session.configuration.policy = .ok effect) :
    session.step =
      ({ session.observe with
          machine := effect.machine
          sink := session.sink.write effect.text },
        .ok effect.machine.status) :=
  step_of_accepts executed (Sink.accepts_of_room_none unlimited _)

/-- A step whose text the sink refuses leaves the machine as it was. -/
theorem step_of_refuses
    {session : Session}
    {effect : Effect}
    (executed :
      session.machine.next session.configuration.policy = .ok effect)
    (refused : session.sink.accepts effect.text = false) :
    session.step =
      ({ session.observe with sink := session.sink.write effect.text },
        .error .output) := by
  obtain ⟨machine, line⟩ := effect
  cases line with
  | none => simp at refused
  | some line => exact step_of_overflow executed refused

/-- What a successful step has done. -/
theorem step_ok_cases
    {session next : Session}
    {status : Status}
    (stepped : session.step = (next, .ok status)) :
    ∃ effect,
      session.machine.next session.configuration.policy = .ok effect ∧
        session.sink.accepts effect.text = true ∧
        next =
          { session.observe with
            machine := effect.machine
            sink := session.sink.write effect.text } ∧
        status = effect.machine.status := by
  cases executed : session.machine.next session.configuration.policy with
  | error error => simp [step_of_error executed] at stepped
  | ok effect =>
      cases accepted : session.sink.accepts effect.text with
      | false => simp [step_of_refuses executed accepted] at stepped
      | true =>
          rw [step_of_accepts executed accepted] at stepped
          injection stepped with next_eq status_eq
          injection status_eq with status_eq
          exact ⟨effect, rfl, accepted, next_eq.symm, status_eq.symm⟩

/-- What a failing step has done: the machine refused to execute, or the sink
refused a part of the text. -/
theorem step_error_cases
    {session next : Session}
    {error : ExecutionError}
    (stepped : session.step = (next, .error error)) :
    (session.machine.next session.configuration.policy = .error error ∧
        next = session.observe) ∨
      ∃ effect,
        session.machine.next session.configuration.policy = .ok effect ∧
          session.sink.accepts effect.text = false ∧
          next =
            { session.observe with
              sink := session.sink.write effect.text } ∧
          error = .output := by
  cases executed : session.machine.next session.configuration.policy with
  | error refusal =>
      rw [step_of_error executed] at stepped
      injection stepped with next_eq error_eq
      injection error_eq with error_eq
      exact .inl ⟨by rw [error_eq], next_eq.symm⟩
  | ok effect =>
      cases accepted : session.sink.accepts effect.text with
      | true => simp [step_of_accepts executed accepted] at stepped
      | false =>
          rw [step_of_refuses executed accepted] at stepped
          injection stepped with next_eq error_eq
          injection error_eq with error_eq
          exact .inr ⟨effect, rfl, accepted, next_eq.symm, error_eq.symm⟩

/-- Only a running machine makes a successful step. -/
theorem running_of_step_ok
    {session next : Session}
    {status : Status}
    (stepped : session.step = (next, .ok status)) :
    session.machine.status = .running := by
  obtain ⟨effect, executed, _⟩ := step_ok_cases stepped
  exact (Machine.next_eq_ok_iff.mp executed).1

/-- A failing step leaves the machine as it was. -/
theorem machine_of_step_error
    {session next : Session}
    {error : ExecutionError}
    (stepped : session.step = (next, .error error)) :
    next.machine = session.machine := by
  rcases step_error_cases stepped with ⟨_, rfl⟩ | ⟨effect, _, _, rfl, _⟩
  · exact machine_observe session
  · exact machine_observe session

/-- No step changes the configuration. -/
@[simp] theorem configuration_step (session : Session) :
    session.step.1.configuration = session.configuration := by
  rcases stepped : session.step with ⟨next, error | status⟩
  · rcases step_error_cases stepped with ⟨_, rfl⟩ | ⟨effect, _, _, rfl, _⟩
    · exact configuration_observe session
    · exact configuration_observe session
  · obtain ⟨effect, _, _, rfl, _⟩ := step_ok_cases stepped
    exact configuration_observe session

/-- Two sessions have the same machine, the same policy and the same sink.  Their
limits and traces may differ. -/
structure Alike (left right : Session) : Prop where
  machine_eq : left.machine = right.machine
  policy_eq : left.configuration.policy = right.configuration.policy
  sink_eq : left.sink = right.sink

section Alike

variable {left right : Session}

theorem Alike.symm (alike : left.Alike right) : right.Alike left :=
  ⟨alike.machine_eq.symm, alike.policy_eq.symm, alike.sink_eq.symm⟩

/-- Neither limits nor traces have a part in what a step does. -/
theorem Alike.step_cases (alike : left.Alike right) :
    left.step.1.machine = right.step.1.machine ∧
      left.step.1.sink = right.step.1.sink ∧
      left.step.2 = right.step.2 := by
  have next_eq : left.machine.next left.configuration.policy =
      right.machine.next right.configuration.policy := by
    rw [alike.machine_eq, alike.policy_eq]
  cases executed : right.machine.next right.configuration.policy with
  | error error =>
      rw [step_of_error executed, step_of_error (next_eq.trans executed)]
      simp [alike.machine_eq, alike.sink_eq]
  | ok effect =>
      have executedLeft := next_eq.trans executed
      cases accepted : right.sink.accepts effect.text with
      | true =>
          rw [step_of_accepts executed accepted,
            step_of_accepts executedLeft (by rw [alike.sink_eq, accepted])]
          simp [alike.sink_eq]
      | false =>
          rw [step_of_refuses executed accepted,
            step_of_refuses executedLeft (by rw [alike.sink_eq, accepted])]
          simp [alike.machine_eq, alike.sink_eq]

theorem Alike.result_eq (alike : left.Alike right) :
    left.step.2 = right.step.2 :=
  alike.step_cases.2.2

theorem Alike.step (alike : left.Alike right) :
    left.step.1.Alike right.step.1 where
  machine_eq := alike.step_cases.1
  policy_eq := by
    rw [configuration_step, configuration_step]
    exact alike.policy_eq
  sink_eq := alike.step_cases.2.1

end Alike

end Session
end LS8
