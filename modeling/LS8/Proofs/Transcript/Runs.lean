import LS8.Proofs.BoundedOutput
import LS8.Proofs.Halting
import LS8.Proofs.Operations
import LS8.Proofs.Transcript.Text

/-!
# Runs write transcripts

What a run writes is the text of its transcript: the values that its print
instructions have met, in the order of their execution, and behind them the
message of a division by zero if that is how the run has ended.  A machine that
halts stays at the instruction that has halted it, which therefore tells the two
ways to halt apart.
-/

namespace LS8

namespace OutputLine

theorem toList_text_number (value : UInt8) :
    (number value).text.toList = Transcript.valueLine value ++ ['\n'] := by
  rw [text, String.toList_append, Decimal.toList_ofByte]
  rfl

theorem toList_text_zeroDivision :
    zeroDivision.text.toList = Transcript.message ++ ['\n'] := by
  decide

end OutputLine

namespace Machine

/-- The transcript of one instruction. -/
def transcript (machine : Machine) : Transcript :=
  ⟨machine.printed?.toList, machine.dividesByZero⟩

/-- An instruction writes the text of its transcript. -/
theorem Leads.text_eq
    {machine : Machine}
    {effect : Effect}
    (leads : machine.Leads effect) :
    effect.text.toList = machine.transcript.text := by
  cases leads with
  | halts executed =>
      rw [transcript, printed?, dividesByZero, executed]
      rfl
  | divides executed division zero =>
      rw [transcript, printed?, executed,
        dividesByZero_of_division executed division zero]
      exact OutputLine.toList_text_zeroDivision
  | prints executed _ =>
      rw [transcript, printed?, dividesByZero, executed]
      simp [Transcript.text, Transcript.lines, OutputLine.toList_text_number]
  | goesOn unprinted proceeds _ =>
      rw [transcript, unprinted, proceeds]
      rfl

/-- A machine that divides by zero halts. -/
theorem Leads.dividesByZero_eq_false
    {machine : Machine}
    {effect : Effect}
    (leads : machine.Leads effect)
    (running : effect.machine.status = .running) :
    machine.dividesByZero = false := by
  cases leads with
  | halts => contradiction
  | divides => contradiction
  | prints executed _ => rw [dividesByZero, executed]
  | goesOn _ proceeds _ => exact proceeds

/-- The byte of the instruction at the program counter. -/
theorem fetch_of_nextInstruction
    {machine : Machine}
    {instruction : Instruction}
    (executed : machine.nextInstruction? = some instruction) :
    machine.fetch 0 = instruction.opcode.byte ∧
      Instruction.ofOpcode instruction.opcode (machine.fetch 1)
        (machine.fetch 2) = instruction := by
  have decoded := (nextInstruction?_eq_some_iff.mp executed).2
  obtain ⟨byte_eq, instruction_eq⟩ :=
    Instruction.decode?_eq_some_iff.mp decoded
  exact ⟨byte_eq.symm, instruction_eq⟩

/-- The machine stands at a halt instruction. -/
def AtHalt (machine : Machine) : Prop :=
  machine.fetch 0 = Opcode.hlt.byte

/-- The machine stands at a division whose second register is zero. -/
def AtZeroDivision (machine : Machine) : Prop :=
  (machine.fetch 0 = (Opcode.alu .div).byte ∨
      machine.fetch 0 = (Opcode.alu .mod).byte) ∧
    machine.get (.ofOperand (machine.fetch 2)) = 0

/-- A machine that halts stays at the instruction that halts it. -/
theorem Leads.halted_cases
    {machine : Machine}
    {effect : Effect}
    (leads : machine.Leads effect)
    (halted : effect.machine.status = .halted) :
    (effect.machine.AtHalt ∧ machine.dividesByZero = false) ∨
      (effect.machine.AtZeroDivision ∧ machine.dividesByZero = true) := by
  cases leads with
  | halts executed =>
      left
      refine ⟨(fetch_of_nextInstruction executed).1, ?_⟩
      rw [dividesByZero, executed]
  | @divides op first second executed division zero =>
      right
      obtain ⟨byte_eq, instruction_eq⟩ := fetch_of_nextInstruction executed
      have second_eq : Register.ofOperand (machine.fetch 2) = second := by
        injection instruction_eq
      refine ⟨⟨?_, ?_⟩, dividesByZero_of_division executed division zero⟩
      · rcases division with rfl | rfl
        · exact .inl byte_eq
        · exact .inr byte_eq
      · change machine.get (.ofOperand (machine.fetch 2)) = 0
        rw [second_eq]
        exact zero
  | prints _ running =>
      rw [halted] at running
      contradiction
  | goesOn _ _ running =>
      rw [halted] at running
      contradiction

end Machine

namespace Session

/-- What a run writes, told by the instructions that it executes: the values
that the print instructions among them meet, and whether the run halts with a
division by zero. -/
def transcript (session : Session) : Transcript where
  values := session.seen Machine.printed? (session.stepsIn .run)
  zeroDivision :=
    match session.run.2 with
    | .halted (last + 1) => (session.after last).machine.dividesByZero
    | _ => false

variable {session : Session} {count : Nat}

section Unlimited

variable (unlimited : session.sink.room = none)

include unlimited

/-- A successful step writes the transcript of its instruction. -/
theorem output_step_of_ok
    {status : Status}
    (stepped : session.step.2 = .ok status) :
    session.step.1.output = session.output ++ session.machine.transcript.text := by
  have step_eq : session.step = (session.step.1, .ok status) :=
    Prod.ext rfl stepped
  obtain ⟨effect, executed, _, next_eq, _⟩ := step_ok_cases step_eq
  rw [output, next_eq, Sink.write_of_room_none unlimited, String.toList_append,
    (Machine.leads_of_next executed).text_eq]
  rfl

/-- As long as the machine runs it writes values only. -/
theorem Succeeds.output_eq
    (succeeds : session.Succeeds count)
    (running : (session.after count).machine.status = .running) :
    (session.after count).output =
      session.output ++
        (⟨session.seen Machine.printed? count, false⟩ : Transcript).text := by
  induction count with
  | zero => simp
  | succ count inductionHypothesis =>
      have earlier := inductionHypothesis (succeeds.mono (Nat.le_succ count))
        (succeeds.running (Nat.lt_succ_self count))
      obtain ⟨status, stepped⟩ := succeeds count (Nat.lt_succ_self count)
      obtain ⟨effect, executed, machine_eq⟩ :=
        succeeds.effect (Nat.lt_succ_self count)
      have proceeds : (session.after count).machine.dividesByZero = false := by
        rw [machine_eq] at running
        exact (Machine.leads_of_next executed).dividesByZero_eq_false running
      rw [after_succ,
        output_step_of_ok (room_after_of_unlimited unlimited count) stepped,
        earlier, seen_succ, Transcript.text_append, List.append_assoc,
        Machine.transcript, proceeds]

/-- A machine that halts has written values, and maybe the message last. -/
theorem HaltsAfter.output_eq
    (halts : session.HaltsAfter (count + 1)) :
    (session.after (count + 1)).output =
      session.output ++
        (⟨session.seen Machine.printed? (count + 1),
          (session.after count).machine.dividesByZero⟩ : Transcript).text := by
  have earlier := (halts.succeeds.mono (Nat.le_succ count)).output_eq unlimited
    (halts.running count (Nat.lt_succ_self count))
  obtain ⟨status, stepped⟩ := halts.succeeds count (Nat.lt_succ_self count)
  rw [after_succ,
    output_step_of_ok (room_after_of_unlimited unlimited count) stepped, earlier,
    seen_succ, Transcript.text_append, List.append_assoc, Machine.transcript]

end Unlimited

/-- The transcript of a run that halts with its last instruction. -/
theorem HaltsAfter.transcript_eq
    (halts : session.HaltsAfter (count + 1))
    (count_lt : count + 1 ≤ session.allowance) :
    session.transcript =
      ⟨session.seen Machine.printed? (count + 1),
        (session.after count).machine.dividesByZero⟩ := by
  have run_eq := halts.runFor_eq count_lt
  rw [transcript, run, stepsIn, run_eq]
  rfl

/-- The transcript of a run that fails has no message. -/
theorem FailsAfter.transcript_eq
    {error : ExecutionError}
    (fails : session.FailsAfter count error)
    (count_lt : count < session.allowance) :
    session.transcript = ⟨session.seen Machine.printed? count, false⟩ := by
  have run_eq := fails.runFor_eq count_lt
  rw [transcript, run, stepsIn, run_eq]
  rfl

/-- The transcript of a run that uses up its allowance has no message. -/
theorem Outlasts.transcript_eq
    (outlasts : session.Outlasts session.allowance) :
    session.transcript =
      ⟨session.seen Machine.printed? session.allowance, false⟩ := by
  have run_eq := outlasts.runFor_eq
  rw [transcript, run, stepsIn, run_eq]
  cases session.configuration.limit <;> rfl

/-- A run writes the text of its transcript. -/
theorem output_run
    (running : session.machine.status = .running)
    (unlimited : session.sink.room = none) :
    session.run.1.output = session.output ++ session.transcript.text := by
  rcases session.runFor_cases session.allowance with
    ⟨count, count_le, halts, run_eq⟩ | ⟨count, count_lt, error, fails, run_eq⟩ |
      ⟨outlasts, run_eq⟩
  · obtain ⟨last, rfl⟩ := halts.exists_eq_succ running
    rw [run, run_eq, halts.transcript_eq count_le]
    exact halts.output_eq unlimited
  · have stepped : (session.after count).step =
        (session.after (count + 1), .error error) :=
      Prod.ext rfl fails.failed
    rw [run, run_eq, fails.transcript_eq count_lt]
    calc
      (session.after (count + 1)).output = (session.after count).output :=
        output_of_step_error (room_after_of_unlimited unlimited count) stepped
      _ = _ :=
        fails.succeeds.output_eq unlimited (fails.running count (Nat.le_refl count))
  · rw [run, run_eq, outlasts.transcript_eq]
    exact outlasts.succeeds.output_eq unlimited outlasts.running

/-- A run with the outcome that its machine has halted ends in one of the two
ways to halt, and its transcript says in which. -/
theorem run_halted_cases
    {cycles : Nat}
    (running : session.machine.status = .running)
    (halted : session.run.2 = .halted cycles) :
    (session.run.1.machine.AtHalt ∧ session.transcript.zeroDivision = false) ∨
      (session.run.1.machine.AtZeroDivision ∧
        session.transcript.zeroDivision = true) := by
  obtain ⟨count_le, halts, last_eq⟩ := haltsAfter_of_run_halted halted
  obtain ⟨last, rfl⟩ := halts.exists_eq_succ running
  obtain ⟨effect, executed, machine_eq⟩ :=
    halts.succeeds.effect (Nat.lt_succ_self last)
  have stopped : effect.machine.status = .halted := by
    rw [← machine_eq]
    exact halts.halted
  rw [halts.transcript_eq count_le, last_eq, machine_eq]
  exact (Machine.leads_of_next executed).halted_cases stopped

/-- The message stands in a transcript exactly when the run halts and its last
instruction divides by zero. -/
theorem transcript_zeroDivision_iff :
    session.transcript.zeroDivision = true ↔
      ∃ last,
        session.run.2 = .halted (last + 1) ∧
          (session.after last).machine.dividesByZero = true := by
  rw [transcript]
  dsimp only
  split
  case h_1 last halted =>
    constructor
    · intro divides
      exact ⟨last, halted, divides⟩
    · rintro ⟨other, halted_other, divides⟩
      rw [halted] at halted_other
      injection halted_other with same
      injection same with same
      rwa [same]
  case h_2 other =>
    constructor
    · intro divides
      contradiction
    · rintro ⟨last, halted, _⟩
      exact absurd halted (other last)

/-- A run writes its transcript: a line for every printed value, and then a message if its
last instruction divides by zero. -/
theorem run_writes_transcript
    (running : session.machine.status = .running)
    (accepting : session.sink.room = none) :
    session.run.1.output = session.output ++ session.transcript.text ∧
      (∀ value ∈ session.transcript.values,
        Decimal.Canonical (Transcript.valueLine value) value.toNat) ∧
      (session.transcript.zeroDivision = true ↔
        ∃ last,
          session.run.2 = .halted (last + 1) ∧
            (session.after last).machine.dividesByZero = true) ∧
      (∀ front back,
        session.transcript.text.splitOn '\n' =
            front ++ Transcript.message :: back →
          back = [[]]) ∧
      (∀ cycles,
        session.run.2 = .halted cycles →
          (session.run.1.machine.AtHalt ∧
              session.transcript.zeroDivision = false) ∨
            (session.run.1.machine.AtZeroDivision ∧
              session.transcript.zeroDivision = true)) ∧
      ∀ (other : Session) (text : List Char),
        other.machine.status = .running →
          other.sink.room = none →
          session.run.1.output = session.output ++ text →
          other.run.1.output = other.output ++ text →
          session.transcript = other.transcript := by
  refine ⟨output_run running accepting, ?_, transcript_zeroDivision_iff, ?_, ?_, ?_⟩
  · intro value _
    exact Decimal.canonical_digits value.toNat
  · intro front back split
    exact Transcript.eq_nil_of_message_mem split
  · intro cycles halted
    exact run_halted_cases running halted
  · intro other text otherRunning otherAccepting text_eq otherText_eq
    rw [output_run running accepting] at text_eq
    rw [output_run otherRunning otherAccepting] at otherText_eq
    apply Transcript.text_injective
    rw [List.append_cancel_left text_eq, List.append_cancel_left otherText_eq]

/-- A program that prints two values and divides the first one by a register that
is zero, with a limit of exactly its five steps. -/
def dividingBehindPrints : Session where
  configuration := { Configuration.standard with limit := some 5 }
  machine :=
    { Machine.initial with
      memory := Memory.zeroed.overlay
        [0x82, 0x00, 0x05, 0x47, 0x00, 0x82, 0x01, 0xC8, 0x47, 0x09, 0xA3, 0x00,
          0x02] }
  sink := .unbounded
  trace := #[]

theorem run_writes_transcript_dividingBehindPrints :
    dividingBehindPrints.machine.status = .running ∧
      dividingBehindPrints.sink.room = none ∧
      dividingBehindPrints.run.2 = .halted 5 ∧
      dividingBehindPrints.run.1.output =
        "5\n200\nDivide by Zero Error!\n".toList ∧
      dividingBehindPrints.run.1.machine.AtZeroDivision := by
  have halted : dividingBehindPrints.run.2 = .halted 5 := by decide +kernel
  have transcript_eq : dividingBehindPrints.transcript = ⟨[5, 200], true⟩ := by
    decide +kernel
  obtain ⟨output_eq, _, _, _, ending, _⟩ :=
    @run_writes_transcript dividingBehindPrints rfl rfl
  refine ⟨rfl, rfl, halted, ?_, ?_⟩
  · rw [output_eq, transcript_eq]
    decide +kernel
  · rcases ending 5 halted with ⟨_, silent⟩ | ⟨atDivision, _⟩
    · rw [transcript_eq] at silent
      exact absurd silent Bool.noConfusion
    · exact atDivision

end Session
end LS8
