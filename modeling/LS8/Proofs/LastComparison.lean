import LS8.Proofs.Arithmetic
import LS8.Proofs.Operations

/-!
# The last comparison

The flags hold the outcome of the last comparison that the machine has executed
since its last reset, whatever the host and the program have done since, and
nothing if there was none.  Here the operands of comparisons are collected
beside the machine, in front of every step, without a look at the flags; the
flags then turn out to be a function of the operands collected last.
-/

namespace LS8

/-- The flags that the last of some comparisons leaves, given by its operands. -/
def Flags.remembering : Option (UInt8 × UInt8) → Flags
  | none => .clear
  | some (left, right) => .compare left right

/-- The last comparison counts as one of equals exactly when its operands are
equal. -/
theorem Flags.isEqual_remembering (operands : Option (UInt8 × UInt8)) :
    (remembering operands).isEqual =
      operands.any fun operands => operands.1 == operands.2 := by
  rcases operands with _ | ⟨left, right⟩
  · rfl
  · rw [Bool.eq_iff_iff, ← bits_odd_iff]
    simp only [remembering, Flags.toNat_bits_compare, Option.any_some,
      beq_iff_eq, UInt8.toNat_inj]
    split
    · simp [*]
    · split <;> simp [*]

/-- A conditional jump takes two bytes. -/
theorem Instruction.length_jeq (target : Register) : (jeq target).length = 2 := by
  change operandCount Opcode.jeq.byte + 1 = 2
  decide

theorem Instruction.length_jne (target : Register) : (jne target).length = 2 := by
  change operandCount Opcode.jne.byte + 1 = 2
  decide

namespace Machine

/-- The operands of the comparison that a machine executes next. -/
def comparison? (machine : Machine) : Option (UInt8 × UInt8) :=
  match machine.nextInstruction? with
  | some (.alu .cmp first second) => some (machine.get first, machine.get second)
  | _ => none

theorem comparison?_eq_some_iff
    {machine : Machine}
    {operands : UInt8 × UInt8} :
    machine.comparison? = some operands ↔
      ∃ first second,
        machine.nextInstruction? = some (.alu .cmp first second) ∧
          operands = (machine.get first, machine.get second) := by
  unfold comparison?
  split
  case h_1 first second executed =>
    rw [executed]
    simp [eq_comm]
  case h_2 other =>
    constructor
    · intro absent
      contradiction
    · rintro ⟨first, second, executed, _⟩
      exact absurd executed (other first second)

/-- Only a comparison changes the flags. -/
theorem flags_execute
    {machine : Machine}
    {instruction : Instruction}
    (different : ∀ first second, instruction ≠ .alu .cmp first second) :
    (machine.execute instruction).machine.flags = machine.flags := by
  cases instruction with
  | jeq target =>
      simp only [execute, jumpIf]
      split <;> rfl
  | jne target =>
      simp only [execute, jumpIf]
      split <;> rfl
  | alu op first second =>
      simp only [execute, calculate, AluOp.apply]
      cases computed : op.compute (machine.registers.get first)
          (machine.registers.get second) with
      | value byte => rfl
      | zeroDivisor => rfl
      | comparison outcome =>
          cases op with
          | cmp => exact absurd rfl (different first second)
          | div =>
              rw [AluOp.compute] at computed
              split at computed <;> contradiction
          | mod =>
              rw [AluOp.compute] at computed
              split at computed <;> contradiction
          | _ => contradiction
  | _ => rfl

/-- The flags do not change where no comparison is executed. -/
theorem flags_next
    {machine : Machine}
    {policy : UnknownOpcodePolicy}
    {effect : Effect}
    (executed : machine.next policy = .ok effect)
    (noComparison : machine.comparison? = none) :
    effect.machine.flags = machine.flags := by
  obtain ⟨running, ⟨instruction, decoded, rfl⟩ | ⟨_, _, rfl⟩⟩ :=
    next_eq_ok_iff.mp executed
  · apply flags_execute
    rintro first second rfl
    have compares : machine.comparison? =
        some (machine.get first, machine.get second) :=
      comparison?_eq_some_iff.mpr
        ⟨first, second, nextInstruction?_eq_some_iff.mpr ⟨running, decoded⟩, rfl⟩
    rw [compares] at noComparison
    contradiction
  · rfl

end Machine

namespace Session

/-- The operands of the comparisons that a number of steps execute, in order. -/
def comparisons (session : Session) (count : Nat) : List (UInt8 × UInt8) :=
  session.seen Machine.comparison? count

/-- The operands of the comparisons executed since the last reset, in order:
those that came before some operations, and those that the operations execute. -/
def comparedSince (session : Session) (earlier : List (UInt8 × UInt8)) :
    List Operation → List (UInt8 × UInt8)
  | [] => earlier
  | .reset :: rest => session.reset.comparedSince [] rest
  | operation :: rest =>
      (session.perform operation).1.comparedSince
        (earlier ++ session.comparisons (session.stepsIn operation)) rest

/-- The machine's flags are those that the last of some comparisons leaves. -/
def Remembers (session : Session) (compared : List (UInt8 × UInt8)) : Prop :=
  session.machine.flags = .remembering compared.getLast?

variable {session : Session} {compared : List (UInt8 × UInt8)}

/-- Sessions with the same machine remember the same. -/
theorem Remembers.congr
    {other : Session}
    (remembers : session.Remembers compared)
    (flags_eq : other.machine.flags = session.machine.flags) :
    other.Remembers compared :=
  flags_eq.trans remembers

/-- A step remembers the comparison that it executes, or else what was
remembered before. -/
theorem Remembers.step (remembers : session.Remembers compared) :
    session.step.1.Remembers
      (compared ++ session.machine.comparison?.toList) := by
  cases compares : session.machine.comparison? with
  | some operands =>
      obtain ⟨first, second, executed, rfl⟩ :=
        Machine.comparison?_eq_some_iff.mp compares
      obtain ⟨running, decoded⟩ :=
        Machine.nextInstruction?_eq_some_iff.mp executed
      have stepped :=
        step_of_silent (Machine.next_of_instruction running decoded
          session.configuration.policy)
      rw [stepped, Remembers, Option.toList_some, List.getLast?_concat]
      rfl
  | none =>
      rw [Option.toList_none, List.append_nil]
      apply remembers.congr
      rcases stepped : session.step with ⟨next, error | status⟩
      · exact congrArg Machine.flags (machine_of_step_error stepped)
      · obtain ⟨effect, executed, _, rfl, _⟩ := step_ok_cases stepped
        exact Machine.flags_next executed compares

/-- A number of steps remember the last comparison among them, or else what was
remembered before. -/
theorem Remembers.after
    (remembers : session.Remembers compared)
    (count : Nat) :
    (session.after count).Remembers (compared ++ session.comparisons count) := by
  induction count with
  | zero => simpa [comparisons] using remembers
  | succ count inductionHypothesis =>
      rw [comparisons, seen_succ, ← List.append_assoc]
      exact inductionHypothesis.step

/-- Loading does not touch the flags. -/
theorem flags_answerLoad
    (session : Session)
    (image : Except LoadError (List UInt8)) :
    (session.answerLoad (image >>= session.load)).1.machine.flags =
      session.machine.flags := by
  obtain ⟨memory, loaded_eq⟩ := session.exists_memory_answerLoad image
  rw [loaded_eq]
  rfl

/-- An operation that is no reset remembers the last comparison that it
executes, or else what was remembered before. -/
theorem Remembers.perform
    (remembers : session.Remembers compared)
    {operation : Operation}
    (noReset : operation ≠ .reset) :
    (session.perform operation).1.Remembers
      (compared ++ session.comparisons (session.stepsIn operation)) := by
  have idle : session.stepsIn operation = 0 →
      (session.perform operation).1.machine.flags = session.machine.flags →
      (session.perform operation).1.Remembers
        (compared ++ session.comparisons (session.stepsIn operation)) := by
    intro steps_eq flags_eq
    rw [steps_eq, comparisons, seen_zero, List.append_nil]
    exact remembers.congr flags_eq
  cases operation with
  | step =>
      exact (remembers.after _).congr
        (congrArg Machine.flags session.machine_perform_step)
  | run =>
      exact (remembers.after _).congr
        (congrArg Machine.flags session.machine_perform_run)
  | reset => exact absurd rfl noReset
  | load image => exact idle rfl (flags_answerLoad session (.ok image))
  | loadText text => exact idle rfl (flags_answerLoad session _)
  | _ => exact idle rfl rfl

/-- Whatever the host does, the flags are those of the last comparison since the
last reset. -/
theorem Remembers.performAll
    (remembers : session.Remembers compared)
    (operations : List Operation) :
    (session.performAll operations).Remembers
      (session.comparedSince compared operations) := by
  induction operations generalizing session compared with
  | nil => exact remembers
  | cons operation rest inductionHypothesis =>
      rw [performAll_cons]
      rcases Decidable.em (operation = .reset) with rfl | noReset
      · exact inductionHypothesis rfl
      · rw [comparedSince]
        · exact inductionHypothesis (remembers.perform noReset)
        · exact noReset

/-- A conditional jump executes without output, and goes to the address in its
register or to the instruction behind its two bytes. -/
theorem step_of_jump
    {condition : Bool}
    {instruction : Instruction}
    {target : Register}
    (executed : session.machine.nextInstruction? = some instruction)
    (length_eq : instruction.length = 2)
    (jumps : session.machine.execute instruction =
      ⟨session.machine.jumpIf condition instruction target, none⟩) :
    session.step.2 = .ok .running ∧
      session.step.1.machine.pc =
        if condition then session.machine.get target
        else session.machine.pc + 2 := by
  obtain ⟨running, decoded⟩ := Machine.nextInstruction?_eq_some_iff.mp executed
  have next_eq := Machine.next_of_instruction running decoded
    session.configuration.policy
  rw [jumps] at next_eq
  rw [step_of_silent next_eq]
  cases condition with
  | true => exact ⟨congrArg Except.ok running, rfl⟩
  | false =>
      exact ⟨congrArg Except.ok running, congrArg (session.machine.pc + ·) length_eq⟩

/-- The flag register holds the outcome of the last comparison since the last reset, and
conditional jumps follow it. -/
theorem flags_remember_last_comparison
    (configuration : Configuration)
    (sink : Sink)
    (operations : List Operation)
    (steps : Nat) :
    let host := (start configuration sink).performAll operations
    let session := host.after steps
    let compared :=
      (start configuration sink).comparedSince [] operations ++
        host.comparisons steps
    let equal :=
      compared.getLast?.any fun operands => operands.1 == operands.2
    (compared = [] → session.machine.flags.bits.toNat = 0) ∧
      (∀ earlier left right,
        compared = earlier ++ [(left, right)] →
          session.machine.flags.bits.toNat =
            if left.toNat = right.toNat then 1
            else if right.toNat < left.toNat then 2
            else 4) ∧
      (∀ target,
        session.machine.nextInstruction? = some (.jeq target) →
          session.step.2 = .ok .running ∧
            session.step.1.machine.pc =
              if equal then session.machine.get target
              else session.machine.pc + 2) ∧
      ∀ target,
        session.machine.nextInstruction? = some (.jne target) →
          session.step.2 = .ok .running ∧
            session.step.1.machine.pc =
              if equal then session.machine.pc + 2
              else session.machine.get target := by
  intro host session compared equal
  have started : (start configuration sink).Remembers [] := rfl
  have remembers : session.Remembers compared :=
    (started.performAll operations).after steps
  have isEqual_eq : session.machine.flags.isEqual = equal := by
    rw [remembers, Flags.isEqual_remembering]
  refine ⟨?_, ?_, ?_, ?_⟩
  · intro none_compared
    rw [remembers, none_compared]
    rfl
  · intro earlier left right compared_eq
    rw [remembers, compared_eq, List.getLast?_concat]
    exact Flags.toNat_bits_compare left right
  · intro target executed
    rw [← isEqual_eq]
    exact step_of_jump executed (Instruction.length_jeq target) rfl
  · intro target executed
    obtain ⟨stepped, pc_eq⟩ :=
      step_of_jump executed (Instruction.length_jne target) rfl
    refine ⟨stepped, ?_⟩
    rw [pc_eq, isEqual_eq]
    cases equal <;> rfl

/-- A host loads a program that compares two registers and jumps if they are
equal, lets it compare, and changes one of the registers in front of the jump. -/
def changingAfterComparing : List Operation :=
  [.load [0xA7, 0x00, 0x01, 0x55, 0x02],
    .setRegister (Register.ofOperand 0x02) 0x20, .step,
    .setRegister (Register.ofOperand 0x00) 0x09]

theorem flags_remember_last_comparison_changingAfterComparing :
    let session :=
      (start .standard (.bounded 0)).performAll changingAfterComparing
    (start .standard (.bounded 0)).comparedSince [] changingAfterComparing =
        [] ++ [(0, 0)] ∧
      session.machine.nextInstruction? = some (.jeq 2) ∧
      session.machine.flags.bits.toNat = 1 ∧
      session.step.1.machine.pc = 0x20 := by
  intro session
  have compared :
      (start .standard (.bounded 0)).comparedSince [] changingAfterComparing =
        [] ++ [(0, 0)] := by
    decide +kernel
  have executed : session.machine.nextInstruction? = some (.jeq 2) := by
    decide +kernel
  obtain ⟨_, bits, jumps, _⟩ :=
    flags_remember_last_comparison .standard (.bounded 0) changingAfterComparing 0
  have pc_eq := (jumps 2 executed).2
  rw [after_zero] at pc_eq
  refine ⟨compared, executed, ?_, ?_⟩
  · apply bits [] 0 0
    rw [compared]
    rfl
  · rw [pc_eq]
    decide +kernel

end Session
end LS8
