import LS8.Proofs.RunLoop

/-!
# Unknown opcodes

The policy for unknown opcodes decides a step only where the machine meets a
byte that belongs to no opcode.  Up to that point sessions under both policies
stay equal but for the policy.  At that point the faulting session stops with
its machine untouched, and the stalling session steps on the spot for ever: the
same machine, and nothing written.
-/

namespace LS8

namespace Machine

/-- A running machine meets an unknown byte when the byte at its program counter
belongs to no opcode. -/
structure MeetsUnknown (machine : Machine) : Prop where
  running : machine.status = .running
  unknown : machine.instruction? = none

/-- Anywhere else both policies execute the same. -/
theorem next_of_not_meetsUnknown
    {machine : Machine}
    (known : ¬machine.MeetsUnknown)
    (policy other : UnknownOpcodePolicy) :
    machine.next policy = machine.next other := by
  cases status_eq : machine.status with
  | halted => rw [next_of_halted status_eq, next_of_halted status_eq]
  | running =>
      cases decoded : machine.instruction? with
      | none => exact absurd ⟨status_eq, decoded⟩ known
      | some instruction =>
          rw [next_of_instruction status_eq decoded,
            next_of_instruction status_eq decoded]

/-- Under the faulting policy nothing is executed at an unknown byte. -/
theorem not_meetsUnknown_of_next_fault
    {machine : Machine}
    {effect : Effect}
    (executed : machine.next .fault = .ok effect) :
    ¬machine.MeetsUnknown := by
  intro meets
  rw [next_fault_of_unknown meets.running meets.unknown] at executed
  contradiction

end Machine

namespace Session

/-- The session under another policy for unknown opcodes. -/
def withPolicy (session : Session) (policy : UnknownOpcodePolicy) : Session :=
  { session with
    configuration := { session.configuration with policy } }

section WithPolicy

variable (session : Session) (policy : UnknownOpcodePolicy)

@[simp] theorem machine_withPolicy :
    (session.withPolicy policy).machine = session.machine := rfl

@[simp] theorem sink_withPolicy :
    (session.withPolicy policy).sink = session.sink := rfl

@[simp] theorem policy_withPolicy :
    (session.withPolicy policy).configuration.policy = policy := rfl

@[simp] theorem limit_withPolicy :
    (session.withPolicy policy).configuration.limit =
      session.configuration.limit := rfl

@[simp] theorem withPolicy_withPolicy (other : UnknownOpcodePolicy) :
    (session.withPolicy policy).withPolicy other = session.withPolicy other :=
  rfl

/-- The policy has no part in the trace. -/
theorem observe_withPolicy :
    (session.withPolicy policy).observe = session.observe.withPolicy policy := by
  unfold observe
  rw [apply_ite (fun observed : Session => observed.withPolicy policy)]
  rfl

end WithPolicy

variable {session : Session}

/-- Where no unknown byte is met, a step does not depend on the policy. -/
theorem step_withPolicy
    (known : ¬session.machine.MeetsUnknown)
    (policy : UnknownOpcodePolicy) :
    (session.withPolicy policy).step =
      (session.step.1.withPolicy policy, session.step.2) := by
  have next_eq :
      (session.withPolicy policy).machine.next
          (session.withPolicy policy).configuration.policy =
        session.machine.next session.configuration.policy :=
    Machine.next_of_not_meetsUnknown known _ _
  cases executed : session.machine.next session.configuration.policy with
  | error error =>
      rw [executed] at next_eq
      rw [step_of_error executed, step_of_error next_eq, observe_withPolicy]
  | ok effect =>
      rw [executed] at next_eq
      cases accepted : session.sink.accepts effect.text with
      | true =>
          rw [step_of_accepts executed accepted,
            step_of_accepts next_eq accepted, observe_withPolicy]
          rfl
      | false =>
          rw [step_of_refuses executed accepted,
            step_of_refuses next_eq accepted, observe_withPolicy]
          rfl

section Faulting

variable {count : Nat}

/-- Under the faulting policy, a machine that makes a step has met no unknown
byte. -/
theorem Succeeds.not_meetsUnknown
    (succeeds : session.Succeeds count)
    (faulting : session.configuration.policy = .fault)
    {index : Nat}
    (index_lt : index < count) :
    ¬(session.after index).machine.MeetsUnknown := by
  obtain ⟨effect, executed, _⟩ := succeeds.effect index_lt
  rw [faulting] at executed
  exact Machine.not_meetsUnknown_of_next_fault executed

/-- As long as the faulting session makes its steps, sessions under other
policies stay equal to it but for the policy. -/
theorem Succeeds.after_withPolicy
    (succeeds : session.Succeeds count)
    (faulting : session.configuration.policy = .fault)
    (policy : UnknownOpcodePolicy) :
    (session.withPolicy policy).after count =
      (session.after count).withPolicy policy := by
  induction count with
  | zero => rfl
  | succ count inductionHypothesis =>
      have known :=
        succeeds.not_meetsUnknown faulting (Nat.lt_succ_self count)
      have earlier := inductionHypothesis (succeeds.mono (Nat.le_succ count))
      rw [after_succ, earlier, step_withPolicy known, after_succ]

theorem Succeeds.withPolicy
    (succeeds : session.Succeeds count)
    (faulting : session.configuration.policy = .fault)
    (policy : UnknownOpcodePolicy) :
    (session.withPolicy policy).Succeeds count := by
  intro index index_lt
  have known := succeeds.not_meetsUnknown faulting index_lt
  have earlier : session.Succeeds index := succeeds.mono (Nat.le_of_lt index_lt)
  obtain ⟨status, status_eq⟩ := succeeds index index_lt
  refine ⟨status, ?_⟩
  rw [earlier.after_withPolicy faulting, step_withPolicy known]
  exact status_eq

theorem HaltsAfter.withPolicy
    (halts : session.HaltsAfter count)
    (faulting : session.configuration.policy = .fault)
    (policy : UnknownOpcodePolicy) :
    (session.withPolicy policy).HaltsAfter count where
  succeeds := halts.succeeds.withPolicy faulting policy
  running := fun _ index_lt =>
    (halts.succeeds.withPolicy faulting policy).running index_lt
  halted := by
    rw [halts.succeeds.after_withPolicy faulting]
    exact halts.halted

theorem Outlasts.withPolicy
    (outlasts : session.Outlasts count)
    (faulting : session.configuration.policy = .fault)
    (policy : UnknownOpcodePolicy) :
    (session.withPolicy policy).Outlasts count where
  succeeds := outlasts.succeeds.withPolicy faulting policy
  running := by
    rw [outlasts.succeeds.after_withPolicy faulting]
    exact outlasts.running

/-- A sink that refuses a text refuses it under every policy, and keeps the same
part of it. -/
theorem FailsAfter.output_withPolicy
    (fails : session.FailsAfter count .output)
    (faulting : session.configuration.policy = .fault)
    (policy : UnknownOpcodePolicy) :
    (session.withPolicy policy).FailsAfter count .output ∧
      (session.withPolicy policy).after (count + 1) =
        (session.after (count + 1)).withPolicy policy := by
  have known : ¬(session.after count).machine.MeetsUnknown := by
    intro meets
    have refused :=
      Machine.next_fault_of_unknown meets.running meets.unknown
    rw [← faulting, ← configuration_after session count] at refused
    have failed := fails.failed
    rw [step_of_error refused] at failed
    exact ExecutionError.noConfusion (Except.error.inj failed)
  have step_eq :
      ((session.withPolicy policy).after count).step =
        ((session.after (count + 1)).withPolicy policy, .error .output) := by
    rw [fails.succeeds.after_withPolicy faulting, step_withPolicy known,
      fails.failed, after_succ]
  refine ⟨⟨fails.succeeds.withPolicy faulting policy, ?_, ?_⟩, ?_⟩
  · intro index index_le
    have earlier : session.Succeeds index := fails.succeeds.mono index_le
    rw [earlier.after_withPolicy faulting]
    exact fails.running index index_le
  · rw [step_eq]
  · rw [after_succ, step_eq]

end Faulting

/-! ## On the spot -/

section Stalling

/-- A stalling step at an unknown byte changes neither the machine nor the
sink. -/
theorem step_of_meetsUnknown
    (stalling : session.configuration.policy = .stall)
    (meets : session.machine.MeetsUnknown) :
    session.step = (session.observe, .ok .running) := by
  have executed :
      session.machine.next session.configuration.policy =
        .ok ⟨session.machine, none⟩ := by
    rw [stalling]
    exact Machine.next_stall_of_unknown meets.running meets.unknown
  rw [step_of_silent executed, meets.running, ← machine_observe session]

/-- A stalling session at an unknown byte keeps its machine and its sink. -/
theorem after_of_meetsUnknown
    (stalling : session.configuration.policy = .stall)
    (meets : session.machine.MeetsUnknown)
    (steps : Nat) :
    (session.after steps).machine = session.machine ∧
      (session.after steps).sink = session.sink := by
  induction steps with
  | zero => exact ⟨rfl, rfl⟩
  | succ steps inductionHypothesis =>
      obtain ⟨machine_eq, sink_eq⟩ := inductionHypothesis
      have stays : session.after (steps + 1) = (session.after steps).observe := by
        rw [after_succ, step_of_meetsUnknown]
        · rw [configuration_after]
          exact stalling
        · rw [machine_eq]
          exact meets
      rw [stays, machine_observe, sink_observe]
      exact ⟨machine_eq, sink_eq⟩

variable {met : Nat}

theorem after_add_of_meetsUnknown
    (stalling : session.configuration.policy = .stall)
    (meets : (session.after met).machine.MeetsUnknown)
    (steps : Nat) :
    (session.after (met + steps)).machine = (session.after met).machine ∧
      (session.after (met + steps)).sink = (session.after met).sink := by
  rw [after_add]
  apply after_of_meetsUnknown _ meets
  rw [configuration_after]
  exact stalling

/-- A stalling session that meets an unknown byte makes every number of
steps. -/
theorem outlasts_of_meetsUnknown
    (stalling : session.configuration.policy = .stall)
    (succeeds : session.Succeeds met)
    (meets : (session.after met).machine.MeetsUnknown)
    (allowance : Nat) :
    session.Outlasts allowance := by
  have stays : ∀ index, met ≤ index →
      (session.after index).machine.MeetsUnknown := by
    intro index met_le
    obtain ⟨steps, rfl⟩ := Nat.exists_eq_add_of_le met_le
    rw [(after_add_of_meetsUnknown stalling meets steps).1]
    exact meets
  constructor
  · intro index _
    rcases Nat.lt_or_ge index met with index_lt | met_le
    · exact succeeds index index_lt
    · refine ⟨.running, ?_⟩
      rw [step_of_meetsUnknown]
      · rw [configuration_after]
        exact stalling
      · exact stays index met_le
  · rcases Nat.lt_or_ge allowance met with allowance_lt | met_le
    · exact succeeds.running allowance_lt
    · exact (stays allowance met_le).running

/-- From an unknown byte on, a stalling session never changes its machine or its
sink again, and uses up every allowance. -/
theorem stalls_of_meetsUnknown
    (stalling : session.configuration.policy = .stall)
    (succeeds : session.Succeeds met)
    (meets : (session.after met).machine.MeetsUnknown) :
    (∀ steps,
        (session.after (met + steps)).machine = (session.after met).machine ∧
          (session.after (met + steps)).sink = (session.after met).sink) ∧
      ∀ allowance, (session.runFor allowance).ending = .exhausted := by
  refine ⟨after_add_of_meetsUnknown stalling meets, ?_⟩
  intro allowance
  rw [(outlasts_of_meetsUnknown stalling succeeds meets allowance).runFor_eq]

/-- Where a faulting session stops at an unknown byte, the stalling one steps on
the spot. -/
theorem FailsAfter.stalls_withPolicy
    {count allowance : Nat}
    {error : ExecutionError}
    (fails : session.FailsAfter count error)
    (faulting : session.configuration.policy = .fault)
    (unknown : (session.after count).machine.instruction? = none)
    (count_le : count ≤ allowance) :
    (session.withPolicy .stall).Outlasts allowance ∧
      ((session.withPolicy .stall).after allowance).machine =
        (session.after count).machine ∧
      ((session.withPolicy .stall).after allowance).sink =
        (session.after count).sink := by
  have succeeds := fails.succeeds.withPolicy faulting .stall
  have same := fails.succeeds.after_withPolicy faulting .stall
  have meets :
      ((session.withPolicy .stall).after count).machine.MeetsUnknown := by
    rw [same]
    exact ⟨fails.running count (Nat.le_refl count), unknown⟩
  obtain ⟨steps, rfl⟩ := Nat.exists_eq_add_of_le count_le
  obtain ⟨machine_eq, sink_eq⟩ := after_add_of_meetsUnknown rfl meets steps
  rw [same, machine_withPolicy] at machine_eq
  rw [same, sink_withPolicy] at sink_eq
  exact ⟨outlasts_of_meetsUnknown rfl succeeds meets (count + steps),
    machine_eq, sink_eq⟩

end Stalling

section Limited

variable {limit : Nat}

/-- A faulting session either runs as the stalling one does, or it stops at an
unknown byte, where the stalling one uses up its limit. -/
theorem run_withPolicy_cases
    (faulting : session.configuration.policy = .fault)
    (limited : session.configuration.limit = some limit) :
    (∃ last outcome,
        (∀ opcode pc, outcome ≠ .failed (.unknownOpcode opcode pc)) ∧
          session.run = (last, outcome) ∧
          (session.withPolicy .stall).run =
            (last.withPolicy .stall, outcome)) ∨
      ∃ last stalled,
        session.run =
            (last,
              .failed
                (.unknownOpcode (last.machine.fetch 0) last.machine.pc)) ∧
          (session.withPolicy .stall).run =
            (stalled, .failed (.stepLimit limit)) ∧
          stalled.machine = last.machine ∧
          stalled.sink = last.sink := by
  have stallingLimited := (limit_withPolicy session .stall).trans limited
  rcases session.haltsWithin_or_failsWithin_or_outlasts limit with
    ⟨count, count_le, halts⟩ | ⟨count, count_lt, error, fails⟩ | outlasts
  · left
    have stallingHalts := halts.withPolicy faulting .stall
    refine ⟨session.after count, .halted count, ?_, ?_, ?_⟩
    · exact fun _ _ => Outcome.noConfusion
    · exact halts.run_eq limited count_le
    · rw [stallingHalts.run_eq stallingLimited count_le,
        halts.succeeds.after_withPolicy faulting]
  · rcases fails.error_cases with rfl | ⟨_, unknown, rfl, after_eq⟩
    · left
      obtain ⟨stallingFails, stalling_after⟩ :=
        fails.output_withPolicy faulting .stall
      refine ⟨session.after (count + 1), .failed .output, ?_, ?_, ?_⟩
      · exact fun _ _ outcome_eq =>
          ExecutionError.noConfusion (Outcome.failed.inj outcome_eq)
      · exact fails.run_eq limited count_lt
      · rw [stallingFails.run_eq stallingLimited count_lt, stalling_after]
    · right
      obtain ⟨outlasts, machine_eq, sink_eq⟩ :=
        fails.stalls_withPolicy faulting unknown (Nat.le_of_lt count_lt)
      refine ⟨session.after (count + 1), (session.withPolicy .stall).after limit,
        ?_, ?_, ?_, ?_⟩
      · rw [fails.run_eq limited count_lt, after_eq, machine_observe]
      · exact outlasts.run_eq stallingLimited
      · rw [machine_eq, after_eq, machine_observe]
      · rw [sink_eq, after_eq, sink_observe]
  · left
    have stallingOutlasts := outlasts.withPolicy faulting .stall
    refine ⟨session.after limit, .failed (.stepLimit limit), ?_, ?_, ?_⟩
    · exact fun _ _ outcome_eq =>
        ExecutionError.noConfusion (Outcome.failed.inj outcome_eq)
    · exact outlasts.run_eq limited
    · rw [stallingOutlasts.run_eq stallingLimited,
        outlasts.succeeds.after_withPolicy faulting]

/-- The policy for unknown opcodes makes no difference up to the first of them, where a
faulting machine stops and a stalling one never changes again. -/
theorem run_under_both_policies
    (limited : session.configuration.limit = some limit) :
    (∀ count,
        (session.withPolicy .fault).run.2 = .halted count ↔
          (session.withPolicy .stall).run.2 = .halted count) ∧
      ((session.withPolicy .fault).run.2 = .failed .output ↔
        (session.withPolicy .stall).run.2 = .failed .output) ∧
      ((session.withPolicy .fault).run.2 = .failed (.stepLimit limit) →
        (session.withPolicy .stall).run.2 = .failed (.stepLimit limit)) ∧
      ((∀ opcode pc,
          (session.withPolicy .fault).run.2 ≠
            .failed (.unknownOpcode opcode pc)) →
        (session.withPolicy .stall).run.1 =
          (session.withPolicy .fault).run.1.withPolicy .stall) ∧
      (∀ opcode pc,
        (session.withPolicy .fault).run.2 =
            .failed (.unknownOpcode opcode pc) →
          (session.withPolicy .stall).run.2 = .failed (.stepLimit limit) ∧
            (session.withPolicy .stall).run.1.machine =
              (session.withPolicy .fault).run.1.machine ∧
            (session.withPolicy .stall).run.1.sink =
              (session.withPolicy .fault).run.1.sink ∧
            (session.withPolicy .stall).run.1.machine.pc = pc ∧
            (session.withPolicy .stall).run.1.machine.fetch 0 = opcode) ∧
      ∀ met,
        (session.withPolicy .stall).Succeeds met →
          ((session.withPolicy .stall).after met).machine.MeetsUnknown →
            (∀ steps,
              ((session.withPolicy .stall).after (met + steps)).machine =
                  ((session.withPolicy .stall).after met).machine ∧
                ((session.withPolicy .stall).after (met + steps)).sink =
                  ((session.withPolicy .stall).after met).sink) ∧
              ∀ allowance,
                ((session.withPolicy .stall).runFor allowance).ending =
                  .exhausted := by
  have cases_eq :=
    run_withPolicy_cases (policy_withPolicy session .fault) limited
  rw [withPolicy_withPolicy] at cases_eq
  rcases cases_eq with ⟨last, outcome, known, faulting_eq, stalling_eq⟩ |
    ⟨last, stalled, faulting_eq, stalling_eq, machine_eq, sink_eq⟩
  · rw [faulting_eq, stalling_eq]
    refine ⟨fun _ => Iff.rfl, Iff.rfl, id, fun _ => rfl, ?_,
      fun _ => stalls_of_meetsUnknown rfl⟩
    intro opcode pc unknown
    exact absurd unknown (known opcode pc)
  · rw [faulting_eq, stalling_eq]
    refine ⟨?_, ?_, fun _ => rfl, ?_, ?_,
      fun _ => stalls_of_meetsUnknown rfl⟩
    · intro count
      simp
    · simp
    · intro known
      exact absurd rfl (known _ _)
    · intro opcode pc unknown
      injection Outcome.failed.inj unknown with opcode_eq pc_eq
      rw [← machine_eq] at opcode_eq pc_eq
      exact ⟨rfl, machine_eq, sink_eq, pc_eq, opcode_eq⟩

end Limited

/-- A program that prints and then runs into an unknown byte. -/
def runningIntoUnknown : Session where
  configuration := { Configuration.standard with limit := some 9 }
  machine :=
    { Machine.initial with
      memory := Memory.zeroed.overlay [0x82, 0x00, 0x05, 0x47, 0x00, 0xff] }
  sink := .unbounded
  trace := #[]

theorem run_under_both_policies_runningIntoUnknown :
    runningIntoUnknown.configuration.limit = some 9 ∧
      (runningIntoUnknown.withPolicy .fault).run.2 =
        .failed (.unknownOpcode 0xff 5) ∧
      (runningIntoUnknown.withPolicy .stall).run.2 =
        .failed (.stepLimit 9) ∧
      (runningIntoUnknown.withPolicy .stall).run.1.machine =
        (runningIntoUnknown.withPolicy .fault).run.1.machine := by
  have unknown :
      (runningIntoUnknown.withPolicy .fault).run.2 =
        .failed (.unknownOpcode 0xff 5) := by
    decide +kernel
  obtain ⟨_, _, _, _, stops, _⟩ :=
    run_under_both_policies
      (show runningIntoUnknown.configuration.limit = some 9 from rfl)
  obtain ⟨outcome_eq, machine_eq, _⟩ := stops 0xff 5 unknown
  exact ⟨rfl, unknown, outcome_eq, machine_eq⟩

end Session
end LS8
