import LS8.Proofs.RunLoop

/-!
# Sinks with a capacity

A run that writes to a sink with a capacity is the run that writes to a sink
without one, up to the first line that brings the output above the capacity.
The step with that line fails, the sink then holds exactly as much of the
unbounded output as its capacity allows, and the machine is the one in front of
the step.  If no line does, both runs are the same.
-/

namespace LS8

namespace Sink

/-- The sink with a capacity that what it has kept already counts against. -/
def capped (sink : Sink) (capacity : Nat) : Sink :=
  ⟨sink.written, some (capacity - sink.written.length)⟩

variable {sink : Sink} {capacity : Nat} {text : String}

theorem written_prefix_write (sink : Sink) (text : String) :
    sink.written.toList <+: (sink.write text).written.toList := by
  cases room_eq : sink.room with
  | none => simp [write, room_eq]
  | some room => simp [write, room_eq]

theorem accepts_capped :
    (sink.capped capacity).accepts text = true ↔
      text.length ≤ capacity - sink.written.length := by
  simp [accepts, capped]

/-- A text that does not exceed the capacity is kept as without one. -/
theorem write_capped
    (unlimited : sink.room = none)
    (accepted : (sink.capped capacity).accepts text = true) :
    (sink.capped capacity).write text = (sink.write text).capped capacity := by
  have whole := written_write_of_accepts accepted
  have room_eq : ((sink.capped capacity).write text).room =
      some (capacity - sink.written.length - text.length) :=
    room_write rfl text
  rw [write_of_room_none unlimited]
  generalize (sink.capped capacity).write text = result at whole room_eq
  obtain ⟨written, room⟩ := result
  subst whole room_eq
  simp [capped, String.length_append, Nat.sub_sub]

/-- What is kept of a text that exceeds the capacity, together with what was
kept before, is the longest part that the capacity allows. -/
theorem written_write_capped
    (unlimited : sink.room = none)
    (within : sink.written.length ≤ capacity) :
    ((sink.capped capacity).write text).written.toList =
      (sink.write text).written.toList.take capacity := by
  have kept : sink.written.toList.length ≤ capacity := by
    rwa [String.length_toList]
  rw [write_of_room_none unlimited]
  simp only [write, capped, String.toList_append, String.toList_ofList,
    List.take_append, List.take_of_length_le kept, String.length_toList]

end Sink

namespace Session

/-- Everything that the session's sink has kept. -/
def output (session : Session) : List Char :=
  session.sink.written.toList

/-- The session with a capacity for its output. -/
def capped (session : Session) (capacity : Nat) : Session :=
  session.withSink (session.sink.capped capacity)

/-- After a number of successful steps, one more is the first that brings the
output above a capacity. -/
structure Exceeds (session : Session) (capacity count : Nat) : Prop where
  succeeds : session.Succeeds (count + 1)
  within : ∀ index ≤ count, (session.after index).output.length ≤ capacity
  above : capacity < (session.after (count + 1)).output.length

variable {session : Session} {capacity : Nat}

theorem output_prefix_step (session : Session) :
    session.output <+: session.step.1.output := by
  rcases stepped : session.step with ⟨next, error | status⟩
  · rcases step_error_cases stepped with ⟨_, rfl⟩ | ⟨effect, _, _, rfl, _⟩
    · refine ⟨[], ?_⟩
      rw [List.append_nil, output, output, sink_observe]
    · exact Sink.written_prefix_write session.sink effect.text
  · obtain ⟨effect, _, _, rfl, _⟩ := step_ok_cases stepped
    exact Sink.written_prefix_write session.sink effect.text

theorem output_prefix_after (session : Session) (count : Nat) :
    session.output <+: (session.after count).output := by
  induction count with
  | zero => exact List.prefix_refl _
  | succ count inductionHypothesis =>
      exact inductionHypothesis.trans (output_prefix_step (session.after count))

theorem output_prefix_of_le
    {index count : Nat}
    (index_le : index ≤ count) :
    (session.after index).output <+: (session.after count).output := by
  obtain ⟨steps, rfl⟩ := Nat.exists_eq_add_of_le index_le
  rw [after_add]
  exact output_prefix_after (session.after index) steps

/-- Output that is within the capacity has always been. -/
theorem output_within_of_le
    {index count : Nat}
    (index_le : index ≤ count)
    (within : (session.after count).output.length ≤ capacity) :
    (session.after index).output.length ≤ capacity :=
  Nat.le_trans (output_prefix_of_le index_le).length_le within

section Unlimited

variable (unlimited : session.sink.room = none)

include unlimited

theorem output_of_step_error
    {next : Session}
    {error : ExecutionError}
    (stepped : session.step = (next, .error error)) :
    next.output = session.output := by
  rcases step_error_cases stepped with ⟨_, rfl⟩ | ⟨effect, _, refused, _, _⟩
  · rw [output, output, sink_observe]
  · rw [Sink.accepts_of_room_none unlimited] at refused
    contradiction

theorem room_step_of_unlimited : session.step.1.sink.room = none := by
  cases executed : session.machine.next session.configuration.policy with
  | error error =>
      rw [step_of_error executed, sink_observe]
      exact unlimited
  | ok effect =>
      rw [step_of_unlimited unlimited executed, Sink.write_of_room_none unlimited]
      exact unlimited

/-- A step within the capacity is the one without a capacity. -/
theorem step_capped
    (within : session.step.1.output.length ≤ capacity) :
    (session.capped capacity).step =
      (session.step.1.capped capacity, session.step.2) := by
  cases executed : session.machine.next session.configuration.policy with
  | error error =>
      have refused :
          (session.capped capacity).machine.next
            (session.capped capacity).configuration.policy = .error error :=
        executed
      rw [step_of_error refused, step_of_error executed, capped,
        observe_withSink, capped, sink_observe]
  | ok effect =>
      rw [step_of_unlimited unlimited executed] at within ⊢
      have accepted :
          (session.sink.capped capacity).accepts effect.text = true := by
        rw [Sink.accepts_capped]
        simp only [output, Sink.write_of_room_none unlimited,
          String.toList_append, List.length_append,
          String.length_toList] at within
        omega
      have moved :
          (session.capped capacity).machine.next
            (session.capped capacity).configuration.policy = .ok effect :=
        executed
      rw [step_of_accepts moved accepted, capped, observe_withSink,
        sink_withSink, Sink.write_capped unlimited accepted]
      rfl

/-- A step that would exceed the capacity fails, and keeps just as much of its
line as there is room for. -/
theorem step_capped_of_exceeds
    (within : session.output.length ≤ capacity)
    (above : capacity < session.step.1.output.length) :
    ∃ last,
      (session.capped capacity).step = (last, .error .output) ∧
        last.machine = session.machine ∧
        last.output = session.step.1.output.take capacity := by
  have kept : session.sink.written.length ≤ capacity := by
    rwa [output, String.length_toList] at within
  cases executed : session.machine.next session.configuration.policy with
  | error error =>
      rw [step_of_error executed, output, sink_observe,
        String.length_toList] at above
      omega
  | ok effect =>
      rw [step_of_unlimited unlimited executed] at above ⊢
      have refused :
          (session.sink.capped capacity).accepts effect.text = false := by
        rw [Bool.eq_false_iff, ne_eq, Sink.accepts_capped]
        simp only [output, Sink.write_of_room_none unlimited,
          String.toList_append, List.length_append,
          String.length_toList] at above
        omega
      have moved :
          (session.capped capacity).machine.next
            (session.capped capacity).configuration.policy = .ok effect :=
        executed
      refine ⟨_, step_of_refuses moved refused, ?_, ?_⟩
      · exact machine_observe (session.capped capacity)
      · exact Sink.written_write_capped unlimited kept

end Unlimited

section Within

variable {count : Nat}

theorem room_after_of_unlimited
    (unlimited : session.sink.room = none)
    (count : Nat) :
    (session.after count).sink.room = none := by
  induction count with
  | zero => exact unlimited
  | succ count inductionHypothesis =>
      exact room_step_of_unlimited inductionHypothesis

/-- Where all output is accepted, a step fails only because the machine refuses to
execute. -/
theorem FailsAfter.next_eq_error
    {error : ExecutionError}
    (fails : session.FailsAfter count error)
    (unlimited : session.sink.room = none) :
    (session.after count).machine.next session.configuration.policy =
      .error error := by
  have stepped :
      (session.after count).step = (session.after (count + 1), .error error) :=
    Prod.ext rfl fails.failed
  rcases step_error_cases stepped with ⟨refused, _⟩ | ⟨effect, _, refused, _⟩
  · rwa [configuration_after] at refused
  · rw [Sink.accepts_of_room_none (room_after_of_unlimited unlimited count)]
      at refused
    contradiction

variable (unlimited : session.sink.room = none)

include unlimited

/-- As long as the output stays within the capacity, the session with the
capacity follows the one without. -/
theorem after_capped
    (within : (session.after count).output.length ≤ capacity) :
    (session.capped capacity).after count =
      (session.after count).capped capacity := by
  induction count with
  | zero => rfl
  | succ count inductionHypothesis =>
      have earlier := output_within_of_le (Nat.le_succ count) within
      have step_eq :=
        step_capped (room_after_of_unlimited unlimited count) within
      rw [after_succ, inductionHypothesis earlier, step_eq, after_succ]

theorem step_after_capped
    (within : (session.after (count + 1)).output.length ≤ capacity) :
    ((session.capped capacity).after count).step.2 =
      (session.after count).step.2 := by
  have earlier := output_within_of_le (Nat.le_succ count) within
  have step_eq := step_capped (room_after_of_unlimited unlimited count) within
  rw [after_capped unlimited earlier, step_eq]

theorem Succeeds.capped
    (succeeds : session.Succeeds count)
    (within : (session.after count).output.length ≤ capacity) :
    (session.capped capacity).Succeeds count := by
  intro index index_lt
  rw [step_after_capped unlimited (output_within_of_le index_lt within)]
  exact succeeds index index_lt

theorem HaltsAfter.capped
    (halts : session.HaltsAfter count)
    (within : (session.after count).output.length ≤ capacity) :
    (session.capped capacity).HaltsAfter count where
  succeeds := halts.succeeds.capped unlimited within
  running := fun _ index_lt =>
    (halts.succeeds.capped unlimited within).running index_lt
  halted := by
    rw [after_capped unlimited within]
    exact halts.halted

theorem FailsAfter.capped
    {error : ExecutionError}
    (fails : session.FailsAfter count error)
    (within : (session.after (count + 1)).output.length ≤ capacity) :
    (session.capped capacity).FailsAfter count error where
  succeeds :=
    fails.succeeds.capped unlimited
      (output_within_of_le (Nat.le_succ count) within)
  running := by
    intro index index_le
    have earlier := output_within_of_le (Nat.le_succ_of_le index_le) within
    rw [after_capped unlimited earlier]
    exact fails.running index index_le
  failed := by
    rw [step_after_capped unlimited within]
    exact fails.failed

theorem Outlasts.capped
    (outlasts : session.Outlasts count)
    (within : (session.after count).output.length ≤ capacity) :
    (session.capped capacity).Outlasts count where
  succeeds := outlasts.succeeds.capped unlimited within
  running := by
    rw [after_capped unlimited within]
    exact outlasts.running

end Within

/-! ## Above the capacity -/

section Above

variable {count : Nat}

/-- Among successful steps that bring the output above the capacity, there is a
first one. -/
theorem exists_exceeds
    (succeeds : session.Succeeds count)
    (within : session.output.length ≤ capacity)
    (above : capacity < (session.after count).output.length) :
    ∃ index < count, session.Exceeds capacity index := by
  induction count with
  | zero => exact absurd within (Nat.not_le.mpr above)
  | succ count inductionHypothesis =>
      rcases Nat.lt_or_ge capacity (session.after count).output.length with
        earlier | notEarlier
      · obtain ⟨index, index_lt, exceeds⟩ :=
          inductionHypothesis (succeeds.mono (Nat.le_succ count)) earlier
        exact ⟨index, Nat.lt_succ_of_lt index_lt, exceeds⟩
      · refine ⟨count, Nat.lt_succ_self count, succeeds, ?_, above⟩
        intro index index_le
        exact output_within_of_le index_le notEarlier

variable (unlimited : session.sink.room = none)

include unlimited

/-- The session with a capacity fails at the first step that exceeds it, in
front of which its machine stays, and keeps all that the capacity allows. -/
theorem Exceeds.failsAfter_capped
    (exceeds : session.Exceeds capacity count) :
    (session.capped capacity).FailsAfter count .output ∧
      ((session.capped capacity).after (count + 1)).machine =
        (session.after count).machine ∧
      ((session.capped capacity).after (count + 1)).output =
        (session.after (count + 1)).output.take capacity := by
  have within := exceeds.within count (Nat.le_refl count)
  obtain ⟨last, step_eq, machine_eq, output_eq⟩ :=
    step_capped_of_exceeds (room_after_of_unlimited unlimited count) within
      exceeds.above
  rw [← after_capped unlimited within] at step_eq
  have succeeds : session.Succeeds count :=
    exceeds.succeeds.mono (Nat.le_succ count)
  rw [after_succ, step_eq]
  refine ⟨⟨succeeds.capped unlimited within, ?_, ?_⟩, machine_eq, output_eq⟩
  · intro index index_le
    rw [after_capped unlimited (exceeds.within index index_le)]
    exact exceeds.succeeds.running (Nat.lt_succ_of_le index_le)
  · rw [step_eq]

/-- The output of a run is that of its successful steps. -/
theorem output_runFor (allowance : Nat) :
    ∃ count ≤ allowance,
      session.Succeeds count ∧
        (session.runFor allowance).session.output =
          (session.after count).output := by
  rcases session.runFor_cases allowance with
    ⟨count, count_le, halts, run_eq⟩ | ⟨count, count_lt, error, fails, run_eq⟩ |
      ⟨outlasts, run_eq⟩
  · exact ⟨count, count_le, halts.succeeds, by rw [run_eq]⟩
  · refine ⟨count, Nat.le_of_lt count_lt, fails.succeeds, ?_⟩
    have stepped : (session.after count).step =
        (session.after (count + 1), .error error) :=
      Prod.ext rfl fails.failed
    rw [run_eq]
    exact output_of_step_error (room_after_of_unlimited unlimited count) stepped
  · exact ⟨allowance, Nat.le_refl allowance, outlasts.succeeds, by rw [run_eq]⟩

end Above

section Runs

variable (unlimited : session.sink.room = none)

include unlimited

/-- A run whose output is within the capacity is the run without one. -/
theorem runFor_capped
    {allowance : Nat}
    (within : (session.runFor allowance).session.output.length ≤ capacity) :
    (session.capped capacity).runFor allowance =
      { session.runFor allowance with
        session := (session.runFor allowance).session.capped capacity } := by
  rcases session.runFor_cases allowance with
    ⟨count, count_le, halts, run_eq⟩ | ⟨count, count_lt, error, fails, run_eq⟩ |
      ⟨outlasts, run_eq⟩
  · rw [run_eq] at within ⊢
    rw [(halts.capped unlimited within).runFor_eq count_le,
      after_capped unlimited within]
  · rw [run_eq] at within ⊢
    rw [(fails.capped unlimited within).runFor_eq count_lt,
      after_capped unlimited within]
  · rw [run_eq] at within ⊢
    rw [(outlasts.capped unlimited within).runFor_eq,
      after_capped unlimited within]

/-- A run whose output exceeds the capacity fails with a capacity, and keeps as
much of its output as the capacity allows. -/
theorem runFor_capped_of_above
    {allowance : Nat}
    (within : session.output.length ≤ capacity)
    (above : capacity < (session.runFor allowance).session.output.length) :
    ∃ count < allowance, ∃ last,
      session.Exceeds capacity count ∧
        (session.capped capacity).runFor allowance =
          ⟨last, count, .failed .output⟩ ∧
        last.machine = (session.after count).machine ∧
        last.output =
          (session.runFor allowance).session.output.take capacity := by
  obtain ⟨steps, steps_le, succeeds, run_output_eq⟩ :=
    output_runFor unlimited allowance
  rw [run_output_eq] at above ⊢
  obtain ⟨count, count_lt, exceeds⟩ := exists_exceeds succeeds within above
  obtain ⟨fails, machine_eq, output_eq⟩ := exceeds.failsAfter_capped unlimited
  have count_lt_allowance : count < allowance := Nat.lt_of_lt_of_le count_lt steps_le
  refine ⟨count, count_lt_allowance, _, exceeds,
    fails.runFor_eq count_lt_allowance, machine_eq, ?_⟩
  -- The steps behind the one that exceeds the capacity only add to the output.
  obtain ⟨rest, rest_eq⟩ := session.output_prefix_of_le count_lt
  rw [output_eq, ← rest_eq,
    List.take_append_of_le_length (Nat.le_of_lt exceeds.above)]

end Runs

/-- A sink with a capacity cuts a run just where the output of the same run without one
would exceed it, and makes no difference as long as the whole output fits. -/
theorem run_with_capacity
    {limit : Nat}
    (limited : session.configuration.limit = some limit)
    (capacity : Nat) :
    ((session.withSink .unbounded).run.1.output.length ≤ capacity →
        (session.withSink (.bounded capacity)).run.2 =
            (session.withSink .unbounded).run.2 ∧
          (session.withSink (.bounded capacity)).run.1.machine =
            (session.withSink .unbounded).run.1.machine ∧
          (session.withSink (.bounded capacity)).run.1.output =
            (session.withSink .unbounded).run.1.output) ∧
      (capacity < (session.withSink .unbounded).run.1.output.length →
        (session.withSink (.bounded capacity)).run.2 = .failed .output ∧
          (session.withSink (.bounded capacity)).run.1.output =
            (session.withSink .unbounded).run.1.output.take capacity ∧
          ∃ count < limit,
            (session.withSink .unbounded).Exceeds capacity count ∧
              (session.withSink (.bounded capacity)).run.1.machine =
                ((session.withSink .unbounded).after count).machine) := by
  have unlimited : (session.withSink .unbounded).sink.room = none := rfl
  have capped_eq : (session.withSink .unbounded).capped capacity =
      session.withSink (.bounded capacity) := rfl
  have unboundedLimited :
      (session.withSink .unbounded).configuration.limit = some limit := limited
  have boundedLimited :
      (session.withSink (.bounded capacity)).configuration.limit = some limit :=
    limited
  rw [run_of_limit unboundedLimited, run_of_limit boundedLimited, ← capped_eq]
  constructor
  · intro within
    rw [runFor_capped unlimited within]
    exact ⟨rfl, rfl, rfl⟩
  · intro above
    obtain ⟨count, count_lt, last, exceeds, run_eq, machine_eq, output_eq⟩ :=
      runFor_capped_of_above unlimited (Nat.zero_le capacity) above
    rw [run_eq]
    exact ⟨rfl, output_eq, count, count_lt, exceeds, machine_eq⟩

/-- A program that prints two lines of two characters each. -/
def printingTwice : Session where
  configuration := { Configuration.standard with limit := some 9 }
  machine :=
    { Machine.initial with
      memory := Memory.zeroed.overlay
        [0x82, 0x00, 0x05, 0x47, 0x00, 0x47, 0x00, 0x01] }
  sink := .unbounded
  trace := #[]

theorem run_with_capacity_printingTwice :
    printingTwice.configuration.limit = some 9 ∧
      3 < (printingTwice.withSink .unbounded).run.1.output.length ∧
      (printingTwice.withSink (.bounded 3)).run.2 = .failed .output ∧
      (printingTwice.withSink (.bounded 3)).run.1.output = ['5', '\n', '5'] ∧
      (printingTwice.withSink (.bounded 4)).run.2 = .halted 4 := by
  have limited : printingTwice.configuration.limit = some 9 := rfl
  have above : 3 < (printingTwice.withSink .unbounded).run.1.output.length := by
    decide +kernel
  have within :
      (printingTwice.withSink .unbounded).run.1.output.length ≤ 4 := by
    decide +kernel
  obtain ⟨_, exceeds⟩ := run_with_capacity limited 3
  obtain ⟨fits, _⟩ := run_with_capacity limited 4
  obtain ⟨outcome_eq, output_eq, _⟩ := exceeds above
  refine ⟨limited, above, outcome_eq, ?_, ?_⟩
  · rw [output_eq]
    decide +kernel
  · rw [(fits within).1]
    decide +kernel

end Session
end LS8
