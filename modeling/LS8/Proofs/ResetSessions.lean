import LS8.Proofs.BoundedOutput
import LS8.Proofs.Operations

/-!
# Sessions after a reset

What a session has written and recorded so far has no part in what it does next:
with other texts and other trace lines in front of them, its operations give the
same answers, write the same, and lead to the same machines.  A reset puts the
machine back and leaves the configuration alone, so the earlier texts and lines are
all that tells the session from a new one, and no operation shows them.
-/

namespace LS8

/-- What a session has written and recorded. -/
structure Record where
  written : String
  trace : Array String

/-- What a host gets to see of an operation. -/
structure Reply where
  answer : Answer
  /-- The output that the operation has added. -/
  written : List Char
  /-- The trace lines that the operation has added. -/
  recorded : List String
  /-- The machine after the operation. -/
  machine : Machine
  deriving DecidableEq

namespace Sink

/-- The sink with a text kept in front of everything else. -/
def behind (sink : Sink) (earlier : String) : Sink :=
  { sink with written := earlier ++ sink.written }

/-- Writing does not look at what has been kept before. -/
theorem write_behind (sink : Sink) (earlier text : String) :
    (sink.behind earlier).write text = (sink.write text).behind earlier := by
  cases room_eq : sink.room with
  | none => simp [write, behind, room_eq, String.append_assoc]
  | some room => simp [write, behind, room_eq, String.append_assoc]

end Sink

namespace Session

/-- The session with a record in front of everything that it has written and
recorded itself. -/
def behind (session : Session) (past : Record) : Session :=
  { session with
    sink := session.sink.behind past.written
    trace := past.trace ++ session.trace }

end Session

/-- The run of a session with a record in front. -/
def Run.behind (run : Run) (past : Record) : Run :=
  { run with session := run.session.behind past }

namespace Session

/-- What a host gets to see of an operation. -/
def reply (session : Session) (operation : Operation) : Reply where
  answer := (session.perform operation).2
  written :=
    (session.perform operation).1.output.drop session.output.length
  recorded :=
    (session.perform operation).1.trace.toList.drop session.trace.size
  machine := (session.perform operation).1.machine

/-- What a host gets to see of operations carried out one after the other. -/
def replies (session : Session) : List Operation → List Reply
  | [] => []
  | operation :: rest =>
      session.reply operation :: (session.perform operation).1.replies rest

/-- What an operation writes comes behind everything written before it. -/
theorem output_perform (session : Session) (operation : Operation) :
    (session.perform operation).1.output =
      session.output ++ (session.reply operation).written := by
  have grows : session.output <+: (session.perform operation).1.output := by
    rcases session.perform_cases operation with ⟨count, next_eq⟩ | ⟨_, next_eq⟩
    · rw [next_eq]
      exact session.output_prefix_after count
    · rw [next_eq]
      exact List.prefix_refl _
  exact List.prefix_iff_eq_append.mp grows |>.symm

/-- The replies show everything that operations write. -/
theorem output_performAll (session : Session) (operations : List Operation) :
    (session.performAll operations).output =
      session.output ++ (session.replies operations).flatMap Reply.written := by
  induction operations generalizing session with
  | nil => exact (List.append_nil _).symm
  | cons operation rest inductionHypothesis =>
      rw [performAll_cons, inductionHypothesis, output_perform, replies,
        List.flatMap_cons, List.append_assoc]

section Behind

variable (session : Session) (past : Record)

@[simp] theorem machine_behind :
    (session.behind past).machine = session.machine := rfl

theorem withMachine_behind (machine : Machine) :
    (session.behind past).withMachine machine =
      (session.withMachine machine).behind past := rfl

theorem observe_behind :
    (session.behind past).observe = session.observe.behind past := by
  unfold observe
  rw [apply_ite (fun observed : Session => observed.behind past)]
  simp [behind]

/-- A step adds the same behind every record. -/
theorem step_behind :
    (session.behind past).step = (session.step.1.behind past, session.step.2) := by
  cases executed : session.machine.next session.configuration.policy with
  | error error =>
      have refused :
          (session.behind past).machine.next
            (session.behind past).configuration.policy = .error error :=
        executed
      rw [step_of_error executed, step_of_error refused, observe_behind]
  | ok effect =>
      have moved :
          (session.behind past).machine.next
            (session.behind past).configuration.policy = .ok effect :=
        executed
      have sink_eq :
          (session.behind past).sink.write effect.text =
            (session.sink.write effect.text).behind past.written :=
        Sink.write_behind _ _ _
      cases accepted : session.sink.accepts effect.text with
      | true =>
          rw [step_of_accepts executed accepted, step_of_accepts moved accepted,
            observe_behind, sink_eq]
          rfl
      | false =>
          rw [step_of_refuses executed accepted, step_of_refuses moved accepted,
            observe_behind, sink_eq]
          rfl

theorem runFor_behind (allowance : Nat) :
    (session.behind past).runFor allowance =
      (session.runFor allowance).behind past := by
  induction allowance generalizing session with
  | zero =>
      cases status_eq : session.machine.status with
      | halted =>
          rw [runFor_of_halted status_eq,
            @runFor_of_halted (session.behind past) status_eq]
          rfl
      | running =>
          rw [runFor_zero status_eq, @runFor_zero (session.behind past) status_eq]
          rfl
  | succ allowance inductionHypothesis =>
      cases status_eq : session.machine.status with
      | halted =>
          rw [runFor_of_halted status_eq,
            @runFor_of_halted (session.behind past) status_eq]
          rfl
      | running =>
          have step_eq := session.step_behind past
          rcases stepped : session.step with ⟨next, error | status⟩
          · rw [stepped] at step_eq
            rw [runFor_succ_of_error status_eq stepped,
              @runFor_succ_of_error (session.behind past) _ _ status_eq step_eq]
            rfl
          · rw [stepped] at step_eq
            rw [runFor_succ_of_ok status_eq stepped,
              @runFor_succ_of_ok (session.behind past) _ _ status_eq step_eq,
              inductionHypothesis]
            rfl

theorem run_behind :
    (session.behind past).run = (session.run.1.behind past, session.run.2) := by
  have allowance_eq : (session.behind past).allowance = session.allowance := rfl
  rw [run, allowance_eq, runFor_behind]
  rfl

theorem answerLoad_behind (image : Except LoadError (List UInt8)) :
    (session.behind past).answerLoad (image >>= (session.behind past).load) =
      ((session.answerLoad (image >>= session.load)).1.behind past,
        (session.answerLoad (image >>= session.load)).2) := by
  rcases image with error | image
  · rfl
  · change (session.behind past).answerLoad ((session.behind past).load image) =
      ((session.answerLoad (session.load image)).1.behind past,
        (session.answerLoad (session.load image)).2)
    rcases Nat.lt_or_ge Memory.size image.length with tooLarge | fits
    · rw [answerLoad_of_tooLarge _ tooLarge, answerLoad_of_tooLarge _ tooLarge]
    · rw [answerLoad_of_fits _ fits, answerLoad_of_fits _ fits, machine_behind,
        withMachine_behind]

/-- An operation adds the same behind every record. -/
theorem perform_behind (operation : Operation) :
    (session.behind past).perform operation =
      ((session.perform operation).1.behind past,
        (session.perform operation).2) := by
  cases operation with
  | load image => exact session.answerLoad_behind past (.ok image)
  | loadText text => exact session.answerLoad_behind past (Program.parse text)
  | step =>
      simp only [perform, step_behind]
      rcases session.step with ⟨next, error | status⟩ <;> rfl
  | run =>
      simp only [perform, run_behind]
  | _ => rfl

theorem reply_behind (operation : Operation) :
    (session.behind past).reply operation = session.reply operation := by
  rw [reply, perform_behind]
  simp [reply, behind, output, Sink.behind, List.drop_append]

/-- No operation shows what was written and recorded before it. -/
theorem replies_behind (operations : List Operation) :
    (session.behind past).replies operations = session.replies operations := by
  induction operations generalizing session with
  | nil => rfl
  | cons operation rest inductionHypothesis =>
      rw [replies, replies, reply_behind, perform_behind, inductionHypothesis]

end Behind

/-! ## Resets -/

theorem unlimited_performAll
    {session : Session}
    (unlimited : session.sink.room = none)
    (operations : List Operation) :
    (session.performAll operations).sink.room = none := by
  induction operations generalizing session with
  | nil => exact unlimited
  | cons operation rest inductionHypothesis =>
      rw [performAll_cons]
      apply inductionHypothesis
      rcases session.perform_cases operation with ⟨count, next_eq⟩ | ⟨_, next_eq⟩
      · rw [next_eq]
        exact room_after_of_unlimited unlimited count
      · rw [next_eq]
        exact unlimited

/-- What a session has written and recorded so far. -/
def record (session : Session) : Record :=
  ⟨session.sink.written, session.trace⟩

/-- After a reset only the record tells a session from a new one. -/
theorem reset_eq_start_behind
    {session : Session}
    (unlimited : session.sink.room = none) :
    session.reset =
      (start session.configuration .unbounded).behind session.record := by
  obtain ⟨configuration, machine, ⟨written, room⟩, trace⟩ := session
  obtain rfl : room = none := unlimited
  simp [reset, start, behind, record, Sink.behind, Sink.unbounded]

/-- Where all output is accepted, a session that has been reset goes on like a new session
with the same configuration, whatever was done with it before. -/
theorem reset_forgets
    (configuration : Configuration)
    {sink : Sink}
    (accepting : sink.room = none)
    (earlier later : List Operation) :
    let fresh := start configuration sink
    let reset := fresh.performAll (earlier ++ [.reset])
    reset.machine = fresh.machine ∧
      reset.replies later = fresh.replies later ∧
      (reset.performAll later).output =
        reset.output ++ (fresh.replies later).flatMap Reply.written ∧
      (reset.performAll later).configuration = configuration := by
  intro fresh reset
  have fresh_unlimited : fresh.sink.room = none := accepting
  have used_unlimited := unlimited_performAll fresh_unlimited earlier
  have reset_eq : reset = (fresh.performAll earlier).reset :=
    performAll_append fresh earlier [.reset]
  have fresh_eq : fresh = (start configuration .unbounded).behind fresh.record :=
    reset_eq_start_behind fresh_unlimited
  have replies_eq : reset.replies later = fresh.replies later := by
    rw [reset_eq, reset_eq_start_behind used_unlimited, configuration_performAll,
      replies_behind, fresh_eq, replies_behind]
    rfl
  refine ⟨?_, replies_eq, ?_, ?_⟩
  · rw [reset_eq]
    rfl
  · rw [← replies_eq]
    exact reset.output_performAll later
  · rw [configuration_performAll, configuration_performAll]
    rfl

/-- Unknown bytes are errors, and four steps are the most that a run may take. -/
def strictWithTrace : Configuration where
  policy := .fault
  limit := some 4
  tracing := true

/-- A host lets a program print and halt, and uses the stack; then an image that is
too large is refused. -/
def printingAndPushing : List Operation :=
  [.load [0x82, 0x00, 0x09, 0x47, 0x00, 0x01], .run, .push 0x45, .step,
    .load (List.replicate 257 0x01)]

/-- A host loads an image of one instruction that is shorter than the one before, and
lets it run into the unknown byte behind the image. -/
def complementingOnly : List Operation :=
  [.load [0x69, 0x00], .run, .step]

theorem reset_forgets_printingAndPushing :
    let fresh := start strictWithTrace .unbounded
    let used := fresh.performAll printingAndPushing
    let reset := fresh.performAll (printingAndPushing ++ [.reset])
    Sink.unbounded.room = none ∧
      used.machine.status = .halted ∧
      used.machine.memory.read 0x02 = 0x09 ∧
      used.output = "9\n".toList ∧
      (reset.replies complementingOnly).map Reply.answer =
        [.done, .outcome (.failed (.unknownOpcode 0x00 0x02)),
          .failed (.unknownOpcode 0x00 0x02)] ∧
      (reset.performAll complementingOnly).configuration = strictWithTrace := by
  intro fresh used reset
  obtain ⟨_, replies_eq, _, configuration_eq⟩ :=
    reset_forgets strictWithTrace (rfl : Sink.unbounded.room = none)
      printingAndPushing complementingOnly
  refine ⟨rfl, by decide +kernel, by decide +kernel, by decide +kernel, ?_,
    configuration_eq⟩
  rw [replies_eq]
  decide +kernel

end Session
end LS8
