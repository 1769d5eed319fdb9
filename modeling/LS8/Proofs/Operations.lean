import LS8.Proofs.RunLoop
import LS8.Session.Operation

/-!
# Sequences of host operations

A host carries out operations one after the other.  Steps and runs are the
operations that execute instructions, and what they do to the machine is what a
number of repeated steps does.
-/

namespace LS8

namespace Session

/-- The session after operations carried out one after the other. -/
def performAll (session : Session) (operations : List Operation) : Session :=
  operations.foldl (fun session operation => (session.perform operation).1)
    session

@[simp] theorem performAll_cons
    (session : Session)
    (operation : Operation)
    (rest : List Operation) :
    session.performAll (operation :: rest) =
      (session.perform operation).1.performAll rest := rfl

theorem performAll_append
    (session : Session)
    (first second : List Operation) :
    session.performAll (first ++ second) =
      (session.performAll first).performAll second :=
  List.foldl_append

/-- The number of steps that succeed in an operation. -/
def stepsIn (session : Session) : Operation → Nat
  | .step => if session.step.2.isOk then 1 else 0
  | .run => (session.runFor session.allowance).cycles
  | _ => 0

variable (session : Session)

/-- An image that fits is copied into memory, and nothing else changes. -/
theorem load_of_fits
    {image : List UInt8}
    (fits : image.length ≤ Memory.size) :
    session.load image =
      .ok
        (session.withMachine
          { session.machine with
            memory := session.machine.memory.overlay image }) := by
  rw [load, Machine.load, Memory.load_of_length_le _ fits]
  rfl

/-- An image with more bytes than the memory has cells is refused. -/
theorem load_of_tooLarge
    {image : List UInt8}
    (tooLarge : Memory.size < image.length) :
    session.load image = .error (.imageTooLarge image.length) := by
  rw [load, Machine.load, Memory.load_of_lt_length _ tooLarge]
  rfl

theorem answerLoad_of_fits
    {image : List UInt8}
    (fits : image.length ≤ Memory.size) :
    session.answerLoad (session.load image) =
      (session.withMachine
        { session.machine with
          memory := session.machine.memory.overlay image }, .done) := by
  rw [session.load_of_fits fits]
  rfl

theorem answerLoad_of_tooLarge
    {image : List UInt8}
    (tooLarge : Memory.size < image.length) :
    session.answerLoad (session.load image) =
      (session, .refused (.imageTooLarge image.length)) := by
  rw [session.load_of_tooLarge tooLarge]
  rfl

/-- An attempt to load changes nothing but the memory. -/
theorem exists_memory_answerLoad (image : Except LoadError (List UInt8)) :
    ∃ memory,
      (session.answerLoad (image >>= session.load)).1 =
        session.withMachine { session.machine with memory } := by
  rcases image with error | image
  · exact ⟨session.machine.memory, rfl⟩
  · change ∃ memory, (session.answerLoad (session.load image)).1 = _
    rcases Nat.lt_or_ge Memory.size image.length with tooLarge | fits
    · rw [session.answerLoad_of_tooLarge tooLarge]
      exact ⟨session.machine.memory, rfl⟩
    · rw [session.answerLoad_of_fits fits]
      exact ⟨_, rfl⟩

/-- A program text that is read as an image is answered as the image is. -/
theorem perform_loadText_of_parse
    {text image : List UInt8}
    (parse_eq : Program.parse text = .ok image) :
    session.perform (.loadText text) = session.answerLoad (session.load image) := by
  rw [perform, parse_eq]
  rfl

theorem perform_step_fst : (session.perform .step).1 = session.step.1 := by
  simp only [perform]
  rcases session.step with ⟨next, error | status⟩ <;> rfl

/-- A step leads to the machine after the steps that succeed in it. -/
theorem machine_perform_step :
    (session.perform .step).1.machine =
      (session.after (session.stepsIn .step)).machine := by
  rw [perform_step_fst, stepsIn]
  rcases stepped : session.step with ⟨next, error | status⟩
  · exact machine_of_step_error stepped
  · exact congrArg (·.1.machine) stepped.symm

/-- A run leads to the machine after the steps that succeed in it. -/
theorem machine_perform_run :
    (session.perform .run).1.machine =
      (session.after (session.stepsIn .run)).machine := by
  change (session.runFor session.allowance).session.machine =
    (session.after (session.runFor session.allowance).cycles).machine
  rcases session.runFor_cases session.allowance with
    ⟨count, _, _, run_eq⟩ | ⟨count, _, error, fails, run_eq⟩ | ⟨_, run_eq⟩
  · rw [run_eq]
  · rw [run_eq]
    exact fails.machine_eq
  · rw [run_eq]

/-- An operation makes a number of steps, or else it changes the machine alone. -/
theorem perform_cases (operation : Operation) :
    (∃ count, (session.perform operation).1 = session.after count) ∨
      ∃ machine, (session.perform operation).1 = session.withMachine machine := by
  have loaded (image : Except LoadError (List UInt8)) :
      ∃ machine,
        (session.answerLoad (image >>= session.load)).1 =
          session.withMachine machine := by
    obtain ⟨memory, loaded_eq⟩ := session.exists_memory_answerLoad image
    exact ⟨_, loaded_eq⟩
  cases operation with
  | step => exact .inl ⟨1, session.perform_step_fst⟩
  | run =>
      rcases session.runFor_cases session.allowance with
        ⟨count, _, _, run_eq⟩ | ⟨count, _, error, _, run_eq⟩ | ⟨_, run_eq⟩
      · exact .inl ⟨count, congrArg Run.session run_eq⟩
      · exact .inl ⟨count + 1, congrArg Run.session run_eq⟩
      · exact .inl ⟨session.allowance, congrArg Run.session run_eq⟩
  | load image => exact .inr (loaded (.ok image))
  | loadText text => exact .inr (loaded (Program.parse text))
  | _ => exact .inr ⟨_, rfl⟩

/-- No operation changes the configuration. -/
@[simp] theorem configuration_perform (operation : Operation) :
    (session.perform operation).1.configuration = session.configuration := by
  rcases session.perform_cases operation with ⟨count, next_eq⟩ | ⟨_, next_eq⟩
  · rw [next_eq, configuration_after]
  · rw [next_eq]
    rfl

@[simp] theorem configuration_performAll (operations : List Operation) :
    (session.performAll operations).configuration = session.configuration := by
  induction operations generalizing session with
  | nil => rfl
  | cons operation rest inductionHypothesis =>
      rw [performAll_cons, inductionHypothesis, configuration_perform]

end Session
end LS8
