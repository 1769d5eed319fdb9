import LS8.Proofs.Step

/-!
# Repeated steps

The session after a number of steps, one after the other.  The sequence goes on
past a failing step, so statements about runs say separately which steps
succeed.
-/

namespace LS8
namespace Session

/-- The session after a number of steps. -/
def after (session : Session) : Nat → Session
  | 0 => session
  | count + 1 => (session.after count).step.1

@[simp] theorem after_zero (session : Session) : session.after 0 = session := rfl

theorem after_succ (session : Session) (count : Nat) :
    session.after (count + 1) = (session.after count).step.1 := rfl

/-- The steps after the first one are the steps of the next session. -/
theorem after_succ_left (session : Session) (count : Nat) :
    session.after (count + 1) = session.step.1.after count := by
  induction count with
  | zero => rfl
  | succ count inductionHypothesis =>
      rw [after_succ, inductionHypothesis, after_succ]

theorem after_add (session : Session) (first second : Nat) :
    session.after (first + second) = (session.after first).after second := by
  induction second with
  | zero => rfl
  | succ second inductionHypothesis =>
      rw [← Nat.add_assoc, after_succ, inductionHypothesis, after_succ]

@[simp] theorem configuration_after (session : Session) (count : Nat) :
    (session.after count).configuration = session.configuration := by
  induction count with
  | zero => rfl
  | succ count inductionHypothesis =>
      rw [after_succ, configuration_step, inductionHypothesis]

/-- The first steps of a session all succeed. -/
def Succeeds (session : Session) (count : Nat) : Prop :=
  ∀ index < count, ∃ status, (session.after index).step.2 = .ok status

/-- The results of the steps tell whether they succeed. -/
theorem succeeds_iff_isOk {session : Session} {count : Nat} :
    session.Succeeds count ↔
      ∀ index < count, (session.after index).step.2.isOk = true := by
  constructor
  · intro succeeds index index_lt
    obtain ⟨status, status_eq⟩ := succeeds index index_lt
    rw [status_eq]
    rfl
  · intro results index index_lt
    have isOk := results index index_lt
    cases result : (session.after index).step.2 with
    | ok status => exact ⟨status, rfl⟩
    | error error =>
        rw [result] at isOk
        contradiction

instance (session : Session) (count : Nat) :
    Decidable (session.Succeeds count) :=
  decidable_of_iff' _ succeeds_iff_isOk

theorem succeeds_zero (session : Session) : session.Succeeds 0 := by
  intro index index_lt
  omega

theorem Succeeds.mono
    {session : Session}
    {fewer more : Nat}
    (succeeds : session.Succeeds more)
    (le : fewer ≤ more) :
    session.Succeeds fewer := by
  intro index index_lt
  exact succeeds index (by omega)

/-- A first step that succeeds can be put in front of successful steps. -/
theorem succeeds_succ_iff {session : Session} {count : Nat} :
    session.Succeeds (count + 1) ↔
      (∃ status, session.step.2 = .ok status) ∧
        session.step.1.Succeeds count := by
  constructor
  · intro succeeds
    refine ⟨succeeds 0 (by omega), ?_⟩
    intro index index_lt
    rw [← after_succ_left]
    exact succeeds (index + 1) (by omega)
  · rintro ⟨first, rest⟩ index index_lt
    cases index with
    | zero => exact first
    | succ index =>
        rw [after_succ_left]
        exact rest index (by omega)

/-- A session whose step succeeds, with the session and the status after it. -/
theorem Succeeds.step
    {session : Session}
    {count index : Nat}
    (succeeds : session.Succeeds count)
    (index_lt : index < count) :
    ∃ status,
      (session.after index).step = (session.after (index + 1), .ok status) := by
  obtain ⟨status, status_eq⟩ := succeeds index index_lt
  exact ⟨status, Prod.ext rfl status_eq⟩

/-- Before a successful step the machine is running. -/
theorem Succeeds.running
    {session : Session}
    {count index : Nat}
    (succeeds : session.Succeeds count)
    (index_lt : index < count) :
    (session.after index).machine.status = .running := by
  obtain ⟨status, stepped⟩ := succeeds.step index_lt
  exact running_of_step_ok stepped

/-- A successful step moves on to the machine of its effect. -/
theorem Succeeds.effect
    {session : Session}
    {count index : Nat}
    (succeeds : session.Succeeds count)
    (index_lt : index < count) :
    ∃ effect,
      (session.after index).machine.next session.configuration.policy =
          .ok effect ∧
        (session.after (index + 1)).machine = effect.machine := by
  obtain ⟨status, stepped⟩ := succeeds.step index_lt
  obtain ⟨effect, executed, _, next_eq, _⟩ := step_ok_cases stepped
  rw [configuration_after] at executed
  refine ⟨effect, executed, ?_⟩
  rw [next_eq]

/-- What the machines in front of a number of steps show, in order. -/
def seen {α : Type} (session : Session) (view : Machine → Option α) (count : Nat) :
    List α :=
  (List.range count).filterMap fun index => view (session.after index).machine

section Seen

variable {α : Type} (session : Session) (view : Machine → Option α)

@[simp] theorem seen_zero : session.seen view 0 = [] := rfl

theorem seen_succ (count : Nat) :
    session.seen view (count + 1) =
      session.seen view count ++ (view (session.after count).machine).toList := by
  rw [seen, List.range_succ, List.filterMap_append]
  rfl

end Seen

end Session
end LS8
