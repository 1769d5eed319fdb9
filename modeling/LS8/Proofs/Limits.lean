import LS8.Proofs.Alike
import LS8.Proofs.StateCount

/-!
# Limits only cut runs

A limit has no part in what the steps of a run do.  A run that halts within its
limit halts just so under every larger limit and without one, and is cut off by
every smaller one.  A run that was cut off can be taken up again by another run, as
all that counts is in the machine and the sink: runs taken up again and again come
to the same end as a single run with the limits of all of them together.
-/

namespace LS8
namespace Session

/-- The session with another limit. -/
def withLimit (session : Session) (limit : Option Nat) : Session :=
  { session with
    configuration := { session.configuration with limit } }

/-- The limit is all that changes. -/
theorem alike_withLimit (session : Session) (limit other : Option Nat) :
    (session.withLimit limit).Alike (session.withLimit other) :=
  ⟨rfl, rfl, rfl⟩

variable {session : Session} {limit count : Nat}

/-- A machine that halts outlasts every smaller number of steps. -/
theorem HaltsAfter.outlasts
    (halts : session.HaltsAfter count)
    {fewer : Nat}
    (fewer_lt : fewer < count) :
    session.Outlasts fewer :=
  ⟨halts.succeeds.mono (Nat.le_of_lt fewer_lt), halts.running fewer fewer_lt⟩

/-- A run that halts ends alike under every limit that is large enough, and
without a limit. -/
theorem HaltsAfter.run_withLimit
    {own : Option Nat}
    (halts : (session.withLimit own).HaltsAfter count)
    {other : Option Nat}
    (large : ∀ limit, other = some limit → count ≤ limit) :
    (session.withLimit other).run.2 = .halted count ∧
      (session.withLimit other).run.1.Alike ((session.withLimit own).after count) := by
  have alike := alike_withLimit session own other
  have otherHalts := alike.haltsAfter halts
  have run_eq :
      (session.withLimit other).run =
        ((session.withLimit other).after count, .halted count) := by
    cases other with
    | none => exact otherHalts.run_eq_of_no_limit rfl
    | some limit => exact otherHalts.run_eq rfl (large limit rfl)
  rw [run_eq]
  exact ⟨rfl, (alike.after count).symm⟩

/-! ## Taking up again -/

section Again

theorem Outlasts.succeeds_add
    {first : Nat}
    (outlasts : session.Outlasts first)
    (succeeds : (session.after first).Succeeds count) :
    session.Succeeds (first + count) := by
  intro index index_lt
  rcases Nat.lt_or_ge index first with index_lt_first | first_le
  · exact outlasts.succeeds index index_lt_first
  · obtain ⟨steps, rfl⟩ := Nat.exists_eq_add_of_le first_le
    rw [after_add]
    exact succeeds steps (by omega)

theorem Outlasts.haltsAfter_add
    {first : Nat}
    (outlasts : session.Outlasts first)
    (halts : (session.after first).HaltsAfter count) :
    session.HaltsAfter (first + count) where
  succeeds := outlasts.succeeds_add halts.succeeds
  running := fun _ index_lt => (outlasts.succeeds_add halts.succeeds).running index_lt
  halted := by
    rw [after_add]
    exact halts.halted

theorem Outlasts.outlasts_add
    {first : Nat}
    (outlasts : session.Outlasts first)
    (others : (session.after first).Outlasts count) :
    session.Outlasts (first + count) where
  succeeds := outlasts.succeeds_add others.succeeds
  running := by
    rw [after_add]
    exact others.running

theorem Outlasts.failsAfter_add
    {first : Nat}
    {error : ExecutionError}
    (outlasts : session.Outlasts first)
    (fails : (session.after first).FailsAfter count error) :
    session.FailsAfter (first + count) error where
  succeeds := outlasts.succeeds_add fails.succeeds
  running := by
    intro index index_le
    rcases Nat.lt_or_ge index (first + count) with index_lt | last_le
    · exact (outlasts.succeeds_add fails.succeeds).running index_lt
    · rw [Nat.le_antisymm index_le last_le, after_add]
      exact fails.running count (Nat.le_refl count)
  failed := by
    rw [after_add]
    exact fails.failed

end Again

/-- Let a session run, and again each time that its limit has stopped it, up to a
number of times: the session at the end, and the outcome of every run. -/
def runAgain : (calls : Nat) → Session → Session × List Outcome
  | 0, session => (session, [])
  | calls + 1, session =>
      match session.run with
      | (next, .failed (.stepLimit limit)) =>
          let (last, outcomes) := next.runAgain calls
          (last, .failed (.stepLimit limit) :: outcomes)
      | (next, outcome) => (next, [outcome])

theorem runAgain_succ_of_cut
    {next : Session}
    (run_eq : session.run = (next, .failed (.stepLimit limit)))
    (calls : Nat) :
    session.runAgain (calls + 1) =
      ((next.runAgain calls).1,
        .failed (.stepLimit limit) :: (next.runAgain calls).2) := by
  rw [runAgain, run_eq]

theorem runAgain_succ_of_ended
    {next : Session}
    {outcome : Outcome}
    (run_eq : session.run = (next, outcome))
    (ended : ∀ limit, outcome ≠ .failed (.stepLimit limit))
    (calls : Nat) :
    session.runAgain (calls + 1) = (next, [outcome]) := by
  rw [runAgain, run_eq]
  split
  case h_1 _ cut => exact absurd (congrArg Prod.snd cut) (ended _)
  case h_2 ended_eq =>
    injection ended_eq with next_eq outcome_eq
    rw [next_eq, outcome_eq]

/-- Neither an unknown byte nor a refused line is a limit. -/
theorem FailsAfter.error_ne_stepLimit
    {error : ExecutionError}
    (fails : session.FailsAfter count error)
    (bound : Nat) :
    error ≠ .stepLimit bound := by
  rcases fails.error_cases with error_eq | ⟨_, _, error_eq, _⟩
  · rw [error_eq]
    exact ExecutionError.noConfusion
  · rw [error_eq]
    exact ExecutionError.noConfusion

/-- Of runs taken up again some are cut off, and the last one halts or fails; or else all
of them are cut off. -/
theorem runAgain_cases
    (limited : session.configuration.limit = some limit)
    {calls : Nat}
    (called : session.machine.status = .running ∨ 0 < calls) :
    (∃ cuts < calls, ∃ cycles ≤ limit,
        session.HaltsAfter (cuts * limit + cycles) ∧
          session.runAgain calls =
            (session.after (cuts * limit + cycles),
              List.replicate cuts (.failed (.stepLimit limit)) ++
                [.halted cycles])) ∨
      (∃ cuts < calls, ∃ steps < limit, ∃ error,
        session.FailsAfter (cuts * limit + steps) error ∧
          session.runAgain calls =
            (session.after (cuts * limit + steps + 1),
              List.replicate cuts (.failed (.stepLimit limit)) ++
                [.failed error])) ∨
      (session.Outlasts (calls * limit) ∧
        session.runAgain calls =
          (session.after (calls * limit),
            List.replicate calls (.failed (.stepLimit limit)))) := by
  induction calls generalizing session with
  | zero =>
      rcases called with running | called
      · right
        right
        rw [Nat.zero_mul]
        exact ⟨⟨succeeds_zero session, running⟩, rfl⟩
      · exact absurd called (Nat.lt_irrefl 0)
  | succ calls inductionHypothesis =>
      rcases session.haltsWithin_or_failsWithin_or_outlasts limit with
        ⟨count, count_le, halts⟩ | ⟨count, count_lt, error, fails⟩ | outlasts
      · left
        refine ⟨0, Nat.succ_pos calls, count, count_le, ?_⟩
        rw [Nat.zero_mul, Nat.zero_add]
        exact ⟨halts,
          runAgain_succ_of_ended (halts.run_eq limited count_le)
            (fun _ => Outcome.noConfusion) calls⟩
      · right
        left
        refine ⟨0, Nat.succ_pos calls, count, count_lt, error, ?_⟩
        rw [Nat.zero_mul, Nat.zero_add]
        refine ⟨fails,
          runAgain_succ_of_ended (fails.run_eq limited count_lt) ?_ calls⟩
        exact fun bound outcome_eq =>
          fails.error_ne_stepLimit bound (Outcome.failed.inj outcome_eq)
      · have next_limited :
            (session.after limit).configuration.limit = some limit := by
          rw [configuration_after]
          exact limited
        have shifted (cuts steps : Nat) :
            (cuts + 1) * limit + steps = limit + (cuts * limit + steps) := by
          rw [Nat.succ_mul]
          omega
        rw [runAgain_succ_of_cut (outlasts.run_eq limited) calls]
        rcases inductionHypothesis next_limited (.inl outlasts.running) with
          ⟨cuts, cuts_lt, cycles, cycles_le, halts, again_eq⟩ |
            ⟨cuts, cuts_lt, steps, steps_lt, error, fails, again_eq⟩ |
            ⟨others, again_eq⟩
        · left
          refine ⟨cuts + 1, Nat.succ_lt_succ cuts_lt, cycles, cycles_le, ?_⟩
          rw [shifted, again_eq, ← after_add]
          exact ⟨outlasts.haltsAfter_add halts, rfl⟩
        · right
          left
          refine ⟨cuts + 1, Nat.succ_lt_succ cuts_lt, steps, steps_lt, error, ?_⟩
          rw [shifted, again_eq, ← after_add]
          exact ⟨outlasts.failsAfter_add fails, rfl⟩
        · right
          right
          have all_eq : (calls + 1) * limit = limit + calls * limit := by
            rw [Nat.succ_mul, Nat.add_comm]
          rw [all_eq, again_eq, after_add]
          exact ⟨outlasts.outlasts_add others, rfl⟩

/-- The outcomes of runs taken up again add up to the outcome of a single run.  A
run that was cut off has made as many steps as its limit allows. -/
inductive AddUp (limit calls : Nat) : List Outcome → Outcome → Prop where
  /-- Some runs are cut off, and the next one halts. -/
  | halted {cuts cycles : Nat} :
      cuts < calls →
      AddUp limit calls
        (List.replicate cuts (.failed (.stepLimit limit)) ++ [.halted cycles])
        (.halted (cuts * limit + cycles))
  /-- Some runs are cut off, and the next one fails for another reason. -/
  | failed {cuts : Nat} {error : ExecutionError} :
      cuts < calls →
      (∀ bound, error ≠ .stepLimit bound) →
      AddUp limit calls
        (List.replicate cuts (.failed (.stepLimit limit)) ++ [.failed error])
        (.failed error)
  /-- All runs are cut off. -/
  | cut :
      AddUp limit calls
        (List.replicate calls (.failed (.stepLimit limit)))
        (.failed (.stepLimit (calls * limit)))

/-- Runs taken up again end just as one run whose limit is that of all of them
together. -/
theorem runAgain_withLimit
    (session : Session)
    (limit : Nat)
    {calls : Nat}
    (called : 0 < calls) :
    ((session.withLimit (some limit)).runAgain calls).1.Alike
        (session.withLimit (some (calls * limit))).run.1 ∧
      AddUp limit calls ((session.withLimit (some limit)).runAgain calls).2
        (session.withLimit (some (calls * limit))).run.2 := by
  have alike := alike_withLimit session (some limit) (some (calls * limit))
  have within {cuts : Nat} (cuts_lt : cuts < calls) :
      cuts * limit + limit ≤ calls * limit := by
    rw [← Nat.succ_mul]
    exact Nat.mul_le_mul_right limit cuts_lt
  rcases @runAgain_cases (session.withLimit (some limit)) limit rfl calls
      (.inr called) with
    ⟨cuts, cuts_lt, cycles, cycles_le, halts, again_eq⟩ |
      ⟨cuts, cuts_lt, steps, steps_lt, error, fails, again_eq⟩ |
      ⟨outlasts, again_eq⟩
  · have count_le : cuts * limit + cycles ≤ calls * limit :=
      Nat.le_trans (Nat.add_le_add_left cycles_le _) (within cuts_lt)
    rw [again_eq, (alike.haltsAfter halts).run_eq rfl count_le]
    exact ⟨alike.after _, .halted cuts_lt⟩
  · have count_lt : cuts * limit + steps < calls * limit :=
      Nat.lt_of_lt_of_le (Nat.add_lt_add_left steps_lt _) (within cuts_lt)
    rw [again_eq, (alike.failsAfter fails).run_eq rfl count_lt]
    exact ⟨alike.after _, .failed cuts_lt fails.error_ne_stepLimit⟩
  · rw [again_eq, (alike.outlasts outlasts).run_eq rfl]
    exact ⟨alike.after _, .cut⟩

/-- A limit only cuts a run, and runs taken up again end like a single run with the limits
of all of them together. -/
theorem limits_only_cut_runs (session : Session) :
    (∀ limit cycles,
        (session.withLimit (some limit)).run.2 = .halted cycles →
          (∀ larger, cycles ≤ larger →
            (session.withLimit (some larger)).run.2 = .halted cycles ∧
              (session.withLimit (some larger)).run.1.Alike
                (session.withLimit (some limit)).run.1) ∧
            ((session.withLimit none).run.2 = .halted cycles ∧
              (session.withLimit none).run.1.Alike
                (session.withLimit (some limit)).run.1) ∧
            ∀ smaller, smaller < cycles →
              (session.withLimit (some smaller)).run.2 =
                .failed (.stepLimit smaller)) ∧
      ∀ limit calls, 0 < calls →
        ((session.withLimit (some limit)).runAgain calls).1.Alike
            (session.withLimit (some (calls * limit))).run.1 ∧
          AddUp limit calls ((session.withLimit (some limit)).runAgain calls).2
            (session.withLimit (some (calls * limit))).run.2 := by
  constructor
  · intro limit cycles halted
    obtain ⟨_, halts, last_eq⟩ := haltsAfter_of_run_halted halted
    rw [last_eq]
    refine ⟨?_, ?_, ?_⟩
    · intro larger cycles_le
      apply halts.run_withLimit
      rintro bound ⟨rfl⟩
      exact cycles_le
    · apply halts.run_withLimit
      intro bound absent
      contradiction
    · intro smaller smaller_lt
      have alike := alike_withLimit session (some limit) (some smaller)
      rw [((alike.haltsAfter halts).outlasts smaller_lt).run_eq rfl]
  · intro limit calls called
    exact session.runAgain_withLimit limit called

/-- A program that prints twice and halts with its fifth step. -/
def haltingOnFifth : Session where
  configuration := .standard
  machine :=
    { Machine.initial with
      memory := Memory.zeroed.overlay
        [0x82, 0x00, 0x05, 0x47, 0x00, 0x69, 0x00, 0x47, 0x00, 0x01] }
  sink := .unbounded
  trace := #[]

theorem limits_only_cut_runs_haltingOnFifth :
    (haltingOnFifth.withLimit (some 5)).run.2 = .halted 5 ∧
      (haltingOnFifth.withLimit none).run.2 = .halted 5 ∧
      (haltingOnFifth.withLimit (some 4)).run.2 = .failed (.stepLimit 4) ∧
      ((haltingOnFifth.withLimit (some 2)).runAgain 3).2 =
        [.failed (.stepLimit 2), .failed (.stepLimit 2), .halted 1] ∧
      ((haltingOnFifth.withLimit (some 2)).runAgain 3).1.Alike
        (haltingOnFifth.withLimit (some 6)).run.1 := by
  have halted : (haltingOnFifth.withLimit (some 5)).run.2 = .halted 5 := by
    decide +kernel
  obtain ⟨cuts, again⟩ := limits_only_cut_runs haltingOnFifth
  obtain ⟨_, free, stopped⟩ := cuts 5 5 halted
  exact ⟨halted, free.1, stopped 4 (by decide), by decide +kernel,
    (again 2 3 (by decide)).1⟩

end Session
end LS8
