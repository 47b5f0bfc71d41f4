import CellMachines.Proofs.Pipeline.Outcome

/-!
# Determinacy of rings

In a ring every machine waits for words that depend on its own, so there is no
first machine to argue from.  But the machines of one successful run are stages
that feed each other, and those bound every other run in which the seed comes
first on link `0`.  Hence a ring that succeeds once, whatever its links hold,
succeeds in the same way whenever it comes to an end, unless its puts fail for
lack of room, and even then it has no other result.
-/

namespace CellMachines

namespace Pipeline

variable {n : Nat} {pipeline : Pipeline} {phases : List Word}
  {events : List (Event phases.length)}

private theorem Visits.halted_of_ok {last : Progress phases.length}
    {run : PipelineRun} (visits : pipeline.Visits phases events last)
    (complete : last.isComplete = true) (ok : verdict last = .ok run) :
    (∀ index, (last.network.executor index).result? = some (.ok ())) ∧
      resultOf pipeline.topology last.reports = .ok run := by
  obtain ⟨⟨refusal, standing⟩, ends, ended⟩ :=
    Progress.exists_ends_of_isComplete complete
  cases refusal with
  | some source =>
      rw [verdict, standing] at ok
      cases ok
  | none =>
      have halted := halted_of_verdict_ok standing ended ok
      constructor
      · intro index
        rw [ended index, halted index]
      · rw [← ok, verdict_of_ok standing ended halted,
          visits.of_opening.wired.topology_eq]

private theorem Returns.exists_visits {run : PipelineRun}
    (returns : pipeline.Returns phases events (.ok run)) :
    ∃ last, pipeline.Visits phases events last ∧ last.isComplete = true ∧
      verdict last = .ok run := by
  generalize same :
      (Except.ok run : Except PipelineError PipelineRun) = outcome at returns
  cases returns with
  | invalidPhases | invalidPolicy => cases same
  | @complete _ last visits complete => exact ⟨last, visits, complete, rfl⟩

/-- The result of a ring depends neither on the schedule nor on the capacity of
its links. -/
theorem ring_determinate (ring : pipeline.topology = .ring) {run : PipelineRun}
    (returns : pipeline.Returns phases events (.ok run))
    (seedFirst : Event.SeedFirst .ring events) :
    (∀ policy later outcome,
      (policy = .unbounded ∨
        ∃ capacity, 1 ≤ capacity ∧ policy = .backpressure capacity) →
      ({ pipeline with policy } : Pipeline).Returns phases later outcome →
      Event.SeedFirst .ring later → outcome = .ok run) ∧
    ∀ capacity later other, 2 ≤ capacity →
      ({ pipeline with policy := .failFast capacity } : Pipeline).Returns phases
        later (.ok other) →
      Event.SeedFirst .ring later → other = run := by
  obtain ⟨last, visits, complete, ok⟩ := returns.exists_visits
  obtain ⟨halted, result⟩ := visits.halted_of_ok complete ok
  rw [← ring] at seedFirst
  have solves := visits.of_opening.solves_of_halted seedFirst
    fun index => Executor.outcome?_of_result? (halted index)
  have reports := visits.of_opening.reports_eq solves seedFirst halted
  obtain ⟨nonempty, distinct⟩ :=
    phaseProblem?_eq_none_iff.mp visits.phases_accepted
  constructor
  · intro policy later outcome patient returns seedFirst
    obtain ⟨final, visits, complete, rfl⟩ :=
      returns.complete_of_accepted nonempty distinct
        (policyProblem?_eq_none_iff.mpr (patient.imp_right .inl))
    have waits : ∀ capacity, policy ≠ .failFast capacity := by
      rcases patient with rfl | ⟨_, _, rfl⟩ <;>
        simp [Policy.failFast, Policy.backpressure]
    rw [← ring] at seedFirst
    have index : Fin phases.length := ⟨0, List.length_pos_iff.mpr nonempty⟩
    rw [← result, reports]
    exact visits.of_opening.verdict_of_halting complete solves seedFirst waits
      index fun _ => rfl
  · intro capacity later other _ returns seedFirst
    obtain ⟨final, visits, complete, ok⟩ := returns.exists_visits
    obtain ⟨halted, otherResult⟩ := visits.halted_of_ok complete ok
    rw [← ring] at seedFirst
    rw [visits.of_opening.reports_eq solves seedFirst halted,
      ← reports] at otherResult
    exact Except.ok.inj (otherResult.symm.trans result)

/-- A ring whose machine gets the seed back after putting it out. -/
def echo (policy : Policy) : Pipeline where
  program := ⟨[3, 0, 3, 0, 4, 0, 3, 0, 4, 0, 99]⟩
  topology := .ring
  policy
  seed := 7

private theorem exists_returns_echo (policy : Policy) (moves : List (Move 1))
    (accepted : policyProblem? policy = none)
    (checks : (((echo policy).opening (settings [5])).follow moves).any
      fun (events, last) => decide (Event.SeedFirst .ring events) &&
        last.isComplete && (verdict last).isOk) :
    ∃ events run, (echo policy).Returns [5] events (.ok run) ∧
      Event.SeedFirst .ring events := by
  cases follows : ((echo policy).opening (settings [5])).follow moves with
  | none => simp [follows] at checks
  | some final =>
      obtain ⟨events, last⟩ := final
      simp only [follows, Option.any_some, Bool.and_eq_true,
        decide_eq_true_eq] at checks
      obtain ⟨⟨seedFirst, complete⟩, ok⟩ := checks
      cases returned : verdict last with
      | error => simp [returned, Except.isOk, Except.toBool] at ok
      | ok run =>
          have visits := visits_of_follow (by decide) accepted follows
          have returns := Returns.complete visits complete
          rw [returned] at returns
          exact ⟨events, run, returns, seedFirst⟩

/-- Whether the seed is put before the machine takes its phase setting or only
after that, and whether there is room for one word or for any number, the ring
returns the same. -/
theorem ring_determinate_echo : ∃ events later last run outcome other,
    (echo .unbounded).Returns [5] events (.ok run) ∧
      Event.SeedFirst .ring events ∧
      (echo (.backpressure 1)).Returns [5] later outcome ∧
      Event.SeedFirst .ring later ∧
      (echo (.failFast 2)).Returns [5] last (.ok other) ∧
      Event.SeedFirst .ring last ∧
      outcome = .ok run ∧ other = run := by
  let act (count : Nat) : List (Move 1) :=
    List.replicate count (.execute Network.sole false)
  let seed : List (Move 1) := [.conduct false, .conduct false]
  obtain ⟨events, run, returns, seedFirst⟩ :=
    exists_returns_echo .unbounded (seed ++ act 14) rfl (by decide +kernel)
  obtain ⟨later, _, laterReturns, laterSeedFirst⟩ :=
    exists_returns_echo (.backpressure 1) (act 2 ++ seed ++ act 12) rfl
      (by decide +kernel)
  obtain ⟨last, other, lastReturns, lastSeedFirst⟩ :=
    exists_returns_echo (.failFast 2) (seed ++ act 14) rfl (by decide +kernel)
  have determined := ring_determinate rfl returns seedFirst
  have waiting := determined.1 (.backpressure 1) later _
    (.inr ⟨1, le_refl 1, rfl⟩) laterReturns laterSeedFirst
  have failing := determined.2 2 last other (le_refl 2) lastReturns
    lastSeedFirst
  exact ⟨events, later, last, run, _, other, returns, seedFirst, laterReturns,
    laterSeedFirst, lastReturns, lastSeedFirst, waiting, failing⟩

end Pipeline

end CellMachines
