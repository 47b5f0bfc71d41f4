import CellMachines.Proofs.Pipeline.Stages
import CellMachines.Proofs.Pipeline.Verdict

/-!
# Outcomes of complete runs

What a complete run amounts to, read off from stages that feed each other as its
machines do.  The schedule and the capacity of the links leave no trace in it,
except that of several machines that fail by themselves any may be the one that
is named.
-/

namespace CellMachines

/-- The report on a machine that does what the stage does. -/
def Stage.report (stage : Stage) (index : Nat) : Report where
  index
  steps := stage.machine.steps
  emitted := stage.outputs.length
  lastOutput := stage.outputs.getLast?
  memory := stage.machine.memory.cells.toList

namespace Executor

theorem report_eq {executor : Executor} {stage : Stage}
    (machine : executor.machine = stage.machine)
    (emitted : executor.emitted.toList = stage.outputs) (index : Nat) :
    executor.report index = stage.report index := by
  simp [report, Stage.report, machine, ← emitted]

end Executor

namespace Pipeline

namespace Progress

variable {n : Nat} {pipeline : Pipeline} {phases : Vector Word n}
  {stages : Fin n → Stage} {events : List (Event n)} {progress : Progress n}

theorem exists_ends_of_isComplete (complete : progress.isComplete = true) :
    (∃ refusal, progress.conductor = .joining refusal) ∧
      ∃ ends : Fin n → Except Failure Unit, ∀ index,
        (progress.network.executor index).result? = some (ends index) := by
  unfold isComplete at complete
  split at complete
  · rename_i refusal standing
    refine ⟨⟨refusal, standing⟩, ?_⟩
    have ended : ∀ index, ∃ result,
        (progress.network.executor index).result? = some result := by
      intro index
      have all := Vector.all_eq_true.mp complete index.val index.isLt
      exact Option.isSome_iff_exists.mp all
    exact ⟨fun index => (ended index).choose,
      fun index => (ended index).choose_spec⟩
  · cases complete

theorem Recorded.reports_eq
    (recorded : (pipeline.opening phases).Recorded events progress)
    (solves : pipeline.Solves phases stages)
    (seedFirst : Event.SeedFirst pipeline.topology events)
    (halted : ∀ index,
      (progress.network.executor index).result? = some (.ok ())) :
    progress.reports =
      (List.finRange n).map fun index => (stages index).report index := by
  apply List.map_congr_left
  intro index _member
  obtain ⟨_, machine, emitted⟩ := recorded.agrees solves seedFirst
    (Executor.outcome?_of_result? (halted index)) (by simp) (by simp)
  exact Executor.report_eq machine emitted index

/-- Where nobody failed by itself and the seed was not given up, nobody tripped
the token. -/
private theorem Recorded.untripped
    (recorded : (pipeline.opening phases).Recorded events progress)
    (joins : progress.conductor = .joining none)
    (cascade : ∀ index failure,
      (progress.network.executor index).outcome? = some (.error failure) →
      failure = .interrupted) :
    progress.network.tripped = false := by
  by_contra tripped
  rcases recorded.alarm (by simpa using tripped) with
    ⟨index, failure, failed, own⟩ | ⟨_, gaveUp⟩
  · exact own (cascade index failure failed)
  · rw [joins] at gaveUp
    cases gaveUp

section Patient

variable (recorded : (pipeline.opening phases).Recorded events progress)
  (complete : progress.isComplete = true)
  (solves : pipeline.Solves phases stages)
  (seedFirst : Event.SeedFirst pipeline.topology events)
  (patient : ∀ capacity, pipeline.policy ≠ .failFast capacity)

include recorded complete solves seedFirst patient

/-- In a complete run every machine ends as its stage does, or some machine
fails by itself as its stage does and that one or another such one is named. -/
private theorem ends_cases (index : Fin n) :
    (∃ (first : Fin n) (cause : Failure),
        (stages first).result = .error cause ∧ cause ≠ .inputExhausted ∧
          verdict progress = .error (.machine first cause)) ∨
      progress.conductor = .joining none ∧
        ∃ ends : Fin n → Except Failure Unit,
          (∀ index,
            (progress.network.executor index).result? = some (ends index)) ∧
          ∀ index, (ends index = .ok () ∧ (stages index).result = .ok ()) ∨
            ends index = .error .interrupted ∧
              (stages index).result = .error .inputExhausted := by
  obtain ⟨⟨refusal, standing⟩, ends, ended⟩ :=
    exists_ends_of_isComplete complete
  have joins : progress.conductor = .joining none := by
    cases refusal with
    | none => exact standing
    | some source =>
        have patience := (recorded.conductor_patient patient index).2 source
        exact absurd standing patience
  have outcome (index : Fin n) :
      (progress.network.executor index).outcome? = some (ends index) :=
    Executor.outcome?_of_result? (ended index)
  have own (index : Fin n) (own : ends index ≠ .error .interrupted) :
      ends index = (stages index).result :=
    (recorded.agrees solves seedFirst (outcome index) own
      (recorded.roomy patient (outcome index))).1
  by_cases cascade :
      ∀ index failure, ends index = .error failure → failure = .interrupted
  · right
    refine ⟨joins, ends, ended, ?_⟩
    intro index
    have untripped : progress.network.tripped = false := by
      apply recorded.untripped joins
      intro other failure failed
      rw [outcome, Option.some.injEq] at failed
      exact cascade other failure failed
    cases result : ends index with
    | ok =>
        left
        rw [← own index (by simp [result]), result]
        exact ⟨rfl, rfl⟩
    | error failure =>
        right
        obtain rfl := cascade index failure result
        have cut := outcome index
        rw [result] at cut
        exact ⟨rfl, (recorded.starved patient solves seedFirst untripped cut).1⟩
  · left
    simp only [not_forall] at cascade
    obtain ⟨failing, failure, failed, notInterrupted⟩ := cascade
    obtain ⟨first, cause, failed, ownCause, named⟩ :=
      verdict_of_failure joins ended failed notInterrupted
    have result := own first (by simp [failed, ownCause])
    have leaves := outcome first
    rw [failed] at result leaves
    refine ⟨first, cause, result.symm, ?_, named⟩
    rintro rfl
    exact (recorded.explained first).not_exhausted rfl leaves

theorem Recorded.verdict_of_halting (index : Fin n)
    (halting : ∀ index, (stages index).result = .ok ()) :
    verdict progress = resultOf pipeline.topology
      ((List.finRange n).map fun index => (stages index).report index) := by
  rcases ends_cases recorded complete solves seedFirst patient index with
    ⟨first, cause, failing, _⟩ | ⟨joins, ends, ended, same⟩
  · rw [halting first] at failing
    cases failing
  · have halted : ∀ index, ends index = .ok () := by
      intro index
      rcases same index with ⟨ok, _⟩ | ⟨_, starving⟩
      · exact ok
      · rw [halting index] at starving
        cases starving
    have result (index : Fin n) :
        (progress.network.executor index).result? = some (.ok ()) := by
      rw [ended index, halted index]
    rw [verdict_of_ok joins ended halted, recorded.wired.topology_eq,
      recorded.reports_eq solves seedFirst result]

theorem Recorded.verdict_of_starving {index : Fin n}
    (starving : (stages index).result = .error .inputExhausted)
    (first : ∀ earlier, earlier < index → (stages earlier).result = .ok ())
    (others : ∀ other, (stages other).result = .ok () ∨
      (stages other).result = .error .inputExhausted) :
    verdict progress = .error (.machine index .interrupted) := by
  rcases ends_cases recorded complete solves seedFirst patient index with
    ⟨culprit, cause, failing, fed, _⟩ | ⟨joins, ends, ended, same⟩
  · rcases others culprit with halting | exhausted
    · rw [halting] at failing
      cases failing
    · rw [exhausted, Except.error.injEq] at failing
      exact absurd failing.symm fed
  · apply verdict_of_interrupted joins ended
    · rcases same index with ⟨_, halting⟩ | ⟨cut, _⟩
      · rw [starving] at halting
        cases halting
      · exact cut
    · intro earlier before
      rcases same earlier with ⟨ok, _⟩ | ⟨_, exhausted⟩
      · exact ok
      · rw [first earlier before] at exhausted
        cases exhausted
    · intro other failure failed
      rcases same other with ⟨ok, _⟩ | ⟨cut, _⟩
      · rw [ok] at failed
        cases failed
      · rw [cut, Except.error.injEq] at failed
        exact failed.symm

theorem Recorded.verdict_of_failing {index : Fin n} {failure : Failure}
    (failing : (stages index).result = .error failure)
    (fed : failure ≠ .inputExhausted) :
    ∃ (first : Fin n) (cause : Failure),
      (stages first).result = .error cause ∧ cause ≠ .inputExhausted ∧
        verdict progress = .error (.machine first cause) := by
  rcases ends_cases recorded complete solves seedFirst patient index with
    named | ⟨_, _, _, same⟩
  · exact named
  · rcases same index with ⟨_, halting⟩ | ⟨_, exhausted⟩
    · rw [failing] at halting
      cases halting
    · rw [failing, Except.error.injEq] at exhausted
      exact absurd exhausted fed

end Patient

end Progress

end Pipeline

end CellMachines
