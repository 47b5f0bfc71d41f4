import CellMachines.Proofs.Pipeline.Outcome

/-!
# Causes of failures

A run that fails names a machine that failed by itself, the first of them, and a
machine that was interrupted only where there is no other.  An interruption has
a cause in turn: a machine is interrupted when another one has failed by itself
and tripped the token, or when nothing is left on its link and nobody is left to
put anything there.  All this supposes that the seed found room, for the
conductor trips the token as well when it did not.
-/

namespace CellMachines

namespace Pipeline

namespace Progress

variable {n : Nat} {pipeline : Pipeline} {phases : Vector Word n}
  {events : List (Event n)} {progress after : Progress n}
  {event : Option (Event n)} {index : Fin n}

/-! ## Interruptions -/

/-- Why a machine may be interrupted. -/
inductive Interruptible (progress : Progress n) (index : Fin n) : Prop where
  /-- Another machine failed by itself, and the token is tripped. -/
  | cascade {other : Fin n} {failure : Failure} :
      progress.network.tripped = true → other ≠ index →
      (progress.network.executor other).outcome? = some (.error failure) →
      failure ≠ .interrupted → Interruptible progress index
  /-- The link of the machine is empty, and everybody who could write it is done
  and has let go of it. -/
  | drained :
      (progress.network.link (Network.inputLink index)).contents = [] →
      (∀ writer,
        Network.upstream? progress.network.topology index = some writer →
        writer ≠ index ∧
          (∃ result,
            (progress.network.executor writer).outcome? = some result) ∧
          (progress.network.executor writer).holdsOutput = false) →
      (index.val = 0 → progress.conductor.holdsEntry = false) →
      Interruptible progress index

private theorem Recorded.interruptible_of_tripped
    (recorded : (pipeline.opening phases).Recorded events progress)
    (placed : ∀ source, progress.conductor ≠ .joining (some source))
    (atWork : (progress.network.executor index).outcome? = none)
    (tripped : progress.network.tripped = true) :
    progress.Interruptible index := by
  rcases recorded.alarm tripped with ⟨other, failure, failed, own⟩ |
    ⟨source, gaveUp⟩
  · have distinct : other ≠ index := by
      rintro rfl
      rw [atWork] at failed
      cases failed
    exact .cascade tripped distinct failed own
  · exact absurd gaveUp (placed source)

private theorem Recorded.interruptible_of_drained
    (recorded : (pipeline.opening phases).Recorded events progress)
    (atWork : (progress.network.executor index).outcome? = none)
    (empty : (progress.network.link (Network.inputLink index)).contents = [])
    (unwritten :
      (progress.network.link (Network.inputLink index)).senders = 0) :
    progress.Interruptible index := by
  have holders := recorded.wired.senders_eq index
  rw [unwritten, Network.holders] at holders
  obtain ⟨released, gone⟩ := Nat.add_eq_zero_iff.mp holders.symm
  apply Interruptible.drained empty
  · intro writer upstream
    have gone : (progress.network.executor writer).holdsOutput = false := by
      simpa [upstream] using gone
    obtain ⟨result, outcome⟩ := Executor.outcome?_of_not_holdsOutput gone
    refine ⟨?_, ⟨result, outcome⟩, gone⟩
    rintro rfl
    rw [atWork] at outcome
    cases outcome
  · intro first
    simpa [first] using released

/-- A machine that is interrupted was interruptible before. -/
theorem Recorded.interruptible
    (recorded : (pipeline.opening phases).Recorded events progress)
    (placed : ∀ source, progress.conductor ≠ .joining (some source))
    (change : progress.Change event after)
    (atWork : (progress.network.executor index).outcome? = none)
    (cut : (after.network.executor index).outcome? =
      some (.error .interrupted)) :
    progress.Interruptible index := by
  have running := ((recorded.explained index).underway atWork).isTerminal rfl
  rcases change.turn_or_same index with
    ⟨same, _⟩ | ⟨dealing, between, turn, deals, _⟩
  · rw [same, atWork] at cut
    cases cut
  · cases turn.leaves atWork cut with
    | cancelled tripped =>
        exact recorded.interruptible_of_tripped placed atWork tripped
    | stopped stops =>
        -- what ends a machine from within is never an interruption
        cases stops.isFault running
    | starved =>
        cases deals with
        | starves reason =>
            rcases reason with tripped | ⟨empty, unwritten⟩
            · exact recorded.interruptible_of_tripped placed atWork tripped
            · exact recorded.interruptible_of_drained atWork empty unwritten
    | failed same =>
        cases deals with
        | overflows => cases same
        | cut _ tripped =>
            exact recorded.interruptible_of_tripped placed atWork tripped

end Progress

/-! ## Verdicts -/

section Verdict

variable {n : Nat} {progress : Progress n} {ends : Fin n → Except Failure Unit}

/-- A machine fails in the given way, and no machine before it does. -/
def FirstFailing (ends : Fin n → Except Failure Unit) (way : Failure → Prop)
    (index : Fin n) (failure : Failure) : Prop :=
  ends index = .error failure ∧ way failure ∧
    ∀ earlier < index, ∀ other, ends earlier = .error other → ¬way other

theorem exists_firstFailing (way : Failure → Prop) {index : Fin n}
    {failure : Failure} (failed : ends index = .error failure)
    (held : way failure) :
    ∃ first cause, FirstFailing ends way first cause := by
  obtain ⟨first, ⟨cause, failed, held⟩, least⟩ :=
    exists_least (fun index => ∃ failure,
      ends index = .error failure ∧ way failure) ⟨index, failure, failed, held⟩
  refine ⟨first, cause, failed, held, ?_⟩
  intro earlier less other otherFailed otherHeld
  exact least earlier less ⟨other, otherFailed, otherHeld⟩

variable (joins : progress.conductor = .joining none)
  (ended : ∀ index, (progress.network.executor index).result? =
    some (ends index))

include joins ended

/-- A run that is over returns something or finds no output, names the first
machine that failed by itself, or names the first one that was interrupted. -/
theorem verdict_cases :
    ((∀ index, ends index = .ok ()) ∧
        ((∃ run, verdict progress = .ok run) ∨
          verdict progress = .error .noOutput)) ∨
      (∃ first cause,
        FirstFailing ends (· ≠ .interrupted) first cause ∧
          verdict progress = .error (.machine first cause)) ∨
      (∀ index failure, ends index = .error failure →
          failure = .interrupted) ∧
        ∃ first, FirstFailing ends (· = .interrupted) first .interrupted ∧
          verdict progress = .error (.machine first .interrupted) := by
  by_cases sound : ∀ index, ends index = .ok ()
  · left
    refine ⟨sound, ?_⟩
    rw [verdict_of_ok joins ended sound, resultOf]
    cases progress.reports.getLast?.bind Report.lastOutput with
    | none => exact .inr rfl
    | some output => exact .inl ⟨_, rfl⟩
  · right
    by_cases cascade :
        ∀ index failure, ends index = .error failure → failure = .interrupted
    · right
      refine ⟨cascade, ?_⟩
      obtain ⟨index, unsound⟩ := not_forall.mp sound
      have failed : ends index = .error .interrupted := by
        cases failed : ends index with
        | ok => exact absurd failed unsound
        | error failure => rw [cascade index failure failed]
      obtain ⟨first, cause, leads⟩ :=
        exists_firstFailing (· = .interrupted) failed rfl
      obtain ⟨failed, rfl, before⟩ := leads
      refine ⟨first, ⟨failed, rfl, before⟩, ?_⟩
      apply verdict_of_interrupted joins ended failed ?_ cascade
      intro earlier less
      cases result : ends earlier with
      | ok => rfl
      | error other =>
          have interrupted := cascade earlier other result
          exact absurd interrupted (before earlier less other result)
    · left
      simp only [not_forall] at cascade
      obtain ⟨index, failure, failed, own⟩ := cascade
      obtain ⟨first, cause, leads⟩ :=
        exists_firstFailing (· ≠ .interrupted) failed own
      refine ⟨first, cause, leads, ?_⟩
      apply verdict_of_first joins ended leads.1 leads.2.1
      intro earlier less other failed
      exact not_not.mp (leads.2.2 earlier less other failed)

omit joins ended in
private theorem returned_iff_of_named {first : Fin n} {cause : Failure}
    {number : Nat} (failed : ends first = .error cause)
    (named : verdict progress = .error (.machine number cause)) :
    (∃ run, verdict progress = .ok run) ∨
        verdict progress = .error .noOutput ↔
      ∀ index, ends index = .ok () := by
  constructor
  · rintro (⟨run, ok⟩ | silent)
    · rw [named] at ok
      cases ok
    · rw [named] at silent
      cases silent
  · intro sound
    rw [sound first] at failed
    cases failed

end Verdict

/-- The verdict on a run names a cause, and so does the run itself for every
interruption.  A run that is over returns or finds no output if and only if all
machines halted; of the machines that failed by themselves, if there are any,
the first one is named with its failure; and an interruption is named only where
all failures are interruptions, and then the first one. In the course of the run
no machine is interrupted that was not interruptible. -/
theorem Visits.cause_of_failure {pipeline : Pipeline} {phases : List Word}
    {events : List (Event phases.length)} {progress : Progress phases.length}
    (visits : pipeline.Visits phases events progress)
    (placed : ∀ source, progress.conductor ≠ .joining (some source)) :
    (progress.isComplete = true →
      ∃ ends : Fin phases.length → Except Failure Unit,
        (∀ index,
          (progress.network.executor index).result? = some (ends index)) ∧
        ((∃ run, verdict progress = .ok run) ∨
            verdict progress = .error .noOutput ↔
          ∀ index, ends index = .ok ()) ∧
        ((∃ index failure, ends index = .error failure ∧
            failure ≠ .interrupted) →
          ∃ first cause, FirstFailing ends (· ≠ .interrupted) first cause ∧
            verdict progress = .error (.machine first cause)) ∧
        ∀ index, verdict progress = .error (.machine index .interrupted) →
          (∀ other failure, ends other = .error failure →
            failure = .interrupted) ∧
          ∃ first, first.val = index ∧
            FirstFailing ends (· = .interrupted) first .interrupted) ∧
    ∀ move after index, progress.step move = some after →
      (progress.network.executor index).outcome? = none →
      (after.network.executor index).outcome? = some (.error .interrupted) →
      progress.Interruptible index := by
  constructor
  · intro complete
    obtain ⟨⟨refusal, standing⟩, ends, ended⟩ :=
      Progress.exists_ends_of_isComplete complete
    have joins : progress.conductor = .joining none := by
      cases refusal with
      | none => exact standing
      | some source => exact absurd standing (placed source)
    refine ⟨ends, ended, ?_⟩
    rcases verdict_cases joins ended with
      ⟨sound, outcome⟩ | ⟨first, cause, leads, named⟩ |
        ⟨cascade, first, leads, named⟩
    · refine ⟨⟨fun _ => sound, fun _ => outcome⟩, ?_, ?_⟩
      · rintro ⟨index, failure, failed, _⟩
        rw [sound index] at failed
        cases failed
      · intro index named
        rcases outcome with ⟨run, ok⟩ | silent
        · rw [ok] at named
          cases named
        · rw [silent] at named
          cases named
    · refine ⟨returned_iff_of_named leads.1 named,
        fun _ => ⟨first, cause, leads, named⟩, ?_⟩
      · intro index interrupted
        rw [named, Except.error.injEq, PipelineError.machine.injEq]
          at interrupted
        exact absurd interrupted.2 leads.2.1
    · refine ⟨returned_iff_of_named leads.1 named, ?_, ?_⟩
      · rintro ⟨index, failure, failed, own⟩
        exact absurd (cascade index failure failed) own
      · intro index interrupted
        rw [named, Except.error.injEq, PipelineError.machine.injEq]
          at interrupted
        exact ⟨cascade, first, interrupted.1, leads⟩
  · intro move after index stepped atWork cut
    exact visits.of_opening.interruptible placed
      (Progress.change_of_step stepped) atWork cut

/-- A ring whose machine fails when its phase setting is zero, and otherwise
takes words as long as any come. -/
def fragile : Pipeline where
  program := ⟨[3, 13, 1006, 13, 12, 3, 13, 3, 13, 1105, 1, 7, 42, 0]⟩
  topology := .ring
  seed := 7

/-- The first machine waits for a word when the second one fails. -/
theorem cause_of_failure_fragile : ∃ events progress ends,
    fragile.Visits [1, 0] events progress ∧ progress.isComplete = true ∧
      (∀ index,
        (progress.network.executor index).result? = some (ends index)) ∧
      ends 0 = .error .interrupted ∧
      ∃ first cause, FirstFailing ends (· ≠ .interrupted) first cause ∧
        verdict progress = .error (.machine first cause) := by
  let act (index : Fin 2) (count : Nat) : List (Move 2) :=
    List.replicate count (.execute index false)
  let moves : List (Move 2) :=
    [.conduct false, .conduct false] ++ act 0 7 ++ act 1 9 ++ act 0 3
  have ends : ((fragile.opening (settings [1, 0])).follow moves).any (fun run =>
      run.2.isComplete &&
        verdict run.2 = .error (.machine 1 (.invalidOpcode 42 12)) &&
        (run.2.network.executor 0).result? = some (.error .interrupted) &&
        (run.2.network.executor 1).result? =
          some (.error (.invalidOpcode 42 12))) = true := by
    decide +kernel
  obtain ⟨⟨events, progress⟩, follows, checks⟩ :=
    (Option.any_eq_true _ _).mp ends
  simp only [Bool.and_eq_true, decide_eq_true_eq] at checks
  obtain ⟨⟨⟨complete, named⟩, cut⟩, fails⟩ := checks
  have visits := visits_of_follow (by decide) (by decide) follows
  have placed : ∀ source, progress.conductor ≠ .joining (some source) := by
    intro source gaveUp
    rw [verdict, gaveUp] at named
    cases named
  obtain ⟨ends, ended, _, own, _⟩ :=
    (visits.cause_of_failure placed).1 complete
  have first : ends 0 = .error .interrupted :=
    Option.some.inj ((ended 0).symm.trans cut)
  have second : ends 1 = .error (.invalidOpcode 42 12) :=
    Option.some.inj ((ended 1).symm.trans fails)
  exact ⟨events, progress, ends, visits, complete, ended, first,
    own ⟨1, _, second, by simp⟩⟩

end Pipeline

end CellMachines
