import CellMachines.Proofs.Remote.History

/-!
# What shutting a session down tells

Shutting down a live session joins the executor and tells how it ended: with the
report of a machine that has halted, with the failure of one that has failed, or
that it was cancelled, and then it was at work before.  A session that is over
has given the result of its executor to the call that failed.  Shutting it down
answers that the machine was cancelled, although that machine ended by itself.
-/

namespace CellMachines

namespace Session

variable {session last : Session} {budget : Nat}

theorem run_shutDown (budget : Nat) (session : Session) :
    (shutDown budget).run session =
      ((close budget).run session).map fun (answer, last) =>
        match answer with
        | .ok result => (termination result, last)
        | .error error => (.error error, last) := by
  rw [shutDown, run_bind]
  rcases (close budget).run session with _ | ⟨_ | result, _⟩
  · rfl
  · rfl
  · simp only [Option.bind_some, Option.map_some]
    cases termination result <;> rfl

/-- An answer to shutting a session down that is true of the executor: `session`
is the session before and `last` the one after. -/
def IsTruthful (session last : Session)
    (answer : Except RemoteError Termination) : Prop :=
  match last.result? with
  | some (.ok report) => answer = .ok (.halted report)
  | some (.error .interrupted) =>
    answer = .ok .cancelled ∧ session.executor.outcome? = none
  | some (.error failure) => answer = .error (.machine failure)
  | none => False

theorem result?_eq_of_ended {result : Except Failure Unit}
    (ended : session.executor.result? = some result) :
    session.result? =
      some (result.map fun () => session.executor.report 0) := by
  rw [Session.result?, Network.report?]
  rw [executor] at ended ⊢
  rw [ended]
  rfl

theorem IsOver.exists_result (spent : session.IsOver) :
    ∃ result, session.result? = some result ∧
      result ≠ .error .interrupted := by
  obtain ⟨result, ended, own⟩ := spent.ended
  refine ⟨_, result?_eq_of_ended ended, ?_⟩
  intro same
  cases result with
  | ok => cases same
  | error failure =>
      cases same
      exact own rfl

theorem IsLive.shutDown (live : session.IsLive) (patient : 4 ≤ budget) :
    ∃ answer last,
      (shutDown budget).run session = some (answer, last) ∧
        IsTruthful session last answer := by
  obtain ⟨last, ran⟩ := exists_run_close live.attached patient
  obtain ⟨_, closed⟩ := closed_of_run live.attached ran
  obtain ⟨result, ended, unchanged⟩ := closed.ended
  refine ⟨termination last.result?, last, by rw [run_shutDown, ran]; rfl, ?_⟩
  rw [IsTruthful, result?_eq_of_ended ended]
  cases result with
  | ok => rfl
  | error failure =>
      by_cases interrupted : failure = .interrupted
      · subst interrupted
        refine ⟨rfl, ?_⟩
        -- a machine that was on its way out already would have ended otherwise
        cases outcome : session.executor.outcome? with
        | none => rfl
        | some earlier =>
            rw [unchanged earlier outcome] at outcome
            exact absurd outcome live.serving.alone
      · cases failure <;> first | rfl | exact absurd rfl interrupted

theorem IsOver.shutDown (spent : session.IsOver) (budget : Nat) :
    ∃ last,
      (shutDown budget).run session = some (.ok .cancelled, last) ∧
        last.IsOver := by
  refine ⟨session.lead.dropInput, ?_, spent.lead_dropInput⟩
  rw [run_shutDown, run_close_of_joined spent.attached]
  rfl

theorem IsOver.not_truthful (spent : last.IsOver) :
    ¬IsTruthful session last (.ok .cancelled) := by
  obtain ⟨result, same, own⟩ := spent.exists_result
  rw [IsTruthful, same]
  cases result with
  | ok => simp
  | error failure => cases failure <;> simp_all

/-- After any requests, with the executor going on between them in any way,
shutting down returns.  What it answers is true exactly if no request has
failed.  After one that has, it answers that the machine was cancelled, though
that one ended by itself. -/
theorem shutDown_truthful_iff {program : Program} {limits : Limits}
    {leads : List (List Bool)} {budget patience : Nat}
    {requests : List Request}
    {answers : List (Except RemoteError (List Word))}
    (went : history budget requests (start program limits leads) =
      some (answers, session)) (patient : 4 ≤ patience) :
    ∃ answer last,
      (shutDown patience).run session = some (answer, last) ∧
      (IsTruthful session last answer ↔
        ∀ earlier ∈ answers, earlier.isOk = true) ∧
      ((∃ error, .error error ∈ answers) →
        answer = .ok .cancelled ∧ ∃ result,
          last.result? = some result ∧ result ≠ .error .interrupted) := by
  rcases (isLive_start program limits leads).history went with
    ⟨sound, live⟩ | ⟨failed, spent⟩
  · obtain ⟨answer, last, ran, truthful⟩ := live.shutDown patient
    refine ⟨answer, last, ran, iff_of_true truthful sound, ?_⟩
    rintro ⟨error, member⟩
    cases sound _ member
  · obtain ⟨last, ran, spent⟩ := spent.shutDown patience
    refine ⟨.ok .cancelled, last, ran, iff_of_false spent.not_truthful ?_, ?_⟩
    · intro sound
      obtain ⟨error, member⟩ := failed
      cases sound _ member
    · intro _
      exact ⟨rfl, spent.exists_result⟩

/-- A program that puts out a seven and halts. -/
def announcing : Program where
  cells := [104, 7, 99]

theorem shutDown_truthful_iff_announcing : ∃ session answer last,
    history 8 [.receive] (start announcing {} []) =
        some ([.ok [7]], session) ∧
      (shutDown 8).run session = some (answer, last) ∧
      IsTruthful session last answer := by
  have goes : (history 8 [.receive] (start announcing {} [])).map Prod.fst =
      some [.ok [7]] := by
    rfl
  obtain ⟨⟨answers, session⟩, went, same⟩ := Option.map_eq_some_iff.mp goes
  obtain rfl : answers = [.ok [7]] := same
  obtain ⟨answer, last, ran, truthful, _⟩ :=
    shutDown_truthful_iff went (show 4 ≤ 8 by decide)
  refine ⟨session, answer, last, went, ran, truthful.mpr ?_⟩
  intro earlier member
  obtain rfl := List.mem_singleton.mp member
  rfl

/-- A program that halts at once. -/
def halting : Program where
  cells := [99]

/-- The client learns from a take that no output can come any more, and then
from shutting down that the machine was cancelled, when it has halted. -/
theorem shutDown_untruthful_halting : ∃ session last,
    history 8 [.receive] (start halting {} []) =
        some ([.error .stopped], session) ∧
      (shutDown 8).run session = some (.ok .cancelled, last) ∧
      last.result? = some (.ok {
        index := 0, steps := 1, emitted := 0, lastOutput := none
        memory := [99] }) ∧
      ¬IsTruthful session last (.ok .cancelled) := by
  have goes : (history 8 [.receive] (start halting {} [])).map Prod.fst =
      some [.error .stopped] := by
    rfl
  obtain ⟨⟨answers, session⟩, went, same⟩ := Option.map_eq_some_iff.mp goes
  obtain rfl : answers = [.error .stopped] := same
  have ends : ((history 8 [.receive] (start halting {} [])).bind
      fun run => ((shutDown 8).run run.2).map
        fun ending => (ending.1, ending.2.result?)) =
      some (.ok .cancelled, some (.ok {
        index := 0, steps := 1, emitted := 0, lastOutput := none
        memory := [99] })) := by
    rfl
  rw [went] at ends
  obtain ⟨⟨answer, last⟩, ran, same⟩ := Option.map_eq_some_iff.mp ends
  obtain ⟨rfl, result⟩ := Prod.mk.inj same
  refine ⟨session, last, went, ran, result, ?_⟩
  simp [IsTruthful, result]

end Session

end CellMachines
