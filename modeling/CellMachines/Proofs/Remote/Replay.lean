import CellMachines.Proofs.Remote.Relays

/-!
# Sessions replay the outputs of their machine

Everything that a client gets in all its calls is a beginning of what its
machine puts out on everything that it has put in them, and the first call that
fails tells how that machine ends on it.  What holds of a put and of a take
holds of the operations of a call and then of a whole chronicle of calls, of
which those after the first that fails still get what has come out before.
-/

namespace CellMachines

open Network

variable {first : Machine} {pushed received : List Word}
  {result : Except Failure Unit}

namespace Session

variable {session last : Session} {budget : Nat}

/-! ## Calls -/

section Perform

variable {operations : List Operation} {record : Record}

theorem IsLive.perform_ok (live : session.IsLive)
    (relays : session.network.Relays first pushed received)
    (performed : perform budget operations session = some (record, last))
    (sound : record.error? = none) :
    last.IsLive ∧
      last.network.Relays first (pushed ++ record.pushed)
        (received ++ record.received) := by
  induction operations generalizing session record pushed received with
  | nil =>
      cases performed
      refine ⟨live, ?_⟩
      simpa [Record.empty] using relays
  | cons operation later induction =>
      rcases perform_cons performed with
        ⟨values, between, rest, called, further, rfl⟩ | ⟨error, _, rfl⟩
      · obtain ⟨live, relays⟩ := live.call_ok relays called
        obtain ⟨live, relays⟩ := induction live relays further sound
        refine ⟨live, ?_⟩
        simpa [Record.after] using relays
      · cases sound

theorem IsLive.perform_error {error : RemoteError} (live : session.IsLive)
    (relays : session.network.Relays first pushed received)
    (performed : perform budget operations session = some (record, last))
    (failed : record.error? = some error) :
    last.IsOver ∧
      last.network.Relays first (pushed ++ record.pushed)
        (received ++ record.received) ∧
      ∃ result, last.executor.result? = some result ∧
        error = .ofEnd result := by
  rcases perform_cases performed with ⟨sound, _⟩ |
    ⟨before, operation, _, between, other, _, earlier, fails, same⟩
  · rw [failed] at sound
    cases sound
  · obtain rfl : error = other := Option.some.inj (failed.symm.trans same)
    obtain ⟨live, relays⟩ := live.perform_ok relays earlier rfl
    obtain ⟨spent, relays, ending, _⟩ := live.call_error relays fails
    exact ⟨spent, relays, ending⟩

theorem outcome_perform (outcome : session.executor.outcome? = some result)
    (performed : perform budget operations session = some (record, last)) :
    last.executor.outcome? = some result := by
  induction operations generalizing session record with
  | nil =>
      cases performed
      exact outcome
  | cons operation later induction =>
      rcases perform_cons performed with
        ⟨values, between, rest, called, further, _⟩ | ⟨error, called, _⟩
      · exact induction (outcome_call outcome called) further
      · exact outcome_call outcome called

theorem IsOver.perform (spent : session.IsOver)
    (relays : session.network.Relays first pushed received)
    (performed : perform budget operations session = some (record, last)) :
    last.IsOver ∧ record.pushed = [] ∧
      last.network.Relays first pushed (received ++ record.received) := by
  induction operations generalizing session record received with
  | nil =>
      cases performed
      refine ⟨spent, rfl, ?_⟩
      simpa [Record.empty] using relays
  | cons operation later induction =>
      rcases perform_cons performed with
        ⟨values, between, rest, called, further, rfl⟩ | ⟨error, called, rfl⟩
      · obtain ⟨spent, nothing, relays⟩ := spent.call relays called
        obtain ⟨spent, pushed, relays⟩ := induction spent relays further
        refine ⟨spent, ?_, ?_⟩
        · rw [Record.after, nothing, pushed]
          rfl
        · simpa [Record.after] using relays
      · obtain ⟨spent, relays⟩ := spent.call relays called
        refine ⟨spent, rfl, ?_⟩
        simpa using relays

end Perform

section Chronicle

variable {calls : List (List Operation)} {records : List Record}

theorem chronicle_cons {operations : List Operation}
    (went : chronicle budget (operations :: calls) session =
      some (records, last)) :
    ∃ record between rest,
      perform budget operations session = some (record, between) ∧
      chronicle budget calls between = some (rest, last) ∧
      records = record :: rest := by
  rw [chronicle] at went
  obtain ⟨⟨record, between⟩, performed, went⟩ := Option.bind_eq_some_iff.mp went
  obtain ⟨⟨rest, final⟩, went, same⟩ := Option.map_eq_some_iff.mp went
  cases same
  exact ⟨record, between, rest, performed, went, rfl⟩

theorem IsOver.chronicle (spent : session.IsOver)
    (relays : session.network.Relays first pushed received)
    (outcome : session.executor.outcome? = some result)
    (went : chronicle budget calls session = some (records, last)) :
    last.IsOver ∧ last.executor.outcome? = some result ∧
      records.flatMap Record.pushed = [] ∧
      last.network.Relays first pushed
        (received ++ records.flatMap Record.received) := by
  induction calls generalizing session records received with
  | nil =>
      cases went
      refine ⟨spent, outcome, rfl, ?_⟩
      simpa using relays
  | cons operations later induction =>
      obtain ⟨record, between, rest, performed, further, rfl⟩ :=
        chronicle_cons went
      have outcome := outcome_perform outcome performed
      obtain ⟨spent, nothing, relays⟩ := spent.perform relays performed
      obtain ⟨spent, outcome, pushed, relays⟩ :=
        induction spent relays outcome further
      refine ⟨spent, outcome, ?_, ?_⟩
      · rw [List.flatMap_cons, nothing, pushed]
        rfl
      · simpa using relays

/-- In a live session everything is accounted for, and the first call that fails
tells how the machine has ended. -/
theorem IsLive.chronicle (live : session.IsLive)
    (relays : session.network.Relays first pushed received)
    (went : chronicle budget calls session = some (records, last)) :
    last.network.Relays first (pushed ++ records.flatMap Record.pushed)
        (received ++ records.flatMap Record.received) ∧
      ∀ before record later error, records = before ++ record :: later →
        (∀ earlier ∈ before, earlier.error? = none) →
        record.error? = some error →
        last.IsOver ∧ ∃ result, last.executor.result? = some result ∧
          error = .ofEnd result := by
  induction calls generalizing session records pushed received with
  | nil =>
      cases went
      refine ⟨by simpa using relays, ?_⟩
      intro before record later error split
      simp at split
  | cons operations later induction =>
      obtain ⟨record, between, rest, performed, further, rfl⟩ :=
        chronicle_cons went
      cases failed : record.error? with
      | none =>
          obtain ⟨live, relays⟩ := live.perform_ok relays performed failed
          obtain ⟨relays, tells⟩ := induction live relays further
          refine ⟨by simpa using relays, ?_⟩
          intro before failing behind error split sound fails
          cases before with
          | nil =>
              cases split
              rw [failed] at fails
              cases fails
          | cons head before =>
              cases split
              apply tells before failing behind error rfl ?_ fails
              intro earlier member
              exact sound earlier (List.mem_cons_of_mem _ member)
      | some error =>
          obtain ⟨spent, relays, result, ended, same⟩ :=
            live.perform_error relays performed failed
          have outcome := Executor.outcome?_of_result? ended
          obtain ⟨spent, outcome, nothing, relays⟩ :=
            spent.chronicle relays outcome further
          constructor
          · rw [List.flatMap_cons, List.flatMap_cons, nothing, List.append_nil]
            simpa using relays
          · intro before failing behind other split sound fails
            cases before with
            | nil =>
                cases split
                obtain rfl : error = other :=
                  Option.some.inj (failed.symm.trans fails)
                obtain ⟨ending, ended, _⟩ := spent.ended
                have final := Executor.outcome?_of_result? ended
                obtain rfl : result = ending :=
                  Option.some.inj (outcome.symm.trans final)
                exact ⟨spent, result, ended, same⟩
            | cons head before =>
                cases split
                have clean := sound record List.mem_cons_self
                rw [failed] at clean
                cases clean

/-- The executor of a session that is over has done what the plain execution
does. -/
theorem exists_execution {program : Program} {limits : Limits}
    (spent : session.IsOver)
    (relays : session.network.Relays (Machine.start program limits) pushed
      received)
    (ended : session.executor.result? = some result) :
    ∃ steps outcome, program.execute pushed limits steps = some outcome ∧
      RemoteError.ofEnd result = .ofEnd outcome ∧
      session.result? = some (outcome.map (·.report 0)) ∧
      ∀ failure, outcome = .error failure → failure.isFault = true := by
  have own := spent.own ended
  have outcome := Executor.outcome?_of_result? ended
  have concludes := relays.concludes outcome own
  obtain ⟨steps, final, ran, emitted⟩ := concludes.exists_run
  refine ⟨steps, _, by rw [Program.execute, ran]; rfl, ?_, ?_, ?_⟩
  · exact (RemoteError.ofEnd_map _ result).symm
  · rw [result?_eq_of_ended ended, ← Bench.report_eq]
    cases result with
    | ok =>
        simp only [Except.map, emitted]
        rfl
    | error => rfl
  · intro failure failed
    cases result with
    | ok => cases failed
    | error other =>
        cases failed
        apply relays.isFault rfl outcome
        rintro rfl
        exact own rfl

/-- A session replays the outputs of its machine.  Each list of operations is
one call of the client, and a call that has not returned has done some of its
operations.  However the executor goes on in between, the words that the client
gets in all calls are the first outputs of the machine on the words that it has
put, in order and without a gap.  The first call that fails tells how the
machine ended by itself, with a fault or by halting, and that is how it ends on
these words. -/
theorem chronicle_replays {program : Program} {limits : Limits}
    {leads : List (List Bool)}
    (went : chronicle budget calls (start program limits leads) =
      some (records, last)) :
    (∀ requests : List Request, calls = requests.map Request.operations →
      history budget requests (start program limits leads) =
        some (records.map Record.answer, last)) ∧
    (∃ steps,
      records.flatMap Record.received <+:
        (Machine.after steps (Machine.start program limits)
          { waiting := records.flatMap Record.pushed }).2.2.emitted.toList) ∧
    (∀ steps result machine tape,
      Machine.run Tape.surroundings steps (Machine.start program limits)
          { waiting := records.flatMap Record.pushed } =
        some (result, machine, tape) →
      records.flatMap Record.received <+: tape.emitted.toList) ∧
    ∀ before record later error, records = before ++ record :: later →
      (∀ earlier ∈ before, earlier.error? = none) →
      record.error? = some error →
      ∃ steps outcome,
        program.execute (records.flatMap Record.pushed) limits steps =
          some outcome ∧
        error = .ofEnd outcome ∧
        last.result? = some (outcome.map (·.report 0)) ∧
        ∀ failure, outcome = .error failure → failure.isFault = true := by
  have live := isLive_start program limits leads
  obtain ⟨relays, tells⟩ :=
    live.chronicle (relays_start program limits leads) went
  rw [List.nil_append, List.nil_append] at relays
  obtain ⟨taken, machine, walk, within⟩ := relays.exists_walk
  refine ⟨?_, ?_, ?_, ?_⟩
  · intro requests same
    rw [history_eq, ← same, went]
    rfl
  · obtain ⟨rest, split⟩ := within
    let tape : Tape := { waiting := records.flatMap Record.pushed }
    have waiting : tape.waiting = taken ++ rest := split.symm
    obtain ⟨steps, _, goes⟩ :=
      walk.after_eq waiting (Tape.admits_of_room rfl _)
    refine ⟨steps, ?_⟩
    rw [goes]
    simpa [tape] using relays.received_prefix
  · intro steps result final tape ran
    have concludes := Machine.concludes_of_run ran
    exact relays.received_prefix.trans
      (concludes.emitted_prefix_outputs walk within)
  · intro before record later error split sound failed
    obtain ⟨spent, result, ended, rfl⟩ :=
      tells before record later error split sound failed
    exact exists_execution spent relays ended

/-- A program that puts out its only input twice. -/
def twice : Program :=
  ⟨[3, 7, 4, 7, 4, 7, 99, 0]⟩

/-- The first call takes one of the two outputs, the second one finds the
machine halted, and the third one still gets the other output. -/
theorem chronicle_replays_twice :
    ∃ records last,
      history 20 [.send 9, .push 1, .receive]
          (start twice {} [[], [], List.replicate 12 false]) =
        some (records, last) ∧
      records = [.ok [9], .error .stopped, .ok [9]] ∧
      (∃ steps,
        [9, 9] <+: (Machine.after steps (Machine.start twice {})
          { waiting := [9] }).2.2.emitted.toList) ∧
      ∃ steps execution,
        twice.execute [9] {} steps = some (.ok execution) ∧
          last.result? = some (.ok (execution.report 0)) := by
  let requests : List Request := [.send 9, .push 1, .receive]
  have checks : (chronicle 20 (requests.map Request.operations)
      (start twice {} [[], [], List.replicate 12 false])).any
        (fun went => went.1 =
          [⟨[9], [9], none⟩, ⟨[], [], some .stopped⟩, ⟨[], [9], none⟩]) =
        true := by
    decide +kernel
  obtain ⟨⟨records, last⟩, went, checks⟩ := (Option.any_eq_true _ _).mp checks
  obtain rfl := of_decide_eq_true checks
  obtain ⟨answers, outputs, _, tells⟩ := chronicle_replays went
  obtain ⟨steps, outcome, ran, told, ended, _⟩ :=
    tells [_] _ [_] .stopped rfl (by decide) rfl
  refine ⟨_, last, answers requests rfl, rfl, outputs, ?_⟩
  cases outcome with
  | ok execution => exact ⟨steps, execution, ran, ended⟩
  | error failure => cases told

end Chronicle

end Session

end CellMachines
