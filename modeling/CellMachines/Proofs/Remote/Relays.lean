import CellMachines.Proofs.Executor.Agreement
import CellMachines.Proofs.Remote.Ending
import CellMachines.Proofs.Remote.Transcript

/-!
# Sessions relay the words of their machine

Whatever a client puts and takes and however the executor goes on in between,
the words it gets are the outputs of its machine on the words it has put, in
order and without a gap (`Relays`).  A call that fails tells how that machine
has ended by itself: the executor is past its last instruction by then, and
neither closing the session nor cancelling what has already ended changes how.
-/

namespace CellMachines

open Network

variable {first : Machine} {pushed received : List Word}
  {network after : Network 1} {word : Word} {result : Except Failure Unit}

namespace Network

/-- The words that a client has put on the input link and got from the output
link, which it holds, account for what the executor has done. -/
structure Relays (first : Machine) (pushed received : List Word)
    (network : Network 1) : Prop where
  tallies : ∃ ledger : Ledger, ledger.given = pushed ∧ ledger.got = received ∧
    network.Tallies first ledger
  attended : (network.link (outputLink .chain sole)).receivers ≠ 0
  unbounded : (network.link (outputLink .chain sole)).policy = .unbounded

namespace Relays

theorem advance (relays : network.Relays first pushed received)
    (advances : network.Advances after) :
    after.Relays first pushed received := by
  obtain ⟨ledger, given, got, tallies⟩ := relays.tallies
  obtain ⟨dealing, between, turn, deals, same⟩ := advances.exists_turn
  obtain ⟨heed, advances⟩ := advances
  have tallies := tallies.advance advances
  rw [same] at tallies ⊢
  constructor
  · exact ⟨ledger.after _, given, got, tallies⟩
  · have kept : (between.link (outputLink .chain sole)).receivers =
        (network.link (outputLink .chain sole)).receivers :=
      deals.receivers_last
    rw [link_updateExecutor, kept]
    exact relays.attended
  · rw [link_updateExecutor, deals.policy_eq]
    exact relays.unbounded

theorem give (relays : network.Relays first pushed received)
    (supplied : (network.link (inputLink sole)).senders ≠ 0)
    (room : (network.link (inputLink sole)).policy.hasRoom
      (network.link (inputLink sole)).length = true) :
    (network.updateLink (inputLink sole) fun _ =>
      (network.link (inputLink sole)).push word).Relays first
        (pushed ++ [word]) received := by
  have elsewhere : outputLink .chain sole ≠ inputLink sole := by decide
  obtain ⟨ledger, rfl, got, tallies⟩ := relays.tallies
  constructor
  · exact ⟨ledger.give word, rfl, got, tallies.give supplied room⟩
  · simpa [elsewhere] using relays.attended
  · simpa [elsewhere] using relays.unbounded

theorem get {rest : Queue Word} (relays : network.Relays first pushed received)
    (popped : (network.link (outputLink .chain sole)).buffer.pop? =
      some (word, rest)) :
    (network.updateLink (outputLink .chain sole) fun _ =>
      { network.link (outputLink .chain sole) with
        buffer := rest }).Relays first pushed (received ++ [word]) := by
  obtain ⟨ledger, given, rfl, tallies⟩ := relays.tallies
  constructor
  · exact ⟨ledger.get word, given, rfl, tallies.get relays.attended popped⟩
  · simpa using relays.attended
  · simpa using relays.unbounded

theorem closeInput (relays : network.Relays first pushed received) :
    (network.updateLink (inputLink sole) Channel.dropSender).Relays first
      pushed received := by
  have elsewhere : outputLink .chain sole ≠ inputLink sole := by decide
  obtain ⟨ledger, given, got, tallies⟩ := relays.tallies
  constructor
  · exact ⟨_, given, got, tallies.closeInput⟩
  · simpa [elsewhere] using relays.attended
  · simpa [elsewhere] using relays.unbounded

/-- To trip the token makes no difference to an executor on its way out. -/
theorem trip (relays : network.Relays first pushed received)
    (leaving : (network.executor sole).outcome? ≠ none) :
    network.trip.Relays first pushed received := by
  obtain ⟨ledger, given, got, tallies⟩ := relays.tallies
  refine ⟨⟨ledger, given, got, ?_⟩, relays.attended, relays.unbounded⟩
  exact tallies.trip leaving

theorem received_prefix (relays : network.Relays first pushed received) :
    received <+: (network.executor sole).emitted.toList := by
  obtain ⟨ledger, _, rfl, tallies⟩ := relays.tallies
  exact tallies.got_prefix.trans tallies.sent_prefix

theorem received_eq (relays : network.Relays first pushed received)
    (empty : (network.link (outputLink .chain sole)).contents = []) :
    received = (network.executor sole).emitted.toList := by
  obtain ⟨ledger, _, rfl, tallies⟩ := relays.tallies
  have all := tallies.got_append relays.attended
  rwa [empty, List.append_nil, tallies.sent_eq relays.attended] at all

/-- An executor that has not been interrupted has come to the end of its
machine. -/
theorem exists_stops (relays : network.Relays first pushed received)
    (outcome : (network.executor sole).outcome? = some result)
    (own : result ≠ .error .interrupted) :
    ∃ before ins machine,
      first.Walk before (network.executor sole).emitted.toList machine ∧
      machine.Stops ins result (network.executor sole).machine ∧
      before ++ ins <+: pushed := by
  obtain ⟨ledger, rfl, _, tallies⟩ := relays.tallies
  cases tallies.cause result outcome with
  | @stopped before ins machine _ walk stops split =>
      refine ⟨before, ins, machine, walk, stops, ?_⟩
      rw [split]
      exact tallies.taken_prefix
  | starved => exact absurd rfl own
  | overflowed _ _ _ bounded =>
      rw [relays.unbounded] at bounded
      cases bounded

theorem concludes (relays : network.Relays first pushed received)
    (outcome : (network.executor sole).outcome? = some result)
    (own : result ≠ .error .interrupted) :
    first.Concludes pushed result (network.executor sole).machine
      (network.executor sole).emitted.toList := by
  obtain ⟨_, _, _, walk, stops, within⟩ := relays.exists_stops outcome own
  exact .stops walk stops within

theorem isFault {failure : Failure}
    (relays : network.Relays first pushed received)
    (fresh : first.status.isTerminal = false)
    (outcome : (network.executor sole).outcome? = some (.error failure))
    (own : failure ≠ .interrupted) : failure.isFault = true := by
  obtain ⟨_, _, _, walk, stops, _⟩ := relays.exists_stops outcome (by simpa)
  exact stops.isFault (walk.isTerminal fresh)

theorem exists_walk (relays : network.Relays first pushed received) :
    ∃ taken machine,
      first.Walk taken (network.executor sole).emitted.toList machine ∧
        taken <+: pushed := by
  obtain ⟨ledger, rfl, _, tallies⟩ := relays.tallies
  cases outcome : (network.executor sole).outcome? with
  | none =>
      exact ⟨_, _, tallies.explained.underway outcome, tallies.taken_prefix⟩
  | some result =>
      cases tallies.cause result outcome with
      | @stopped before ins _ _ walk _ split =>
          have within : before <+: ledger.taken := ⟨ins, split⟩
          exact ⟨_, _, walk, within.trans tallies.taken_prefix⟩
      | starved walk => exact ⟨_, _, walk, List.prefix_refl _⟩
      | overflowed walk => exact ⟨_, _, walk, tallies.taken_prefix⟩

end Relays

end Network

/-- What the first call that fails says of the end of a machine. -/
def RemoteError.ofEnd {α : Type} : Except Failure α → RemoteError
  | .ok _ => .stopped
  | .error failure => .machine failure

theorem RemoteError.ofEnd_map {α β : Type} (change : α → β)
    (result : Except Failure α) :
    RemoteError.ofEnd (result.map change) = .ofEnd result := by
  cases result <;> rfl

namespace Session

variable {session next last : Session} {budget : Nat}

/-! ## Sessions -/

theorem relays_start (program : Program) (limits : Limits)
    (leads : List (List Bool)) :
    (start program limits leads).network.Relays (Machine.start program limits)
      [] [] where
  tallies := by
    refine ⟨.empty, rfl, rfl, ?_⟩
    refine tallies_start rfl rfl ?_ Nat.one_ne_zero rfl
    intro link
    match link with
    | 0 | 1 => rfl
  attended := Nat.one_ne_zero
  unbounded := rfl

theorem Leads.relays (leads : Leads session next)
    (relays : session.network.Relays first pushed received) :
    next.network.Relays first pushed received :=
  leads.keeps (·.Relays first pushed received)
    (fun _ _ relays advances => relays.advance advances) relays

theorem relays_dropInput
    (relays : session.network.Relays first pushed received) :
    session.dropInput.network.Relays first pushed received := by
  unfold dropInput
  split
  · exact relays.closeInput
  · exact relays

theorem relays_cancelUnlessEnded
    (relays : session.network.Relays first pushed received)
    (leaving : session.executor.outcome? ≠ none) :
    session.cancelUnlessEnded.network.Relays first pushed received := by
  unfold cancelUnlessEnded
  split
  · exact relays
  · exact relays.trip leaving

/-- Closing a session whose executor is on its way out changes neither what the
client has got nor how the executor ends. -/
theorem relays_close {answer : Except RemoteError (Option _)}
    (relays : session.network.Relays first pushed received)
    (outcome : session.executor.outcome? = some result)
    (ran : (close budget).run session = some (answer, last)) :
    last.network.Relays first pushed received := by
  have dropped := relays_dropInput ((Leads.of_lead session).relays relays)
  cases attached : session.attached with
  | false =>
      rw [run_close_of_joined attached] at ran
      cases ran
      exact dropped
  | true =>
      rw [run_close attached] at ran
      obtain ⟨waited, awaited, same⟩ := Option.map_eq_some_iff.mp ran
      cases same
      apply (Leads.of_await awaited).1.relays
      apply (Leads.of_lead _).relays
      apply relays_cancelUnlessEnded
      · exact (Leads.of_lead _).relays dropped
      · have stays : session.lead.dropInput.lead.executor.outcome? =
            some result := by
          apply (Leads.of_lead _).outcome
          rw [executor_dropInput]
          exact (Leads.of_lead session).outcome outcome
        rw [stays]
        exact nofun

theorem relays_stop {α : Type} {answer : Except RemoteError α}
    (relays : session.network.Relays first pushed received)
    (outcome : session.executor.outcome? = some result)
    (ran : (stop budget : Call α).run session = some (answer, last)) :
    last.network.Relays first pushed received := by
  rw [run_stop] at ran
  obtain ⟨⟨closing, joined⟩, closes, same⟩ := Option.map_eq_some_iff.mp ran
  have relays := relays_close relays outcome closes
  cases closing <;> cases same <;> exact relays

theorem run_stop_ne_ok {α : Type} {value : α} :
    (stop budget : Call α).run session ≠ some (.ok value, last) := by
  intro ran
  rw [run_stop] at ran
  obtain ⟨⟨closing, _⟩, _, same⟩ := Option.map_eq_some_iff.mp ran
  cases closing <;> cases same

/-! ## Operations -/

theorem offer_of_accepted {value : Word}
    (accepted : (session.offer value).1 = true) :
    (session.network.link inputLink).policy.hasRoom
        (session.network.link inputLink).length = true ∧
      (session.offer value).2 = { session with
        network := session.network.updateLink inputLink fun _ =>
          (session.network.link inputLink).push value } := by
  unfold offer at accepted ⊢
  split at accepted
  · rename_i isOpen
    rw [if_pos isOpen]
    split at accepted
    · rename_i offered
      obtain ⟨_, room, rfl⟩ := Channel.offer_ok offered
      exact ⟨room, rfl⟩
    · cases accepted
  · cases accepted

theorem poll_of_ok {value : Word}
    (polled : session.poll = some (.ok value, next)) :
    ∃ rest,
      (session.network.link outputLink).buffer.pop? = some (value, rest) ∧
      next = { session with
        network := session.network.updateLink outputLink fun _ =>
          { session.network.link outputLink with buffer := rest } } := by
  unfold poll at polled
  split at polled
  · cases polled
    obtain ⟨rest, popped, rfl⟩ := Channel.poll_ok ‹_›
    exact ⟨rest, popped, rfl⟩
  · cases polled

theorem poll_of_error {error : ChannelError}
    (polled : session.poll = some (.error error, next)) :
    (session.network.link outputLink).contents = [] := by
  unfold poll at polled
  split at polled
  · cases polled
    obtain ⟨_, _, empty, _⟩ := Channel.poll_error ‹_›
    exact empty
  · cases polled

theorem relays_push {value : Word} (live : session.IsLive)
    (relays : session.network.Relays first pushed received)
    (ran : (push budget value).run session = some (.ok (), last)) :
    last.network.Relays first (pushed ++ [value]) received := by
  rw [run_push] at ran
  split at ran
  · rename_i accepted
    cases ran
    obtain ⟨room, same⟩ := offer_of_accepted accepted
    rw [same]
    have relays := (Leads.of_lead session).relays relays
    exact relays.give live.lead.serving.supplied room
  · exact absurd ran run_stop_ne_ok

theorem relays_receive {value : Word}
    (relays : session.network.Relays first pushed received)
    (ran : (receive budget).run session = some (.ok value, last)) :
    last.network.Relays first pushed (received ++ [value]) := by
  rw [run_receive] at ran
  obtain ⟨next, awaited, ran⟩ := Option.bind_eq_some_iff.mp ran
  have leads := (Leads.of_lead session).trans (Leads.of_await awaited).1
  split at ran
  · rename_i polled
    cases ran
    obtain ⟨rest, popped, rfl⟩ := poll_of_ok polled
    exact (leads.relays relays).get popped
  · exact absurd ran run_stop_ne_ok

theorem executor_offer (session : Session) (value : Word) :
    (session.offer value).2.executor = session.executor := by
  unfold offer
  split
  · split <;> rfl
  · rfl

theorem outcome_stop {α : Type} {answer : Except RemoteError α}
    (outcome : session.executor.outcome? = some result)
    (ran : (stop budget : Call α).run session = some (answer, last)) :
    last.executor.outcome? = some result := by
  rw [run_stop] at ran
  obtain ⟨⟨closing, joined⟩, closes, same⟩ := Option.map_eq_some_iff.mp ran
  have stays : joined.executor.outcome? = some result := by
    cases attached : session.attached with
    | true =>
        obtain ⟨_, closed⟩ := closed_of_run attached closes
        obtain ⟨ending, ended, unchanged⟩ := closed.ended
        rw [unchanged result outcome]
        exact Executor.outcome?_of_result? ended
    | false =>
        rw [run_close_of_joined attached] at closes
        cases closes
        rw [executor_dropInput]
        exact (Leads.of_lead session).outcome outcome
  cases closing <;> cases same <;> exact stays

/-- No call changes how the executor ends once that is on its way out. -/
theorem outcome_call {operation : Operation}
    {answer : Except RemoteError (List Word)}
    (outcome : session.executor.outcome? = some result)
    (ran : (operation.call budget).run session = some (answer, last)) :
    last.executor.outcome? = some result := by
  have before := (Leads.of_lead session).outcome outcome
  cases operation with
  | push value =>
      rw [run_call_push, run_push] at ran
      obtain ⟨⟨pushing, _⟩, ran, same⟩ := Option.map_eq_some_iff.mp ran
      cases same
      rw [← executor_offer] at before
      split at ran
      · simp only [Option.some.injEq, Prod.mk.injEq] at ran
        rw [← ran.2]
        exact before
      · exact outcome_stop before ran
  | receive =>
      rw [run_call_receive, run_receive] at ran
      obtain ⟨⟨receiving, _⟩, ran, same⟩ := Option.map_eq_some_iff.mp ran
      cases same
      obtain ⟨next, awaited, ran⟩ := Option.bind_eq_some_iff.mp ran
      have before := (Leads.of_await awaited).1.outcome before
      split at ran
      · rename_i polled
        cases ran
        obtain ⟨_, _, rfl⟩ := poll_of_ok polled
        exact before
      · exact outcome_stop before ran

/-- The call that finds the executor on its way out says how it ends. -/
theorem stop_of_leaving {α : Type} {answer : Except RemoteError α}
    (attached : session.attached = true)
    (outcome : session.executor.outcome? = some result)
    (own : result ≠ .error .interrupted)
    (ran : (stop budget : Call α).run session = some (answer, last)) :
    answer = .error (.ofEnd result) ∧ last.executor.result? = some result := by
  rw [run_stop] at ran
  obtain ⟨⟨closing, joined⟩, closes, same⟩ := Option.map_eq_some_iff.mp ran
  obtain ⟨rfl, closed⟩ := closed_of_run attached closes
  cases same
  obtain ⟨ending, ended, unchanged⟩ := closed.ended
  obtain rfl := unchanged result outcome
  refine ⟨?_, ended⟩
  rw [result?_eq_of_ended ended]
  cases result with
  | ok => rfl
  | error failure =>
      cases failure <;> first | rfl | exact absurd rfl own

theorem IsLive.call_ok {operation : Operation} {values : List Word}
    (live : session.IsLive)
    (relays : session.network.Relays first pushed received)
    (ran : (operation.call budget).run session = some (.ok values, last)) :
    last.IsLive ∧
      last.network.Relays first (pushed ++ operation.given)
        (received ++ values) := by
  cases operation with
  | push value =>
      obtain ⟨rfl, puts⟩ := call_push_ok ran
      refine ⟨(keeps_push budget value).live live puts, ?_⟩
      simpa [Operation.given] using relays_push live relays puts
  | receive =>
      obtain ⟨value, rfl, takes⟩ := call_receive_ok ran
      refine ⟨(keeps_receive budget).live live takes, ?_⟩
      simpa [Operation.given] using relays_receive relays takes

/-- A live session whose executor lets go of its output link has come to the end
of its machine. -/
theorem stop_of_live {α : Type} {answer : Except RemoteError α}
    (live : session.IsLive)
    (relays : session.network.Relays first pushed received)
    (gone : session.executor.holdsOutput = false)
    (ran : (stop budget : Call α).run session = some (answer, last)) :
    last.network.Relays first pushed received ∧
      (∃ result, last.executor.result? = some result ∧
        answer = .error (.ofEnd result)) ∧
      last.executor.emitted.toList = session.executor.emitted.toList := by
  obtain ⟨result, outcome⟩ := Executor.outcome?_of_not_holdsOutput gone
  have own := live.own outcome
  obtain ⟨failed, ended⟩ := stop_of_leaving live.attached outcome own ran
  have after := relays_stop relays outcome ran
  have before := relays.concludes outcome own
  have concludes := after.concludes (Executor.outcome?_of_result? ended) own
  exact ⟨after, ⟨result, ended, failed⟩, (concludes.unique before).2.2⟩

/-- A call that fails says how the machine has ended by itself, and a take fails
only when everything that came out is taken. -/
theorem IsLive.call_error {operation : Operation} {error : RemoteError}
    (live : session.IsLive)
    (relays : session.network.Relays first pushed received)
    (ran : (operation.call budget).run session = some (.error error, last)) :
    last.IsOver ∧ last.network.Relays first pushed received ∧
      (∃ result, last.executor.result? = some result ∧
        error = .ofEnd result) ∧
      (operation = .receive →
        received = last.executor.emitted.toList) := by
  cases operation with
  | push value =>
      have ran := call_push_error.mp ran
      refine ⟨(keeps_push budget value).live live ran, ?_⟩
      rw [run_push] at ran
      rcases live.lead.offer_cases value with ⟨put, _⟩ | ⟨refused, ended⟩
      · rw [if_pos put] at ran
        cases ran
      · rw [refused, if_neg Bool.false_ne_true] at ran
        have gone := Executor.holdsOutput_of_hasEnded ended
        have relays := (Leads.of_lead session).relays relays
        obtain ⟨after, ⟨result, ended, failed⟩, _⟩ :=
          stop_of_live live.lead relays gone ran
        cases failed
        exact ⟨after, ⟨result, ended, rfl⟩, nofun⟩
  | receive =>
      have ran := call_receive_error.mp ran
      refine ⟨(keeps_receive budget).live live ran, ?_⟩
      rw [run_receive] at ran
      obtain ⟨next, awaited, ran⟩ := Option.bind_eq_some_iff.mp ran
      obtain ⟨leads, ready⟩ := Leads.of_await awaited
      have leads := (Leads.of_lead session).trans leads
      have live := live.leads leads
      have relays := leads.relays relays
      obtain ⟨⟨result, final⟩, polled⟩ := Option.isSome_iff_exists.mp ready
      rw [polled] at ran
      rcases live.poll_cases polled with
        ⟨⟨value, rfl⟩, _⟩ | ⟨⟨error, rfl⟩, gone⟩
      · cases ran
      · obtain ⟨after, ⟨result, ended, failed⟩, emitted⟩ :=
          stop_of_live live relays gone ran
        cases failed
        refine ⟨after, ⟨result, ended, rfl⟩, ?_⟩
        intro _
        rw [emitted]
        exact relays.received_eq (poll_of_error polled)

/-- Nothing is put in a session that is over, but what has come out can still be
taken. -/
theorem IsOver.call {operation : Operation}
    {answer : Except RemoteError (List Word)} (spent : session.IsOver)
    (relays : session.network.Relays first pushed received)
    (ran : (operation.call budget).run session = some (answer, last)) :
    last.IsOver ∧
      match answer with
      | .ok values => operation.given = [] ∧
          last.network.Relays first pushed (received ++ values)
      | .error _ => last.network.Relays first pushed received := by
  obtain ⟨result, ended, _⟩ := spent.ended
  have outcome := Executor.outcome?_of_result? ended
  cases operation with
  | push value =>
      rw [run_call_push] at ran
      obtain ⟨⟨pushing, _⟩, ran, same⟩ := Option.map_eq_some_iff.mp ran
      have stays := (keeps_push budget value).spent spent ran
      have refused : (session.lead.offer value) = (false, session.lead) := by
        have closed := (spent.leads (Leads.of_lead session)).inputOpen
        rw [offer, closed, if_neg Bool.false_ne_true]
      rw [run_push, refused, if_neg Bool.false_ne_true] at ran
      have stopped := relays_stop ((Leads.of_lead session).relays relays)
        ((Leads.of_lead session).outcome outcome) ran
      cases pushing with
      | ok => exact absurd ran run_stop_ne_ok
      | error =>
          cases same
          exact ⟨stays, stopped⟩
  | receive =>
      rw [run_call_receive] at ran
      obtain ⟨⟨receiving, _⟩, ran, same⟩ := Option.map_eq_some_iff.mp ran
      have stays := (keeps_receive budget).spent spent ran
      cases receiving with
      | ok value =>
          cases same
          exact ⟨stays, rfl, relays_receive relays ran⟩
      | error error =>
          cases same
          rw [run_receive] at ran
          obtain ⟨next, awaited, ran⟩ := Option.bind_eq_some_iff.mp ran
          have leads := (Leads.of_lead session).trans (Leads.of_await awaited).1
          split at ran
          · cases ran
          · exact ⟨stays,
              relays_stop (leads.relays relays) (leads.outcome outcome) ran⟩

end Session

end CellMachines
