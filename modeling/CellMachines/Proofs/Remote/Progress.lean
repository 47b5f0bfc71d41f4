import CellMachines.Proofs.Remote.Relays

/-!
# Sessions make progress

A machine whose run on the words that the client has put comes to an end of its
own keeps its executor from coming to rest before, and as every action lets the
executor grow older it ends after so many of them.  So a client that waits gets
all the outputs of that run, and a client that is late finds the executor gone.
An executor that is given no time between two puts does not stand in their way.
-/

namespace CellMachines

open Network

namespace Network

variable {network after : Network 1} {word : Word}

/-- The executor holds its end of the input link until it has ended. -/
def IsRead (network : Network 1) : Prop :=
  (network.link (inputLink sole)).receivers =
    if (network.executor sole).hasEnded then 0 else 1

theorem IsRead.advance (read : network.IsRead)
    (advances : network.Advances after) : after.IsRead := by
  obtain ⟨dealing, between, turn, deals, same⟩ := advances.exists_turn
  rw [same, IsRead, link_updateExecutor, executor_acted]
  rw [IsRead] at read
  by_cases closes : dealing = .closesInput
  · subst closes
    rw [turn.not_ended] at read
    generalize after.executor sole = next at turn
    cases deals
    cases turn
    rw [link_updateLink, if_pos rfl, Channel.receivers_dropReceiver, read]
    rfl
  · rw [deals.receivers_eq closes, turn.hasEnded_eq closes]
    exact read

theorem IsRead.push (read : network.IsRead) :
    (network.updateLink (inputLink sole) fun _ =>
      (network.link (inputLink sole)).push word).IsRead := by
  rw [IsRead, link_updateLink, if_pos rfl]
  exact read

end Network

namespace Session

variable {session next last : Session} {budget : Nat}
  {pushed received values : List Word} {leads : List (List Bool)}

/-! ## Puts -/

theorem exists_push {value : Word} (live : session.IsLive)
    (read : session.network.IsRead)
    (waiting : session.executor.hasEnded = false)
    (idle : session.leads = [] :: leads) :
    ∃ last, (push budget value).run session = some (.ok (), last) ∧
      last.network.IsRead ∧ last.executor = session.executor ∧
      last.leads = leads := by
  have lead : session.lead = { session with leads } := by
    rw [Session.lead, idle]
    rfl
  have live := live.lead
  rw [run_push, lead]
  rw [lead] at live
  rcases live.offer_cases value with ⟨put, _⟩ | ⟨_, ended⟩
  · obtain ⟨_, same⟩ := offer_of_accepted put
    rw [if_pos put, same]
    exact ⟨_, rfl, read.push, rfl, rfl⟩
  · exact absurd (waiting.symm.trans ended) Bool.false_ne_true

/-- As long as the executor is given no time, every put comes about. -/
theorem exists_pushes (live : session.IsLive) (read : session.network.IsRead)
    (waiting : session.executor.hasEnded = false)
    (idle : session.leads = List.replicate values.length [] ++ leads) :
    ∃ record last,
      perform budget (values.map .push) session = some (record, last) ∧
      record.error? = none ∧ last.network.IsRead ∧ last.leads = leads := by
  induction values generalizing session with
  | nil => exact ⟨.empty, session, rfl, rfl, read, idle⟩
  | cons value later induction =>
      obtain ⟨between, ran, read, same, idle⟩ :=
        exists_push live read waiting idle
      have live := (keeps_push budget value).live live ran
      rw [← same] at waiting
      obtain ⟨record, last, performed, sound, read, idle⟩ :=
        induction live read waiting idle
      refine ⟨record.after (.push value) [], last, ?_, sound, read, idle⟩
      rw [List.map_cons, perform, run_call_push, ran]
      simp only [Option.map_some, Option.bind_some, Except.map, performed]

/-! ## The end of the machine -/

theorem age_lt_of_advance {heed : Bool}
    (advanced : session.advance heed = some next) :
    session.executor.age < next.executor.age := by
  obtain ⟨network, acts, rfl⟩ := Option.map_eq_some_iff.mp advanced
  obtain ⟨_, _, turn, _⟩ := Advances.exists_turn ⟨heed, acts⟩
  exact turn.age_lt

/-- The machine of a live session comes to an end of its own within so many
instructions on the words that the client has put. -/
structure Finishes (program : Program) (limits : Limits)
    (pushed received : List Word) (steps : Nat) (outputs : List Word)
    (session : Session) : Prop where
  live : session.IsLive
  relays :
    session.network.Relays (Machine.start program limits) pushed received
  ran : ∃ result machine tape,
    Machine.run Tape.surroundings steps (Machine.start program limits)
        { waiting := pushed } = some (result, machine, tape) ∧
      result ≠ .error .inputExhausted ∧ tape.emitted.toList = outputs

namespace Finishes

variable {program : Program} {limits : Limits} {steps : Nat} {heed : Bool}
  {outputs : List Word} {result : Except Failure Unit}
  (finishes : session.Finishes program limits pushed received steps outputs)
include finishes

theorem after (goes : Leads session next) :
    next.Finishes program limits pushed received steps outputs :=
  ⟨finishes.live.leads goes, goes.relays finishes.relays, finishes.ran⟩

theorem exists_concludes : ∃ result machine,
    (Machine.start program limits).Concludes pushed result machine outputs ∧
      result ≠ .error .inputExhausted := by
  obtain ⟨result, machine, tape, ran, own, rfl⟩ := finishes.ran
  exact ⟨result, machine, Machine.concludes_of_run ran, own⟩

/-- The executor does not wait for a word that it is never given. -/
theorem hasEnded_of_advance (stopped : session.advance heed = none) :
    session.executor.hasEnded = true := by
  cases idle_of_advance (Option.map_eq_none_iff.mp stopped) with
  | ended ended => exact ended
  | hungry _ atWork empty _ asks =>
      exfalso
      obtain ⟨ledger, rfl, _, tallies⟩ := finishes.relays.tallies
      obtain ⟨result, machine, concludes, own⟩ := finishes.exists_concludes
      have walk := tallies.explained.underway atWork
      have given :=
        tallies.taken_append (Executor.hasEnded_of_outcome? atWork)
      rw [empty, List.append_nil] at given
      rw [given] at walk
      exact own (concludes.unique (.starves walk asks)).1
  | stuffed _ _ _ _ cancellable =>
      rw [finishes.live.serving.chain, finishes.relays.unbounded] at cancellable
      cases cancellable

theorem emitted_eq (outcome : session.executor.outcome? = some result) :
    session.executor.emitted.toList = outputs := by
  obtain ⟨_, _, concludes, _⟩ := finishes.exists_concludes
  have own := finishes.live.own outcome
  exact ((finishes.relays.concludes outcome own).unique concludes).2.2

theorem age_le : session.executor.age ≤ 2 * steps + 5 := by
  obtain ⟨ledger, rfl, _, tallies⟩ := finishes.relays.tallies
  obtain ⟨_, _, _, ran, _⟩ := finishes.ran
  have counted : session.executor.machine.steps ≤ steps :=
    tallies.steps_le (List.prefix_refl _) (Tape.admits_of_room rfl _) ran
  have aged := session.executor.age_le
  omega

/-- A client that waits for something that comes about with the end of the
executor at the latest does not wait forever. -/
theorem exists_await {condition : Session → Bool}
    (met : ∀ next, Leads session next → next.executor.hasEnded = true →
      condition next = true)
    (patient : 2 * steps + 5 < session.executor.age + budget) :
    ∃ next, session.await condition budget = some next := by
  induction budget generalizing session with
  | zero =>
      have young := finishes.age_le
      omega
  | succ budget induction =>
      unfold await
      split
      · exact ⟨session, rfl⟩
      · rename_i unmet
        cases advanced : session.advance false with
        | none =>
            have ended := finishes.hasEnded_of_advance advanced
            exact absurd (met session (.refl session) ended) unmet
        | some next =>
            have goes := Leads.of_advance advanced
            apply induction (finishes.after goes)
            · intro last later
              exact met last (goes.trans later)
            · have older := age_lt_of_advance advanced
              omega

/-- An executor that is given enough time between two actions of the client ends
meanwhile. -/
theorem hasEnded_of_choices {count : Nat}
    (enough : session.executor.hasEnded = true ∨
      2 * steps + 5 < session.executor.age + count) :
    ((List.replicate count false).foldl
      (fun session heed => (session.advance heed).getD session)
      session).executor.hasEnded = true := by
  induction count generalizing session with
  | zero =>
      have young := finishes.age_le
      exact enough.resolve_right (by omega)
  | succ count induction =>
      rw [List.replicate_succ, List.foldl_cons]
      cases advanced : session.advance false with
      | none =>
          have ended := finishes.hasEnded_of_advance advanced
          exact induction finishes (.inl ended)
      | some next =>
          apply induction (finishes.after (.of_advance advanced))
          right
          have older := age_lt_of_advance advanced
          obtain ⟨network, acts, rfl⟩ := Option.map_eq_some_iff.mp advanced
          have going : session.executor.hasEnded = false :=
            Advances.not_ended ⟨false, acts⟩
          rw [going] at enough
          have young := enough.resolve_left Bool.false_ne_true
          omega

/-! ## Takes -/

/-- What the client has yet to get from an executor on its way out lies in the
output link. -/
theorem contents_ne_nil (short : received.length < outputs.length)
    (outcome : session.executor.outcome? = some result) :
    (session.network.link outputLink).contents ≠ [] := by
  intro empty
  rw [finishes.relays.received_eq empty] at short
  rw [← finishes.emitted_eq outcome] at short
  exact Nat.lt_irrefl _ short

theorem isSome_poll (short : received.length < outputs.length)
    (ended : session.executor.hasEnded = true) :
    session.poll.isSome = true := by
  obtain ⟨result, outcome⟩ := Executor.outcome?_of_not_holdsOutput
    (Executor.holdsOutput_of_hasEnded ended)
  unfold Session.poll
  cases polled : (session.network.link outputLink).poll with
  | done => rfl
  | waits =>
      have empty := (Channel.poll_waits polled).1
      exact absurd empty (finishes.contents_ne_nil short outcome)

/-- A take comes about as long as there are outputs left. -/
theorem exists_receive (short : received.length < outputs.length)
    (patient : 2 * steps + 6 ≤ budget) :
    ∃ value last, (receive budget).run session = some (.ok value, last) := by
  have started := finishes.after (.of_lead session)
  have enough : 2 * steps + 5 < session.lead.executor.age + budget := by omega
  obtain ⟨next, awaited⟩ := started.exists_await
    (fun next goes => (started.after goes).isSome_poll short) enough
  obtain ⟨goes, ready⟩ := Leads.of_await awaited
  have waited := started.after goes
  obtain ⟨⟨answer, last⟩, polled⟩ := Option.isSome_iff_exists.mp ready
  rw [run_receive, awaited, Option.bind_some, polled]
  rcases waited.live.poll_cases polled with ⟨⟨value, rfl⟩, _⟩ | ⟨⟨_, rfl⟩, gone⟩
  · exact ⟨value, last, rfl⟩
  · obtain ⟨result, outcome⟩ := Executor.outcome?_of_not_holdsOutput gone
    exact absurd (poll_of_error polled) (waited.contents_ne_nil short outcome)

theorem exists_receives {count : Nat}
    (enough : received.length + count ≤ outputs.length)
    (patient : 2 * steps + 6 ≤ budget) :
    ∃ record last,
      perform budget (List.replicate count .receive) session =
        some (record, last) ∧
      record.error? = none := by
  induction count generalizing session received with
  | zero => exact ⟨.empty, session, rfl, rfl⟩
  | succ count induction =>
      have short : received.length < outputs.length := by omega
      obtain ⟨value, between, ran⟩ := finishes.exists_receive short patient
      have called : (Operation.receive.call budget).run session =
          some (.ok [value], between) := by
        rw [run_call_receive, ran]
        rfl
      obtain ⟨live, relays⟩ := finishes.live.call_ok finishes.relays called
      have further : (received ++ [value]).length + count ≤ outputs.length := by
        rw [List.length_append, List.length_singleton]
        omega
      rw [Operation.given, List.append_nil] at relays
      obtain ⟨record, last, performed, sound⟩ :=
        induction ⟨live, relays, finishes.ran⟩ further
      refine ⟨record.after .receive [value], last, ?_, sound⟩
      rw [List.replicate_succ, perform, called]
      simp only [Option.bind_some, performed, Option.map_some]

/-! ## Late puts -/

/-- A put fails when the executor was given enough time to end before it. -/
theorem exists_push_error {count : Nat} {value : Word}
    (read : session.network.IsRead)
    (late : session.leads = List.replicate count false :: leads)
    (enough : 2 * steps + 5 < count) (patient : 4 ≤ budget) :
    ∃ error last,
      (push budget value).run session = some (.error error, last) := by
  have started := finishes.after (.of_lead session)
  have ended : session.lead.executor.hasEnded = true := by
    rw [Session.lead, late]
    have same : ({ session with leads } : Session).Finishes program limits
        pushed received steps outputs :=
      ⟨⟨finishes.live.inputOpen, finishes.live.attached,
        finishes.live.serving⟩, finishes.relays, finishes.ran⟩
    apply same.hasEnded_of_choices
    right
    omega
  have unread : (session.lead.network.link inputLink).receivers = 0 := by
    have read : session.lead.network.IsRead :=
      (Leads.of_lead session).keeps IsRead
        (fun _ _ read advances => read.advance advances) read
    rw [IsRead] at read
    rw [Session.executor] at ended
    rwa [ended, if_pos rfl] at read
  have refused : session.lead.offer value = (false, session.lead) := by
    rw [offer, if_pos started.live.inputOpen, Channel.offer, if_pos unread]
  obtain ⟨last, closed⟩ :=
    exists_run_close started.live.attached patient
  rw [run_push, refused, if_neg Bool.false_ne_true, run_stop, closed]
  exact ⟨_, last, rfl⟩

end Finishes

end Session

end CellMachines
