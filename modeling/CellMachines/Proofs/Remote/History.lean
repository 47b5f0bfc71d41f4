import CellMachines.Proofs.Remote.Calls

/-!
# Histories of a session

A session is live until a call fails.  The executor is on its way out by then
and does not turn back; the call joins it, and the session is over.  `Keeps`
says that a call leaves a live session live unless it fails, and that it leaves
the session over if it does or if the session was over before.  It holds of a
put and of a take, and of everything put together from calls of which it holds,
so it holds of every request of a client and of every history of requests.
-/

namespace CellMachines

namespace Session

variable {α β : Type} {session next last : Session} {budget : Nat}

/-! ## Live sessions and sessions that are over -/

/-- No call has failed, and nothing but its own machine makes the executor end
before the client closes the session. -/
structure IsLive (session : Session) : Prop where
  inputOpen : session.inputOpen = true
  attached : session.attached = true
  serving : session.network.Serving

/-- The executor has been joined after it had ended by itself. -/
structure IsOver (session : Session) : Prop where
  inputOpen : session.inputOpen = false
  attached : session.attached = false
  ended : ∃ result, session.executor.result? = some result ∧
    result ≠ .error .interrupted

theorem IsLive.leads (live : session.IsLive) (leads : Leads session next) :
    next.IsLive :=
  ⟨leads.inputOpen.trans live.inputOpen, leads.attached.trans live.attached,
    leads.serving live.serving⟩

theorem IsLive.lead (live : session.IsLive) : session.lead.IsLive :=
  live.leads (Leads.of_lead session)

theorem IsLive.own {result : Except Failure Unit} (live : session.IsLive)
    (outcome : session.executor.outcome? = some result) :
    result ≠ .error .interrupted := by
  rintro rfl
  exact live.serving.alone outcome

theorem IsOver.own {result : Except Failure Unit} (spent : session.IsOver)
    (ended : session.executor.result? = some result) :
    result ≠ .error .interrupted := by
  obtain ⟨ending, same, own⟩ := spent.ended
  rwa [Option.some.inj (ended.symm.trans same)]

theorem IsOver.leads (spent : session.IsOver) (leads : Leads session next) :
    next.IsOver := by
  obtain ⟨result, ended, own⟩ := spent.ended
  have same := leads.network_eq (Option.isSome_of_eq_some ended)
  refine ⟨leads.inputOpen.trans spent.inputOpen,
    leads.attached.trans spent.attached, result, ?_, own⟩
  rw [executor, same]
  exact ended

theorem IsOver.lead_dropInput (spent : session.IsOver) :
    session.lead.dropInput.IsOver := by
  have spent := spent.leads (Leads.of_lead session)
  exact ⟨inputOpen_dropInput _, (attached_dropInput _).trans spent.attached,
    by rw [executor_dropInput]; exact spent.ended⟩

/-- A call that finds the executor on its way out fails and leaves the session
over. -/
theorem isOver_of_stop {answer : Except RemoteError α}
    {result : Except Failure Unit} (attached : session.attached = true)
    (outcome : session.executor.outcome? = some result)
    (own : result ≠ .error .interrupted)
    (ran : (stop budget : Call α).run session = some (answer, last)) :
    (∃ error, answer = .error error) ∧ last.IsOver := by
  rw [run_stop] at ran
  obtain ⟨⟨closing, joined⟩, closes, same⟩ := Option.map_eq_some_iff.mp ran
  obtain ⟨rfl, closed⟩ := closed_of_run attached closes
  cases same
  obtain ⟨ending, ended, unchanged⟩ := closed.ended
  obtain rfl := unchanged result outcome
  exact ⟨⟨_, rfl⟩, closed.inputOpen, closed.attached, result, ended, own⟩

theorem IsOver.stop {answer : Except RemoteError α} (spent : session.IsOver)
    (ran : (stop budget : Call α).run session = some (answer, last)) :
    (∃ error, answer = .error error) ∧ last.IsOver := by
  rw [run_stop, run_close_of_joined spent.attached, Option.map_some] at ran
  cases ran
  exact ⟨⟨_, rfl⟩, spent.lead_dropInput⟩

/-! ## Calls that keep a session -/

/-- Whatever a call does to a session, it does it properly. -/
structure Keeps (call : Call α) : Prop where
  live : ∀ {session answer last}, session.IsLive →
    call.run session = some (answer, last) →
    match answer with
    | .ok _ => last.IsLive
    | .error _ => last.IsOver
  spent : ∀ {session answer last}, session.IsOver →
    call.run session = some (answer, last) → last.IsOver

theorem keeps_pure (value : α) : Keeps (pure value) where
  live live ran := by
    cases ran
    exact live
  spent spent ran := by
    cases ran
    exact spent

theorem Keeps.bind {call : Call α} {next : α → Call β} (first : Keeps call)
    (rest : ∀ value, Keeps (next value)) : Keeps (call >>= next) where
  live live ran := by
    rw [run_bind] at ran
    obtain ⟨⟨answer, between⟩, begun, ran⟩ := Option.bind_eq_some_iff.mp ran
    have kept := first.live live begun
    cases answer with
    | ok value => exact (rest value).live kept ran
    | error error =>
        cases ran
        exact kept
  spent spent ran := by
    rw [run_bind] at ran
    obtain ⟨⟨answer, between⟩, begun, ran⟩ := Option.bind_eq_some_iff.mp ran
    have kept := first.spent spent begun
    cases answer with
    | ok value => exact (rest value).spent kept ran
    | error error =>
        cases ran
        exact kept

theorem keeps_forM {call : α → Call Unit} (each : ∀ item, Keeps (call item))
    (items : List α) : Keeps (items.forM call) := by
  induction items with
  | nil => exact keeps_pure ()
  | cons item items induction =>
      apply (each item).bind
      intro _
      exact induction

theorem keeps_mapM {call : α → Call β} (each : ∀ item, Keeps (call item))
    (items : List α) : Keeps (items.mapM call) := by
  induction items with
  | nil => exact keeps_pure []
  | cons item items induction =>
      rw [List.mapM_cons]
      apply (each item).bind
      intro value
      apply induction.bind
      intro values
      exact keeps_pure (value :: values)

/-! ## Puts and takes -/

theorem IsLive.updateLink {index : Fin 2} {change : Channel → Channel}
    (live : session.IsLive)
    (serving : (session.network.updateLink index change).Serving) :
    IsLive { session with
      network := session.network.updateLink index change } :=
  ⟨live.inputOpen, live.attached, serving⟩

/-- A put fails only when the executor has let go of the input link. -/
theorem IsLive.offer_cases (live : session.IsLive) (value : Word) :
    ((session.offer value).1 = true ∧ (session.offer value).2.IsLive) ∨
      session.offer value = (false, session) ∧
        session.executor.hasEnded = true := by
  have unbounded := live.serving.unbounded
  unfold offer
  rw [if_pos live.inputOpen]
  cases offered : (session.network.link inputLink).offer value with
  | waits =>
      obtain ⟨_, full, _⟩ := Channel.offer_waits offered
      rw [inputLink, unbounded] at full
      cases full
  | done result link =>
      cases result with
      | ok =>
          obtain ⟨_, _, rfl⟩ := Channel.offer_ok offered
          left
          exact ⟨rfl, live.updateLink (live.serving.updateLink rfl rfl rfl)⟩
      | error error =>
          right
          refine ⟨rfl, live.serving.reading ?_⟩
          obtain ⟨_, closed | full⟩ := Channel.offer_error offered
          · exact closed.2
          · obtain ⟨capacity, _, bounded⟩ := full
            rw [inputLink, unbounded] at bounded
            cases bounded

/-- A take fails only when the executor has let go of the output link. -/
theorem IsLive.poll_cases {result : Except ChannelError Word}
    (live : session.IsLive) (polled : session.poll = some (result, next)) :
    ((∃ value, result = .ok value) ∧ next.IsLive) ∨
      (∃ error, result = .error error) ∧
        session.executor.holdsOutput = false := by
  unfold poll at polled
  cases taken : (session.network.link outputLink).poll with
  | waits => simp [taken] at polled
  | done answer link =>
      simp only [taken, Option.some.injEq, Prod.mk.injEq] at polled
      obtain ⟨rfl, rfl⟩ := polled
      cases answer with
      | ok value =>
          obtain ⟨rest, _, rfl⟩ := Channel.poll_ok taken
          left
          exact ⟨⟨value, rfl⟩,
            live.updateLink (live.serving.updateLink rfl rfl rfl)⟩
      | error error =>
          right
          obtain ⟨_, _, _, unsupplied⟩ := Channel.poll_error taken
          exact ⟨⟨error, rfl⟩, live.serving.writing unsupplied⟩

theorem IsLive.stop {answer : Except RemoteError α} (live : session.IsLive)
    (gone : session.executor.holdsOutput = false)
    (ran : (stop budget : Call α).run session = some (answer, last)) :
    (∃ error, answer = .error error) ∧ last.IsOver := by
  obtain ⟨result, outcome⟩ := Executor.outcome?_of_not_holdsOutput gone
  exact isOver_of_stop live.attached outcome (live.own outcome) ran

theorem keeps_push (budget : Nat) (value : Word) :
    Keeps (push budget value) where
  live := by
    intro session answer last live ran
    rw [run_push] at ran
    rcases live.lead.offer_cases value with ⟨put, stays⟩ | ⟨refused, ended⟩
    · rw [if_pos put] at ran
      cases ran
      exact stays
    · rw [refused, if_neg Bool.false_ne_true] at ran
      have gone := Executor.holdsOutput_of_hasEnded ended
      obtain ⟨⟨error, rfl⟩, spent⟩ := live.lead.stop gone ran
      exact spent
  spent := by
    intro session answer last spent ran
    have spent := spent.leads (Leads.of_lead session)
    have refused : session.lead.offer value = (false, session.lead) := by
      rw [offer, spent.inputOpen, if_neg Bool.false_ne_true]
    rw [run_push, refused, if_neg Bool.false_ne_true] at ran
    exact (spent.stop ran).2

theorem IsOver.poll {result : Except ChannelError Word} (spent : session.IsOver)
    (polled : session.poll = some (result, next)) : next.IsOver := by
  unfold Session.poll at polled
  split at polled
  · cases polled
    exact ⟨spent.inputOpen, spent.attached, spent.ended⟩
  · cases polled

theorem keeps_receive (budget : Nat) : Keeps (receive budget) where
  live := by
    intro session answer last live ran
    rw [run_receive] at ran
    obtain ⟨next, awaited, ran⟩ := Option.bind_eq_some_iff.mp ran
    obtain ⟨leads, ready⟩ := Leads.of_await awaited
    have live : next.IsLive := live.lead.leads leads
    obtain ⟨⟨result, after⟩, polled⟩ := Option.isSome_iff_exists.mp ready
    rw [polled] at ran
    rcases live.poll_cases polled with
      ⟨⟨value, rfl⟩, stays⟩ | ⟨⟨error, rfl⟩, gone⟩
    · cases ran
      exact stays
    · obtain ⟨⟨error, rfl⟩, spent⟩ := live.stop gone ran
      exact spent
  spent := by
    intro session answer last spent ran
    rw [run_receive] at ran
    obtain ⟨next, awaited, ran⟩ := Option.bind_eq_some_iff.mp ran
    have spent := spent.leads
      ((Leads.of_lead session).trans (Leads.of_await awaited).1)
    split at ran
    · cases ran
      exact spent.poll ‹_›
    · exact (spent.stop ran).2

/-! ## Requests -/

inductive Request where
  | push (value : Word)
  | receive
  | send (value : Word)
  | sendAll (values : List Word)
  | exchange (values : List Word) (responses : Nat)
  deriving DecidableEq, Repr

/-- A request of a client, with the outputs it has got if it does not fail. -/
def Request.call (budget : Nat) : Request → Call (List Word)
  | .push value => do
    Session.push budget value
    return []
  | .receive => do return [← Session.receive budget]
  | .send value => do return [← Session.send budget value]
  | .sendAll values => Session.sendAll budget values
  | .exchange values responses => Session.exchange budget values responses

/-- The answers to one request after another, and the session after them.  There
is no result when one of the requests does not return. -/
def history (budget : Nat) : List Request → Session →
    Option (List (Except RemoteError (List Word)) × Session)
  | [], session => some ([], session)
  | request :: later, session => do
    let (answer, between) ← (request.call budget).run session
    let (answers, last) ← history budget later between
    return (answer :: answers, last)

theorem history_cons {request : Request} {later : List Request}
    {answers : List (Except RemoteError (List Word))}
    (went : history budget (request :: later) session = some (answers, last)) :
    ∃ answer between rest,
      (request.call budget).run session = some (answer, between) ∧
        history budget later between = some (rest, last) ∧
        answers = answer :: rest := by
  rw [history] at went
  obtain ⟨⟨answer, between⟩, called, further⟩ := Option.bind_eq_some_iff.mp went
  obtain ⟨⟨rest, final⟩, went, same⟩ := Option.bind_eq_some_iff.mp further
  cases same
  exact ⟨answer, between, rest, called, went, rfl⟩

theorem keeps_send (budget : Nat) (value : Word) : Keeps (send budget value) :=
  (keeps_push budget value).bind fun () => keeps_receive budget

theorem keeps_call (budget : Nat) (request : Request) :
    Keeps (request.call budget) := by
  cases request with
  | push value =>
      exact (keeps_push budget value).bind fun () => keeps_pure []
  | receive => exact (keeps_receive budget).bind fun value => keeps_pure [value]
  | send value =>
      exact (keeps_send budget value).bind fun value => keeps_pure [value]
  | sendAll values => exact keeps_mapM (keeps_send budget) values
  | exchange values responses =>
      apply (keeps_forM (keeps_push budget) values).bind
      intro _
      exact keeps_mapM (fun _ => keeps_receive budget) _

theorem IsOver.history {requests : List Request}
    {answers : List (Except RemoteError (List Word))} (spent : session.IsOver)
    (went : history budget requests session = some (answers, last)) :
    last.IsOver := by
  induction requests generalizing session answers with
  | nil =>
      cases went
      exact spent
  | cons request later induction =>
      obtain ⟨answer, between, rest, called, further, rfl⟩ :=
        history_cons went
      exact induction ((keeps_call budget request).spent spent called) further

/-- A session is live after a history in which no request has failed, and over
after one in which a request has. -/
theorem IsLive.history {requests : List Request}
    {answers : List (Except RemoteError (List Word))} (live : session.IsLive)
    (went : history budget requests session = some (answers, last)) :
    (∀ answer ∈ answers, answer.isOk = true) ∧ last.IsLive ∨
      (∃ error, .error error ∈ answers) ∧ last.IsOver := by
  induction requests generalizing session answers with
  | nil =>
      cases went
      exact .inl ⟨by simp, live⟩
  | cons request later induction =>
      obtain ⟨answer, between, rest, called, further, rfl⟩ :=
        history_cons went
      have kept := (keeps_call budget request).live live called
      cases answer with
      | error error =>
          right
          exact ⟨⟨error, List.mem_cons_self⟩, kept.history further⟩
      | ok values =>
          rcases induction kept further with ⟨sound, live⟩ | ⟨failed, spent⟩
          · left
            refine ⟨?_, live⟩
            intro answer member
            rcases List.mem_cons.mp member with rfl | member
            · rfl
            · exact sound answer member
          · right
            obtain ⟨error, member⟩ := failed
            exact ⟨⟨error, List.mem_cons_of_mem _ member⟩, spent⟩

theorem isLive_start (program : Program) (limits : Limits)
    (leads : List (List Bool)) : (start program limits leads).IsLive where
  inputOpen := rfl
  attached := rfl
  serving := {
    chain := rfl
    supplied := Nat.one_ne_zero
    unbounded := rfl
    reading := fun gone => absurd gone Nat.one_ne_zero
    writing := fun gone => absurd gone Nat.one_ne_zero
    running := fun _ => rfl
    alone := nofun
    alarm := nofun }

end Session

end CellMachines
