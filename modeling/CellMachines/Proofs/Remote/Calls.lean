import CellMachines.Proofs.Remote.Serving

/-!
# Calls of a session

A call of the client is a function on sessions that may fail or never return.
Between two actions of the client the executor performs actions of its own
(`Leads`), so a call keeps whatever those keep and the actions of the client do
not disturb.  A call that closes the session leaves the executor no way to go
on: it returns, and what it yields is how the executor ended (`Closed`).
-/

namespace CellMachines

namespace Session

variable {α β : Type} {session next last : Session} {budget : Nat} {heed : Bool}

def executor (session : Session) : Executor :=
  session.network.executor Network.sole

/-! ## Between the actions of the client -/

/-- The executor may have acted, and the client has not. -/
structure Leads (session next : Session) : Prop where
  inputOpen : next.inputOpen = session.inputOpen
  attached : next.attached = session.attached
  network :
    Relation.ReflTransGen Network.Advances session.network next.network

namespace Leads

theorem refl (session : Session) : Leads session session :=
  ⟨rfl, rfl, .refl⟩

theorem trans (first : Leads session next) (later : Leads next last) :
    Leads session last :=
  ⟨later.inputOpen.trans first.inputOpen, later.attached.trans first.attached,
    first.network.trans later.network⟩

theorem of_advance (advanced : session.advance heed = some next) :
    Leads session next := by
  obtain ⟨network, acts, rfl⟩ := Option.map_eq_some_iff.mp advanced
  exact ⟨rfl, rfl, .single ⟨heed, acts⟩⟩

theorem of_lead (session : Session) : Leads session session.lead := by
  have acts : ∀ (choices : List Bool) (session : Session), Leads session
      (choices.foldl (fun session heed => (session.advance heed).getD session)
        session) := by
    intro choices
    induction choices with
    | nil => exact refl
    | cons heed later induction =>
        intro session
        cases advanced : session.advance heed with
        | none => simpa [advanced] using induction session
        | some next =>
            simpa [advanced] using (of_advance advanced).trans (induction next)
  unfold lead
  cases session.leads with
  | nil => exact refl session
  | cons choices leads =>
      have acts := acts choices { session with leads }
      exact ⟨acts.inputOpen, acts.attached, acts.network⟩

theorem of_await {condition : Session → Bool}
    (awaited : session.await condition budget = some next) :
    Leads session next ∧ condition next = true := by
  induction budget generalizing session with
  | zero =>
      unfold await at awaited
      split at awaited
      · cases awaited
        exact ⟨refl _, ‹_›⟩
      · cases awaited
  | succ budget induction =>
      unfold await at awaited
      split at awaited
      · cases awaited
        exact ⟨refl _, ‹_›⟩
      · cases advanced : session.advance false with
        | none => simp [advanced] at awaited
        | some other =>
            simp only [advanced] at awaited
            obtain ⟨later, met⟩ := induction awaited
            exact ⟨(of_advance advanced).trans later, met⟩

/-- What every action of the executor keeps, it keeps by all of them. -/
theorem keeps (leads : Leads session next) (holds : Network 1 → Prop)
    (step : ∀ network after,
      holds network → network.Advances after → holds after)
    (before : holds session.network) : holds next.network := by
  have network := leads.network
  generalize next.network = after at network ⊢
  induction network with
  | refl => exact before
  | tail _ advances induction => exact step _ _ induction advances

theorem serving (leads : Leads session next)
    (serving : session.network.Serving) : next.network.Serving :=
  leads.keeps Network.Serving (fun _ _ serving => serving.advance) serving

theorem tripped (leads : Leads session next)
    (tripped : session.network.tripped = true) :
    next.network.tripped = true :=
  leads.keeps (·.tripped = true) (fun _ _ tripped advances =>
    advances.tripped tripped) tripped

theorem outcome (leads : Leads session next) {result : Except Failure Unit}
    (outcome : session.executor.outcome? = some result) :
    next.executor.outcome? = some result :=
  leads.keeps (fun network =>
      (network.executor Network.sole).outcome? = some result)
    (fun _ _ outcome advances => advances.outcome?_eq_some outcome) outcome

theorem network_eq (leads : Leads session next)
    (ended : session.executor.hasEnded = true) :
    next.network = session.network := by
  apply leads.keeps (· = session.network) ?_ rfl
  rintro _ after rfl advances
  have going := advances.not_ended
  rw [Session.executor] at ended
  rw [ended] at going
  cases going

end Leads

/-! ## What the actions of the client leave alone -/

theorem executor_dropInput (session : Session) :
    session.dropInput.executor = session.executor := by
  unfold dropInput
  split <;> rfl

theorem attached_dropInput (session : Session) :
    session.dropInput.attached = session.attached := by
  unfold dropInput
  split <;> rfl

theorem inputOpen_dropInput (session : Session) :
    session.dropInput.inputOpen = false := by
  unfold dropInput
  split
  · rfl
  · simp_all

theorem executor_cancelUnlessEnded (session : Session) :
    session.cancelUnlessEnded.executor = session.executor := by
  unfold cancelUnlessEnded
  split <;> rfl

theorem attached_cancelUnlessEnded (session : Session) :
    session.cancelUnlessEnded.attached = session.attached := by
  unfold cancelUnlessEnded
  split <;> rfl

theorem inputOpen_cancelUnlessEnded (session : Session) :
    session.cancelUnlessEnded.inputOpen = session.inputOpen := by
  unfold cancelUnlessEnded
  split <;> rfl

/-! ## Calls as functions -/

@[simp] theorem run_pure (value : α) (session : Session) :
    (pure value : Call α).run session = some (.ok value, session) := rfl

@[simp] theorem run_throw (error : RemoteError) (session : Session) :
    (throw error : Call α).run session = some (.error error, session) := rfl

@[simp] theorem run_get (session : Session) :
    (get : Call Session).run session = some (.ok session, session) := rfl

@[simp] theorem run_modify (change : Session → Session) (session : Session) :
    (modify change : Call Unit).run session = some (.ok (), change session) :=
  rfl

@[simp] theorem run_bind (call : Call α) (next : α → Call β)
    (session : Session) :
    (call >>= next).run session =
      (call.run session).bind fun (answer, last) =>
        match answer with
        | .ok value => (next value).run last
        | .error error => some (.error error, last) := by
  change Option.bind (call.run session) _ = _
  congr 1
  funext ⟨answer, last⟩
  cases answer <;> rfl

@[simp] theorem run_act (action : Session → α × Session) (session : Session) :
    (act action).run session =
      some (.ok (action session.lead).1, (action session.lead).2) := rfl

@[simp] theorem run_awaitThat (budget : Nat) (condition : Session → Bool)
    (session : Session) :
    (awaitThat budget condition).run session =
      (session.lead.await condition budget).map fun last => (.ok (), last) := by
  simp only [awaitThat, run_bind, run_get, Option.bind_some]
  cases session.lead.await condition budget <;> rfl

/-- The session in which a call that closes it waits for the executor to end. -/
def closing (session : Session) : Session :=
  session.lead.dropInput.lead.cancelUnlessEnded.lead

theorem attached_lead_dropInput (session : Session) :
    session.lead.dropInput.attached = session.attached := by
  rw [attached_dropInput]
  exact (Leads.of_lead session).attached

theorem run_close (attached : session.attached = true) (budget : Nat) :
    (close budget).run session =
      (session.closing.await hasEnded budget).map fun last =>
        (.ok last.result?, { last with attached := false }) := by
  have attached := (attached_lead_dropInput session).trans attached
  simp only [close, run_bind, run_act, run_get, run_awaitThat,
    Option.bind_some, attached, if_true]
  rw [closing]
  cases session.lead.dropInput.lead.cancelUnlessEnded.lead.await hasEnded budget
    <;> simp

theorem run_close_of_joined (joined : session.attached = false)
    (budget : Nat) :
    (close budget).run session = some (.ok none, session.lead.dropInput) := by
  have joined := (attached_lead_dropInput session).trans joined
  simp [close, joined]

theorem run_stop (budget : Nat) (session : Session) :
    (stop budget : Call α).run session =
      ((close budget).run session).map fun (answer, last) =>
        match answer with
        | .ok result => (.error (stopReason result), last)
        | .error error => (.error error, last) := by
  rw [stop, run_bind]
  rcases (close budget).run session with _ | ⟨_ | _, _⟩ <;> simp

theorem run_push (budget : Nat) (value : Word) (session : Session) :
    (push budget value).run session =
      if (session.lead.offer value).1 then
        some (.ok (), (session.lead.offer value).2)
      else (stop budget).run (session.lead.offer value).2 := by
  rw [push, run_bind, run_act, Option.bind_some]
  cases (session.lead.offer value).1 <;> rfl

theorem run_receive (budget : Nat) (session : Session) :
    (receive budget).run session =
      (session.lead.await (·.poll.isSome) budget).bind fun next =>
        match next.poll with
        | some (.ok value, last) => some (.ok value, last)
        | _ => (stop budget).run next := by
  simp only [receive, run_bind, run_awaitThat, run_get]
  cases session.lead.await (·.poll.isSome) budget with
  | none => rfl
  | some next =>
      simp only [Option.map_some, Option.bind_some]
      rcases next.poll with _ | ⟨_ | _, _⟩ <;> rfl

/-! ## Closing -/

/-- Whether the executor has ended or will do so of itself, because the token
tells it to. -/
def IsDue (session : Session) : Prop :=
  session.hasEnded = true ∨ session.network.tripped = true

theorem isDue_cancelUnlessEnded (session : Session) :
    session.cancelUnlessEnded.IsDue := by
  unfold cancelUnlessEnded
  split
  · left
    assumption
  · right
    rfl

theorem Leads.isDue (leads : Leads session next) (due : session.IsDue) :
    next.IsDue := by
  rcases due with ended | tripped
  · left
    rw [hasEnded, leads.network_eq ended]
    exact ended
  · exact .inr (leads.tripped tripped)

theorem exists_await_of_isDue (due : session.IsDue)
    (within : session.executor.distance ≤ budget) :
    ∃ last, session.await hasEnded budget = some last := by
  induction budget generalizing session with
  | zero =>
      have ended : session.hasEnded = true :=
        Executor.hasEnded_of_distance (Nat.le_zero.mp within)
      rw [await, if_pos ended]
      exact ⟨session, rfl⟩
  | succ budget induction =>
      by_cases ended : session.hasEnded = true
      · rw [await, if_pos ended]
        exact ⟨session, rfl⟩
      · have tripped := due.resolve_left ended
        rw [await, if_neg ended]
        cases advanced : session.advance false with
        | none =>
            have stopped := Option.map_eq_none_iff.mp advanced
            -- with the token tripped nobody waits
            cases Network.idle_of_advance stopped with
            | ended done => exact absurd done ended
            | hungry untripped | stuffed untripped => simp_all
        | some next =>
            have leads := Leads.of_advance advanced
            apply induction (leads.isDue due)
            obtain ⟨network, acts, rfl⟩ := Option.map_eq_some_iff.mp advanced
            have closer := Network.Advances.distance_lt ⟨false, acts⟩ tripped
            exact Nat.le_of_lt_succ (Nat.lt_of_lt_of_le closer within)

theorem closing_cases (session : Session) :
    session.closing.inputOpen = false ∧
      session.closing.attached = session.attached ∧ session.closing.IsDue ∧
      ∀ result, session.executor.outcome? = some result →
        session.closing.executor.outcome? = some result := by
  have first := Leads.of_lead session
  have second := Leads.of_lead session.lead.dropInput
  have third := Leads.of_lead session.lead.dropInput.lead.cancelUnlessEnded
  refine ⟨?_, ?_, ?_, ?_⟩
  · rw [closing, third.inputOpen, inputOpen_cancelUnlessEnded, second.inputOpen,
      inputOpen_dropInput]
  · rw [closing, third.attached, attached_cancelUnlessEnded, second.attached,
      attached_dropInput, first.attached]
  · exact third.isDue (isDue_cancelUnlessEnded _)
  · intro result outcome
    apply third.outcome
    rw [executor_cancelUnlessEnded]
    apply second.outcome
    rw [executor_dropInput]
    exact first.outcome outcome

theorem exists_run_close (attached : session.attached = true)
    (patient : 4 ≤ budget) :
    ∃ last, (close budget).run session = some (.ok last.result?, last) := by
  obtain ⟨_, _, due, _⟩ := closing_cases session
  have within := Nat.le_trans session.closing.executor.distance_le patient
  obtain ⟨last, awaited⟩ := exists_await_of_isDue due within
  refine ⟨{ last with attached := false }, ?_⟩
  rw [run_close attached, awaited]
  rfl

/-- A session after a call that closed it and joined its executor. -/
structure Closed (session last : Session) : Prop where
  inputOpen : last.inputOpen = false
  attached : last.attached = false
  ended : ∃ result, last.executor.result? = some result ∧
    ∀ earlier, session.executor.outcome? = some earlier → earlier = result

theorem closed_of_run {answer : Except RemoteError (Option _)}
    (attached : session.attached = true)
    (ran : (close budget).run session = some (answer, last)) :
    answer = .ok last.result? ∧ session.Closed last := by
  rw [run_close attached] at ran
  obtain ⟨waited, awaited, same⟩ := Option.map_eq_some_iff.mp ran
  cases same
  obtain ⟨inputOpen, _, _, outcome⟩ := closing_cases session
  obtain ⟨leads, ended⟩ := Leads.of_await awaited
  obtain ⟨result, ended⟩ := Option.isSome_iff_exists.mp ended
  refine ⟨rfl, leads.inputOpen.trans inputOpen, rfl, result, ended, ?_⟩
  intro earlier before
  have after := leads.outcome (outcome earlier before)
  have same := Executor.outcome?_of_result? ended
  exact Option.some.inj (after.symm.trans same)

end Session

end CellMachines
