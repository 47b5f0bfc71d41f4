import CellMachines.Proofs.Channel.Actions
import Mathlib.Data.List.Nodup

/-!
# Conservation on an exchange

Whatever the users of an exchange do, the words handed out and then those
buffered are the words of the puts that have succeeded, in the order in which
these took effect, as long as a receiver is left.  When the last receiver goes,
what was buffered is lost and nothing is handed out any more, so the words
handed out remain the first ones of those puts.  Whoever puts or takes gets at
most one result, so a put that is refused is not among them, and neither is one
that waits.
-/

namespace CellMachines

namespace Exchange

theorem Consistent.nodup_tickets {exchange : Exchange}
    (consistent : exchange.Consistent) : exchange.tickets.Nodup :=
  consistent.tickets.nodup_iff.mpr List.nodup_range

theorem Consistent.nodup_replies {exchange : Exchange}
    (consistent : exchange.Consistent) :
    (exchange.replies.map Prod.fst).Nodup :=
  (consistent.nodup_tickets.of_append_right).of_append_right

/-! ## Who has to wait -/

/-- What a policy that fails fast makes of puts. -/
structure FailsFast (capacity : Nat) (exchange : Exchange) : Prop where
  idle : exchange.waitingPuts = []
  decided : ∀ value patient heed,
    (exchange.attemptPut value patient heed).1 ≠ none
  full : exchange.channel.receivers ≠ 0 → ∀ value patient heed,
    (exchange.attemptPut value patient heed).1 =
        some (.error (.full capacity)) ↔
      exchange.channel.contents.length = capacity ∧ exchange.waitingTakes = []

theorem Sound.failsFast {exchange : Exchange} {capacity : Nat}
    (sound : exchange.Sound)
    (policy : exchange.channel.policy = .failFast capacity) :
    FailsFast capacity exchange := by
  have never_waits : exchange.channel.policy.isCancellable ≠ true := by
    rw [policy]
    exact nofun
  have room : exchange.channel.policy.hasRoom exchange.channel.length =
      decide (exchange.channel.length < capacity) := by
    rw [policy]
    rfl
  have fits := sound.fits capacity .fail policy
  constructor
  · by_contra stuffed
    exact never_waits (sound.stuffed stuffed).1
  · intro value patient heed undecided
    obtain ⟨replies, puts⟩ := exchange.exists_attemptPut value patient heed
    generalize exchange.attemptPut value patient heed = attempt
      at undecided puts
    obtain ⟨result, after⟩ := attempt
    cases undecided
    cases puts with
    | waits _ _ cancellable => exact never_waits cancellable
  · intro attended value patient heed
    obtain ⟨replies, puts⟩ := exchange.exists_attemptPut value patient heed
    rw [Channel.length_contents]
    generalize exchange.attemptPut value patient heed = attempt at puts
    obtain ⟨result, after⟩ := attempt
    dsimp only at puts ⊢
    constructor
    · rintro rfl
      cases puts with
      | full unhungry _ _ none =>
          rw [room, decide_eq_false_iff_not] at none
          exact ⟨by omega, unhungry⟩
    · rintro ⟨stuffed, unhungry⟩
      cases puts with
      | hands takes =>
          rw [unhungry] at takes
          cases takes
      | pushes _ _ some =>
          rw [room, decide_eq_true_eq] at some
          omega
      | closed gone => exact absurd gone attended
      | full _ _ same =>
          cases policy.symm.trans same
          rfl
      | cancelled _ cancellable => exact absurd cancellable never_waits
      | waits _ _ cancellable => exact absurd cancellable never_waits

/-- Puts wait only under backpressure and only for room. -/
theorem Consistent.exists_backpressure {exchange : Exchange}
    (consistent : exchange.Consistent) (stuffed : exchange.waitingPuts ≠ []) :
    ∃ capacity, exchange.channel.policy = .backpressure capacity ∧
      exchange.channel.contents.length = capacity := by
  obtain ⟨cancellable, full⟩ := consistent.stuffed stuffed
  rcases policy : exchange.channel.policy with _ | ⟨capacity, _ | _⟩
  · rw [policy] at cancellable
    cases cancellable
  · rw [policy] at cancellable
    cases cancellable
  · refine ⟨capacity, rfl, ?_⟩
    have fits := consistent.fits capacity .block policy
    rw [policy, Policy.hasRoom, decide_eq_false_iff_not] at full
    rw [Channel.length_contents]
    omega

/-- A take that listens to no token reports the end exactly where it is
reached. -/
theorem Consistent.take_closed_iff {exchange : Exchange}
    (consistent : exchange.Consistent) :
    exchange.take.1 = some (.error .closed) ↔
      exchange.channel.senders = 0 ∧ exchange.channel.contents = [] := by
  constructor
  · intro closed
    obtain ⟨replies, takes⟩ := exchange.exists_takes
    generalize exchange.take = attempt at closed takes
    obtain ⟨result, after⟩ := attempt
    cases closed
    cases takes with
    | closed empty gone => exact ⟨gone, empty⟩
  · rintro ⟨gone, empty⟩
    have none : exchange.channel.buffer.pop? = none :=
      Queue.pop?_eq_none_iff.mpr empty
    have unstuffed : exchange.waitingPuts = [] := by
      have senders_eq := consistent.senders_eq
      apply List.eq_nil_of_length_eq_zero
      omega
    simp [take, Channel.poll, none, gone, unstuffed]

/-! ## Who gets a result -/

section Callers

variable {offers : Nat → Word} {replies : List (Nat × Reply)}
  {own : List Completion} {position : Nat} {caller : Caller}

theorem callers_ofReply (offers : Nat → Word) (replies : List (Nat × Reply)) :
    (replies.map (Completion.ofReply offers)).map Completion.caller =
      replies.map fun entry => .begun entry.1 := by
  rw [List.map_map]
  apply List.map_congr_left
  rintro ⟨ticket, _ | _⟩ _ <;> rfl

theorem exists_of_mem_callers
    (alone : (own.map Completion.caller).Sublist [.now position])
    (member : caller ∈
      (replies.map (Completion.ofReply offers) ++ own).map Completion.caller) :
    (∃ entry ∈ replies, caller = .begun entry.1) ∨ caller = .now position := by
  rw [List.map_append, callers_ofReply] at member
  rcases List.mem_append.mp member with replied | completed
  · obtain ⟨entry, entry_mem, rfl⟩ := List.mem_map.mp replied
    exact .inl ⟨entry, entry_mem, rfl⟩
  · exact .inr (List.mem_singleton.mp (alone.subset completed))

theorem nodup_callers
    (alone : (own.map Completion.caller).Sublist [.now position])
    (distinct : (replies.map Prod.fst).Nodup) :
    ((replies.map (Completion.ofReply offers) ++ own).map
      Completion.caller).Nodup := by
  rw [List.map_append, callers_ofReply]
  apply List.nodup_append.mpr
  refine ⟨?_, alone.nodup (List.nodup_singleton _), ?_⟩
  · have begun := distinct.map (f := Caller.begun) fun _ _ => Caller.begun.inj
    rw [List.map_map] at begun
    exact begun
  · rintro caller replied other completed
    obtain ⟨entry, _, rfl⟩ := List.mem_map.mp replied
    rw [List.mem_singleton.mp (alone.subset completed)]
    exact nofun

end Callers

namespace History

/-- What every action preserves. -/
structure Kept (policy : Policy) (history : History) : Prop where
  sound : history.exchange.Sound
  offered : Offered history.offers history.exchange
  carries : Carries (.create policy 1 1) history.completions
    history.exchange.channel
  callers : (history.completions.map Completion.caller).Nodup
  now : ∀ position,
    .now position ∈ history.completions.map Completion.caller →
      position < history.length
  begun : ∀ ticket,
    .begun ticket ∈ history.completions.map Completion.caller →
      ticket ∈ history.exchange.replies.map Prod.fst
  told : ∀ entry ∈ history.exchange.replies,
    .ofReply history.offers entry ∈ history.completions

theorem kept_start (policy : Policy) : Kept policy (start policy) where
  sound := by
    refine ⟨⟨rfl, rfl, nofun, nofun, ?_, .refl _⟩, nofun, nofun⟩
    exact fun capacity _ _ => Nat.zero_le capacity
  offered := nofun
  carries := carries_nothing (.refl _)
  callers := .nil
  now := nofun
  begun := nofun
  told := nofun

variable {policy : Policy} {history : History} {action : Action}

/-- What is offered anew belongs to a ticket that nobody has yet. -/
theorem offersAfter_of_mem {ticket : Nat} (sound : history.exchange.Sound)
    (member : ticket ∈ history.exchange.tickets) (action : Action) :
    history.offersAfter action ticket = history.offers ticket := by
  have early : ticket < history.exchange.begun := by
    rw [← List.mem_range, ← sound.tickets.mem_iff]
    exact member
  unfold offersAfter
  split
  · exact Function.update_of_ne (Nat.ne_of_lt early) _ _
  · rfl

theorem Kept.offered_offersAfter (kept : Kept policy history)
    (action : Action) :
    Offered (history.offersAfter action) history.exchange := by
  intro waiting member
  have held : waiting.ticket ∈ history.exchange.tickets :=
    List.mem_append_left _ (List.mem_map_of_mem member)
  rw [offersAfter_of_mem kept.sound held]
  exact kept.offered waiting member

theorem Kept.told_offersAfter (kept : Kept policy history) (action : Action)
    {entry : Nat × Reply} (member : entry ∈ history.exchange.replies) :
    .ofReply (history.offersAfter action) entry ∈ history.completions := by
  have held : entry.1 ∈ history.exchange.tickets :=
    List.mem_append_right _
      (List.mem_append_right _ (List.mem_map_of_mem member))
  have same : Completion.ofReply (history.offersAfter action) entry =
      .ofReply history.offers entry := by
    obtain ⟨ticket, _ | _⟩ := entry
    · rw [Completion.ofReply, offersAfter_of_mem kept.sound held]
      rfl
    · rfl
  rw [same]
  exact kept.told entry member

theorem offersAfter_begun {value : Word} {manner : Manner}
    (background : manner.background = true) :
    history.offersAfter (.put value manner) history.exchange.begun = value := by
  obtain ⟨_, patient, heed⟩ := manner
  cases background
  exact Function.update_self _ _ _

theorem Kept.after (kept : Kept policy history) (action : Action) :
    Kept policy (history.after action) := by
  have offered := kept.offered_offersAfter action
  have told_before : ∀ entry ∈ history.exchange.replies,
      .ofReply (history.offersAfter action) entry ∈ history.completions :=
    fun _ member => kept.told_offersAfter action member
  have announced : ∀ value manner, action = .put value manner →
      manner.background = true →
      history.offersAfter action history.exchange.begun = value := by
    rintro value manner rfl background
    exact offersAfter_begun background
  have acts := history.exchange.acts history.length action
  obtain ⟨replies, brings⟩ := acts.exists_brings kept.sound offered announced
  have sound := acts.sound kept.sound
  have alone := acts.callers
  unfold History.after
  generalize history.offersAfter action = offers
    at offered told_before announced brings ⊢
  rcases acted : history.exchange.act history.length action with ⟨own, after⟩
  rw [acted] at brings sound alone
  dsimp only at brings sound alone ⊢
  rw [brings.replies_eq, List.drop_left]
  have tickets : (history.exchange.replies.map Prod.fst ++
      replies.map Prod.fst).Nodup := by
    rw [← List.map_append, ← brings.replies_eq]
    exact sound.nodup_replies
  constructor
  · exact sound
  · exact brings.offered
  · exact kept.carries.trans brings.carries
  · rw [List.map_append]
    apply List.nodup_append.mpr
    refine ⟨kept.callers, nodup_callers alone tickets.of_append_right, ?_⟩
    rintro caller earlier other later rfl
    rcases exists_of_mem_callers alone later with
      ⟨entry, entry_mem, rfl⟩ | rfl
    · have known := kept.begun _ earlier
      have replied := List.mem_map_of_mem (f := Prod.fst) entry_mem
      exact (List.nodup_append.mp tickets).2.2 _ known _ replied rfl
    · exact Nat.lt_irrefl _ (kept.now _ earlier)
  · intro position member
    rw [List.map_append] at member
    rcases List.mem_append.mp member with earlier | later
    · exact Nat.lt_succ_of_lt (kept.now position earlier)
    · rcases exists_of_mem_callers alone later with
        ⟨entry, _, impossible⟩ | same
      · cases impossible
      · cases same
        exact Nat.lt_succ_self _
  · intro ticket member
    rw [List.map_append] at member
    rw [brings.replies_eq, List.map_append]
    rcases List.mem_append.mp member with earlier | later
    · exact List.mem_append_left _ (kept.begun ticket earlier)
    · rcases exists_of_mem_callers alone later with
        ⟨entry, entry_mem, same⟩ | impossible
      · cases same
        exact List.mem_append_right _ (List.mem_map_of_mem entry_mem)
      · cases impossible
  · intro entry member
    rw [brings.replies_eq] at member
    rcases List.mem_append.mp member with earlier | later
    · exact List.mem_append_left _ (told_before entry earlier)
    · exact List.mem_append_right _
        (List.mem_append_left _ (List.mem_map_of_mem later))

theorem Kept.afterAll (kept : Kept policy history) (actions : List Action) :
    Kept policy (history.afterAll actions) := by
  induction actions generalizing history with
  | nil => exact kept
  | cons action actions induction => exact induction (kept.after action)

/-! ## Every history -/

/-- What holds of the words of an exchange at every moment. -/
structure Conserves (policy : Policy) (history : History) : Prop where
  conserved : history.exchange.channel.receivers ≠ 0 →
    history.handedOut ++ history.exchange.channel.contents = history.accepted
  inOrder : history.handedOut <+: history.accepted
  once : (history.completions.map Completion.caller).Nodup
  told : ∀ reply, history.exchange.join.1 = some reply →
    .ofReply history.offers (history.exchange.joined, reply) ∈
      history.completions
  pendingPuts : ∀ waiting ∈ history.exchange.waitingPuts,
    .begun waiting.ticket ∉ history.completions.map Completion.caller
  pendingTakes : ∀ waiting ∈ history.exchange.waitingTakes,
    .begun waiting.ticket ∉ history.completions.map Completion.caller
  stuffed : history.exchange.waitingPuts ≠ [] →
    history.exchange.channel.receivers ≠ 0 ∧
      history.exchange.waitingTakes = [] ∧
      ∃ capacity, policy = .backpressure capacity ∧
        history.exchange.channel.contents.length = capacity
  hungry : history.exchange.waitingTakes ≠ [] →
    history.exchange.channel.senders ≠ 0 ∧
      history.exchange.waitingPuts = [] ∧
      history.exchange.channel.contents = []
  /-- Where the word of a refused put is handed out, it is also that of another
  put. -/
  refused : ∀ caller value error,
    .put caller value (.error error) ∈ history.completions →
      value ∈ history.handedOut →
        ∃ other ≠ caller, .put other value (.ok ()) ∈ history.completions
  fits : ∀ capacity onFull, policy = .bounded capacity onFull →
    history.exchange.channel.contents.length ≤ capacity
  full : ∀ caller value capacity,
    .put caller value (.error (.full capacity)) ∈ history.completions →
      policy = .failFast capacity
  failsFast : ∀ capacity, policy = .failFast capacity →
    FailsFast capacity history.exchange
  closed : ∀ caller, .take caller (.error .closed) ∈ history.completions →
    history.exchange.channel.senders = 0 ∧
      history.exchange.channel.contents = []
  exhausted : history.exchange.take.1 = some (.error .closed) ↔
    history.exchange.channel.senders = 0 ∧
      history.exchange.channel.contents = []

theorem Kept.not_mem_callers (kept : Kept policy history) {ticket : Nat}
    (waits : ticket ∈ history.exchange.waitingPuts.map (·.ticket) ++
      history.exchange.waitingTakes.map (·.ticket)) :
    .begun ticket ∉ history.completions.map Completion.caller := by
  intro member
  have distinct := kept.sound.nodup_tickets
  rw [tickets, ← List.append_assoc] at distinct
  have replied := kept.begun ticket member
  exact (List.nodup_append.mp distinct).2.2 _ waits _ replied rfl

theorem Kept.handedOut_inOrder (kept : Kept policy history) :
    history.handedOut <+: history.accepted := by
  obtain ⟨left, words, _⟩ := kept.carries.words
  exact ⟨left, words.symm⟩

theorem exists_of_mem_accepted {value : Word}
    (member : value ∈ history.accepted) :
    ∃ caller, .put caller value (.ok ()) ∈ history.completions := by
  obtain ⟨completion, known, member⟩ := List.mem_flatMap.mp member
  rcases completion with ⟨caller, word, _ | _⟩ | _ | _
  · cases member
  · cases List.mem_singleton.mp member
    exact ⟨caller, known⟩
  · cases member
  · cases member

theorem Kept.exists_other (kept : Kept policy history) {caller : Caller}
    {value : Word} {error : ChannelError}
    (refused : .put caller value (.error error) ∈ history.completions)
    (member : value ∈ history.handedOut) :
    ∃ other ≠ caller, .put other value (.ok ()) ∈ history.completions := by
  obtain ⟨other, accepted⟩ :=
    exists_of_mem_accepted (kept.handedOut_inOrder.subset member)
  refine ⟨other, ?_, accepted⟩
  rintro rfl
  have same := List.inj_on_of_nodup_map kept.callers refused accepted rfl
  cases same

theorem Kept.told_join (kept : Kept policy history) {reply : Reply}
    (joins : history.exchange.join.1 = some reply) :
    .ofReply history.offers (history.exchange.joined, reply) ∈
      history.completions := by
  unfold join at joins
  split at joins
  · rename_i ticket answer found
    cases joins
    have ticket_eq := List.find?_some found
    rw [decide_eq_true_eq] at ticket_eq
    rw [← ticket_eq]
    exact kept.told _ (List.mem_of_find?_eq_some found)
  · cases joins

theorem conserves_afterAll (policy : Policy) (actions : List Action) :
    Conserves policy ((start policy).afterAll actions) := by
  have kept := (kept_start policy).afterAll actions
  generalize (start policy).afterAll actions = history at kept
  have policy_eq : history.exchange.channel.policy = policy :=
    kept.carries.policy
  constructor
  · intro attended
    obtain ⟨left, words, left_eq⟩ := kept.carries.words
    rw [← left_eq attended]
    exact words.symm
  · exact kept.handedOut_inOrder
  · exact kept.callers
  · exact fun _ => kept.told_join
  · intro waiting member
    apply kept.not_mem_callers
    exact List.mem_append_left _ (List.mem_map_of_mem member)
  · intro waiting member
    apply kept.not_mem_callers
    exact List.mem_append_right _ (List.mem_map_of_mem member)
  · intro stuffed
    obtain ⟨capacity, backpressure, full⟩ :=
      kept.sound.exists_backpressure stuffed
    exact ⟨kept.sound.attended stuffed, kept.sound.waitingTakes_eq_nil stuffed,
      capacity, policy_eq.symm.trans backpressure, full⟩
  · intro waits
    obtain ⟨empty, unstuffed⟩ := kept.sound.hungry waits
    exact ⟨kept.sound.supplied waits, unstuffed, empty⟩
  · exact fun _ _ _ => kept.exists_other
  · intro capacity onFull bounded
    rw [Channel.length_contents]
    exact kept.sound.fits capacity onFull (policy_eq.trans bounded)
  · exact kept.carries.full
  · intro capacity failFast
    exact kept.sound.failsFast (policy_eq.trans failFast)
  · exact kept.carries.closed
  · exact kept.sound.take_closed_iff

/-- Without a buffer, two puts wait, one of them is served by a take, and the
token ends the other. -/
example :
    let history := (start (.backpressure 0)).afterAll
      [.put 5 ⟨true, true, false⟩, .put 7 ⟨true, false, false⟩,
        .take ⟨false, true, false⟩, .cancel, .drain]
    history.handedOut = [5] ∧ history.accepted = [5] ∧
      history.exchange.replies.length = 2 := by
  decide

end History

end Exchange

end CellMachines
