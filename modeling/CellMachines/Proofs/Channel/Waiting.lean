import CellMachines.Channel.Exchange
import CellMachines.Proofs.Channel.Attempt
import Mathlib.Data.List.Count
import Mathlib.Data.List.Perm.Basic

/-!
# Who waits on an exchange

All that an attempted put or take can come to, with the replies it brings to
those who wait: `Puts` and `Takes` say so once for those who listen to the
cancel token and for those who do not.  Nobody waits where the channel could
serve him, the handles add up, and every ticket either waits or has got exactly
one reply (`Sound`).
-/

namespace CellMachines

/-- What is left of a channel when some of its receivers have gone. -/
structure Channel.Loses (channel : Channel) (count : Nat) (after : Channel) :
    Prop where
  policy : after.policy = channel.policy
  senders : after.senders = channel.senders
  receivers : after.receivers = channel.receivers - count
  empty : channel.contents = [] → after.contents = []
  contents : after.receivers ≠ 0 → after.contents = channel.contents
  fits : channel.Fits → after.Fits

theorem Channel.loses_foldl {α : Type} (channel : Channel) (those : List α) :
    channel.Loses those.length
      (those.foldl (fun channel _ => channel.dropReceiver) channel) := by
  induction those generalizing channel with
  | nil => exact ⟨rfl, rfl, rfl, id, fun _ => rfl, id⟩
  | cons _ those induction =>
      have rest := induction channel.dropReceiver
      have one := channel.receivers_dropReceiver
      rw [List.foldl_cons, List.length_cons]
      constructor
      · exact rest.policy.trans channel.policy_dropReceiver
      · exact rest.senders.trans channel.senders_dropReceiver
      · rw [rest.receivers, one]
        omega
      · intro empty
        exact rest.empty (contents_dropReceiver_of_nil empty)
      · intro attended
        rw [rest.contents attended]
        apply contents_dropReceiver
        intro gone
        rw [rest.receivers, gone, Nat.zero_sub] at attended
        exact attended rfl
      · intro fits
        exact rest.fits fits.dropReceiver

theorem Channel.foldl_dropSender {α : Type} (channel : Channel)
    (those : List α) :
    those.foldl (fun channel _ => channel.dropSender) channel =
      { channel with senders := channel.senders - those.length } := by
  induction those generalizing channel with
  | nil => rfl
  | cons _ those induction =>
      rw [List.foldl_cons, induction, List.length_cons]
      simp only [dropSender, Nat.sub_sub, Nat.add_comm 1]

namespace Exchange

def tickets (exchange : Exchange) : List Nat :=
  exchange.waitingPuts.map (·.ticket) ++
    (exchange.waitingTakes.map (·.ticket) ++ exchange.replies.map Prod.fst)

/-- Nobody waits where a word or room is at hand. -/
structure Consistent (exchange : Exchange) : Prop where
  senders_eq : exchange.channel.senders =
    exchange.senders + exchange.waitingPuts.length
  receivers_eq : exchange.channel.receivers =
    exchange.receivers + exchange.waitingTakes.length
  hungry : exchange.waitingTakes ≠ [] →
    exchange.channel.contents = [] ∧ exchange.waitingPuts = []
  stuffed : exchange.waitingPuts ≠ [] →
    exchange.channel.policy.isCancellable = true ∧
      exchange.channel.policy.hasRoom exchange.channel.length = false
  fits : exchange.channel.Fits
  tickets : exchange.tickets.Perm (List.range exchange.begun)

/-- And nobody waits for a side that is gone. -/
structure Sound (exchange : Exchange) : Prop extends
    exchange.Consistent where
  supplied : exchange.waitingTakes ≠ [] → exchange.channel.senders ≠ 0
  attended : exchange.waitingPuts ≠ [] → exchange.channel.receivers ≠ 0

/-! ## Attempts -/

/-- What a put may come to. -/
inductive Puts (exchange : Exchange) (value : Word) :
    Option (Except ChannelError Unit) → List (Nat × Reply) → Exchange →
      Prop where
  | hands {waiting : WaitingTake} {rest : List WaitingTake} :
      exchange.waitingTakes = waiting :: rest →
      Puts exchange value (some (.ok ()))
        [(waiting.ticket, .take (.ok value))]
        { exchange.reply waiting.ticket (.take (.ok value)) with
          waitingTakes := rest
          channel := exchange.channel.dropReceiver }
  | pushes :
      exchange.waitingTakes = [] → exchange.channel.receivers ≠ 0 →
      exchange.channel.policy.hasRoom exchange.channel.length = true →
      Puts exchange value (some (.ok ())) []
        { exchange with channel := exchange.channel.push value }
  | closed :
      exchange.channel.receivers = 0 →
      Puts exchange value (some (.error .closed)) [] exchange
  | full {capacity : Nat} :
      exchange.waitingTakes = [] → exchange.channel.receivers ≠ 0 →
      exchange.channel.policy = .failFast capacity →
      exchange.channel.policy.hasRoom exchange.channel.length = false →
      Puts exchange value (some (.error (.full capacity))) [] exchange
  | cancelled :
      exchange.cancelled = true →
      exchange.channel.policy.isCancellable = true →
      Puts exchange value (some (.error .cancelled)) [] exchange
  | waits :
      exchange.waitingTakes = [] → exchange.channel.receivers ≠ 0 →
      exchange.channel.policy.isCancellable = true →
      exchange.channel.policy.hasRoom exchange.channel.length = false →
      Puts exchange value none [] exchange

/-- What a take may come to. -/
inductive Takes (exchange : Exchange) :
    Option (Except ChannelError Word) → List (Nat × Reply) → Exchange →
      Prop where
  | refills {value : Word} {queue : Queue Word} {waiting : WaitingPut}
      {rest : List WaitingPut} :
      exchange.channel.buffer.pop? = some (value, queue) →
      exchange.waitingPuts = waiting :: rest →
      Takes exchange (some (.ok value)) [(waiting.ticket, .put (.ok ()))]
        { exchange.reply waiting.ticket (.put (.ok ())) with
          waitingPuts := rest
          channel :=
            (Channel.push { exchange.channel with buffer := queue }
              waiting.value).dropSender }
  | pops {value : Word} {queue : Queue Word} :
      exchange.channel.buffer.pop? = some (value, queue) →
      exchange.waitingPuts = [] →
      Takes exchange (some (.ok value)) []
        { exchange with channel := { exchange.channel with buffer := queue } }
  | meets {waiting : WaitingPut} {rest : List WaitingPut} :
      exchange.channel.contents = [] → exchange.waitingPuts = waiting :: rest →
      Takes exchange (some (.ok waiting.value))
        [(waiting.ticket, .put (.ok ()))]
        { exchange.reply waiting.ticket (.put (.ok ())) with
          waitingPuts := rest
          channel := exchange.channel.dropSender }
  | closed :
      exchange.channel.contents = [] → exchange.channel.senders = 0 →
      Takes exchange (some (.error .closed)) [] exchange
  | cancelled :
      exchange.cancelled = true →
      Takes exchange (some (.error .cancelled)) [] exchange
  | waits :
      exchange.channel.contents = [] → exchange.channel.senders ≠ 0 →
      exchange.waitingPuts = [] → Takes exchange none [] exchange

theorem exists_puts (exchange : Exchange) (value : Word) :
    ∃ replies,
      exchange.Puts value (exchange.put value).1 replies
        (exchange.put value).2 := by
  cases takes : exchange.waitingTakes with
  | cons waiting rest =>
      refine ⟨[(waiting.ticket, .take (.ok value))], ?_⟩
      rw [put, takes]
      exact .hands takes
  | nil =>
      cases offered : exchange.channel.offer value with
      | waits =>
          have same : exchange.put value = (none, exchange) := by
            simp [put, takes, offered]
          obtain ⟨attended, full, cancellable⟩ := Channel.offer_waits offered
          rw [same]
          exact ⟨_, .waits takes attended cancellable full⟩
      | done result channel =>
          have same : exchange.put value =
              (some result, { exchange with channel }) := by
            simp [put, takes, offered]
          rw [same]
          cases result with
          | ok =>
              obtain ⟨attended, room, rfl⟩ := Channel.offer_ok offered
              exact ⟨_, .pushes takes attended room⟩
          | error error =>
              obtain ⟨rfl, ⟨rfl, gone⟩ | ⟨capacity, rfl, policy⟩⟩ :=
                Channel.offer_error offered
              · exact ⟨_, .closed gone⟩
              · obtain ⟨attended, full⟩ := Channel.offer_full offered
                exact ⟨_, .full takes attended policy full⟩

theorem exists_takes (exchange : Exchange) :
    ∃ replies, exchange.Takes exchange.take.1 replies exchange.take.2 := by
  cases polled : exchange.channel.poll with
  | waits =>
      obtain ⟨empty, supplied⟩ := Channel.poll_waits polled
      cases puts : exchange.waitingPuts with
      | nil =>
          have same : exchange.take = (none, exchange) := by
            simp [take, polled, puts]
          rw [same]
          exact ⟨_, .waits empty supplied puts⟩
      | cons waiting rest =>
          refine ⟨[(waiting.ticket, .put (.ok ()))], ?_⟩
          rw [take, polled, puts]
          exact .meets empty puts
  | done result channel =>
      cases result with
      | error error =>
          have same : exchange.take =
              (some (.error error), { exchange with channel }) := by
            cases puts : exchange.waitingPuts <;> simp [take, polled, puts]
          obtain ⟨rfl, rfl, empty, gone⟩ := Channel.poll_error polled
          rw [same]
          exact ⟨_, .closed empty gone⟩
      | ok value =>
          obtain ⟨queue, popped, rfl⟩ := Channel.poll_ok polled
          cases puts : exchange.waitingPuts with
          | nil =>
              have same : exchange.take = (some (.ok value), { exchange with
                  channel := { exchange.channel with buffer := queue } }) := by
                simp [take, polled, puts]
              rw [same]
              exact ⟨_, .pops popped puts⟩
          | cons waiting rest =>
              refine ⟨[(waiting.ticket, .put (.ok ()))], ?_⟩
              rw [take, polled, puts]
              exact .refills popped puts

/-- Listening to the token adds nothing but that an attempt may be given up. -/
theorem orCancelled_eq {α : Type} (exchange : Exchange) (heed : Bool)
    (attempt : Option (Except ChannelError α) × Exchange) :
    exchange.orCancelled heed attempt = attempt ∨
      exchange.cancelled = true ∧
        exchange.orCancelled heed attempt =
          (some (.error .cancelled), exchange) := by
  unfold orCancelled
  split
  · rename_i tripped
    exact .inr ⟨(Bool.and_eq_true_iff.mp tripped).1, rfl⟩
  · exact .inl rfl

theorem exists_attemptPut (exchange : Exchange) (value : Word)
    (patient heed : Bool) :
    ∃ replies,
      exchange.Puts value (exchange.attemptPut value patient heed).1 replies
        (exchange.attemptPut value patient heed).2 := by
  unfold attemptPut putOrCancel
  split
  · exact exchange.exists_puts value
  · split
    · rcases exchange.orCancelled_eq heed (exchange.put value) with
        same | ⟨tripped, same⟩
      · rw [same]
        exact exchange.exists_puts value
      · rw [same]
        exact ⟨_, .cancelled tripped ‹_›⟩
    · exact exchange.exists_puts value

theorem exists_attemptTake (exchange : Exchange) (patient heed : Bool) :
    ∃ replies,
      exchange.Takes (exchange.attemptTake patient heed).1 replies
        (exchange.attemptTake patient heed).2 := by
  unfold attemptTake takeOrCancel
  split
  · exact exchange.exists_takes
  · rcases exchange.orCancelled_eq heed exchange.take with
      same | ⟨tripped, same⟩
    · rw [same]
      exact exchange.exists_takes
    · rw [same]
      exact ⟨_, .cancelled tripped⟩

/-! ## What attempts keep -/

section Attempts

variable {exchange after : Exchange} {value : Word}
  {replies : List (Nat × Reply)}

theorem Consistent.waitingTakes_eq_nil (consistent : exchange.Consistent)
    (full : exchange.waitingPuts ≠ []) : exchange.waitingTakes = [] := by
  by_contra takes
  exact full (consistent.hungry takes).2

theorem perm_of_served_put {waiting : WaitingPut} {rest : List WaitingPut}
    {answer : Reply} (puts : exchange.waitingPuts = waiting :: rest) :
    List.Perm
      { exchange.reply waiting.ticket answer with waitingPuts := rest }.tickets
      exchange.tickets := by
  apply List.perm_iff_count.mpr
  intro ticket
  simp only [tickets, reply, puts, List.count_append, List.map_append,
    List.map_cons, List.map_nil, List.count_cons, List.count_nil]
  omega

theorem perm_of_served_take {waiting : WaitingTake} {rest : List WaitingTake}
    {answer : Reply} (takes : exchange.waitingTakes = waiting :: rest) :
    List.Perm
      { exchange.reply waiting.ticket answer with waitingTakes := rest }.tickets
      exchange.tickets := by
  apply List.perm_iff_count.mpr
  intro ticket
  simp only [tickets, reply, takes, List.count_append, List.map_append,
    List.map_cons, List.map_nil, List.count_cons, List.count_nil]
  omega

theorem Puts.sound {result : Option (Except ChannelError Unit)}
    (puts : exchange.Puts value result replies after)
    (sound : exchange.Sound) : after.Sound := by
  cases puts with
  | @hands waiting rest takes =>
      have waits : exchange.waitingTakes ≠ [] := by simp [takes]
      obtain ⟨empty, unstuffed⟩ := sound.hungry waits
      have receivers_eq := sound.receivers_eq
      rw [takes, List.length_cons] at receivers_eq
      constructor
      · constructor
        · exact (Channel.senders_dropReceiver _).trans sound.senders_eq
        · have fewer := exchange.channel.receivers_dropReceiver
          show exchange.channel.dropReceiver.receivers =
            exchange.receivers + rest.length
          omega
        · intro _
          exact ⟨Channel.contents_dropReceiver_of_nil empty, unstuffed⟩
        · intro stuffed
          exact absurd unstuffed stuffed
        · exact sound.fits.dropReceiver
        · exact (perm_of_served_take takes).trans sound.tickets
      · intro _
        rw [Channel.senders_dropReceiver]
        exact sound.supplied waits
      · intro stuffed
        exact absurd unstuffed stuffed
  | pushes takes attended room =>
      have unstuffed : exchange.waitingPuts = [] := by
        by_contra stuffed
        rw [(sound.stuffed stuffed).2] at room
        cases room
      constructor
      · constructor
        · exact sound.senders_eq
        · exact sound.receivers_eq
        · exact fun waits => absurd takes waits
        · exact fun stuffed => absurd unstuffed stuffed
        · exact Channel.fits_push room value
        · exact sound.tickets
      · exact sound.supplied
      · exact sound.attended
  | closed | full | cancelled | waits => exact sound

theorem Puts.begun_eq {result : Option (Except ChannelError Unit)}
    (puts : exchange.Puts value result replies after) :
    after.begun = exchange.begun := by
  cases puts <;> rfl

theorem Takes.begun_eq {result : Option (Except ChannelError Word)}
    (takes : exchange.Takes result replies after) :
    after.begun = exchange.begun := by
  cases takes <;> rfl

theorem Takes.sound {result : Option (Except ChannelError Word)}
    (takes : exchange.Takes result replies after) (sound : exchange.Sound) :
    after.Sound := by
  cases takes with
  | @refills value queue waiting rest popped puts =>
      have stuffed : exchange.waitingPuts ≠ [] := by simp [puts]
      have unhungry := sound.waitingTakes_eq_nil stuffed
      obtain ⟨cancellable, full⟩ := sound.stuffed stuffed
      have senders_eq := sound.senders_eq
      rw [puts, List.length_cons] at senders_eq
      have same_length : queue.length + 1 = exchange.channel.length := by
        have front := congrArg List.length (Queue.toList_of_pop? popped)
        rw [List.length_cons, Queue.length_toList, Queue.length_toList] at front
        exact front.symm
      constructor
      · constructor
        · show exchange.channel.senders - 1 = exchange.senders + rest.length
          omega
        · exact sound.receivers_eq
        · exact fun waits => absurd unhungry waits
        · intro _
          refine ⟨cancellable, ?_⟩
          show exchange.channel.policy.hasRoom (queue.length + 1) = false
          rw [same_length]
          exact full
        · intro capacity onFull policy
          show queue.length + 1 ≤ capacity
          rw [same_length]
          exact sound.fits capacity onFull policy
        · exact (perm_of_served_put puts).trans sound.tickets
      · exact fun waits => absurd unhungry waits
      · exact fun _ => sound.attended stuffed
  | pops popped puts =>
      have unhungry : exchange.waitingTakes = [] := by
        by_contra waits
        have empty := (sound.hungry waits).1
        rw [Channel.contents, Queue.toList_of_pop? popped] at empty
        cases empty
      constructor
      · constructor
        · exact sound.senders_eq
        · exact sound.receivers_eq
        · exact fun waits => absurd unhungry waits
        · exact fun stuffed => absurd puts stuffed
        · exact sound.fits.pop popped
        · exact sound.tickets
      · exact fun waits => absurd unhungry waits
      · exact fun stuffed => absurd puts stuffed
  | @meets waiting rest empty puts =>
      have stuffed : exchange.waitingPuts ≠ [] := by simp [puts]
      have unhungry := sound.waitingTakes_eq_nil stuffed
      have senders_eq := sound.senders_eq
      rw [puts, List.length_cons] at senders_eq
      constructor
      · constructor
        · show exchange.channel.senders - 1 = exchange.senders + rest.length
          omega
        · exact sound.receivers_eq
        · exact fun waits => absurd unhungry waits
        · exact fun _ => sound.stuffed stuffed
        · exact sound.fits
        · exact (perm_of_served_put puts).trans sound.tickets
      · exact fun waits => absurd unhungry waits
      · exact fun _ => sound.attended stuffed
  | closed | cancelled | waits => exact sound

/-! ## Giving up -/

theorem count_failed {ω : Type} (ticketOf : ω → Nat) (answer : ω → Reply)
    (fails : ω → Bool) (waiting : List ω) (ticket : Nat) :
    ((waiting.filter fun each => !fails each).map ticketOf).count ticket +
        (((waiting.filter fails).map fun each =>
          (ticketOf each, answer each)).map Prod.fst).count ticket =
      (waiting.map ticketOf).count ticket := by
  have parts := (List.filter_append_perm fails waiting).map ticketOf
  have counted := parts.count_eq ticket
  rw [List.map_append, List.count_append, Nat.add_comm] at counted
  rw [List.map_map]
  exact counted

theorem failTakes_channel_of_stuffed (consistent : exchange.Consistent)
    (stuffed : exchange.waitingPuts ≠ []) (error : ChannelError)
    (fails : WaitingTake → Bool) :
    (exchange.failTakes error fails).channel = exchange.channel := by
  rw [failTakes, consistent.waitingTakes_eq_nil stuffed]
  rfl

theorem Consistent.failTakes (consistent : exchange.Consistent)
    (error : ChannelError) (fails : WaitingTake → Bool) :
    (exchange.failTakes error fails).Consistent := by
  have lost := exchange.channel.loses_foldl (exchange.waitingTakes.filter fails)
  have parts : exchange.waitingTakes.length = _ :=
    List.length_eq_length_filter_add fails
  have receivers_eq := consistent.receivers_eq
  constructor
  · exact lost.senders.trans consistent.senders_eq
  · apply lost.receivers.trans
    show exchange.channel.receivers - _ = exchange.receivers +
      (exchange.waitingTakes.filter fun waiting => !fails waiting).length
    omega
  · intro remain
    have waits : exchange.waitingTakes ≠ [] := by
      intro none
      simp [Exchange.failTakes, none] at remain
    obtain ⟨empty, unstuffed⟩ := consistent.hungry waits
    exact ⟨lost.empty empty, unstuffed⟩
  · intro stuffed
    rw [failTakes_channel_of_stuffed consistent stuffed]
    exact consistent.stuffed stuffed
  · exact lost.fits consistent.fits
  · apply List.Perm.trans ?_ consistent.tickets
    apply List.perm_iff_count.mpr
    intro ticket
    have failed := count_failed (fun waiting => waiting.ticket)
      (fun _ => .take (.error error)) fails exchange.waitingTakes ticket
    beta_reduce at failed
    simp only [Exchange.tickets, Exchange.failTakes, List.count_append,
      List.map_append]
    omega

theorem failPuts_eq_of_hungry (consistent : exchange.Consistent)
    (waits : exchange.waitingTakes ≠ []) (error : ChannelError)
    (fails : WaitingPut → Bool) :
    exchange.failPuts error fails = exchange := by
  rw [failPuts, (consistent.hungry waits).2]
  simp only [List.filter_nil, List.foldl_nil, List.map_nil, List.append_nil]
  rw [← (consistent.hungry waits).2]

theorem Consistent.failPuts (consistent : exchange.Consistent)
    (error : ChannelError) (fails : WaitingPut → Bool) :
    (exchange.failPuts error fails).Consistent := by
  have parts : exchange.waitingPuts.length = _ :=
    List.length_eq_length_filter_add fails
  have senders_eq := consistent.senders_eq
  have lost :=
    exchange.channel.foldl_dropSender (exchange.waitingPuts.filter fails)
  dsimp only [Exchange.failPuts]
  rw [lost]
  constructor
  · show exchange.channel.senders - _ = exchange.senders +
      (exchange.waitingPuts.filter fun waiting => !fails waiting).length
    omega
  · exact consistent.receivers_eq
  · intro waits
    obtain ⟨empty, unstuffed⟩ := consistent.hungry waits
    refine ⟨empty, ?_⟩
    simp [unstuffed]
  · intro remain
    apply consistent.stuffed
    intro none
    simp [none] at remain
  · exact consistent.fits
  · apply List.Perm.trans ?_ consistent.tickets
    apply List.perm_iff_count.mpr
    intro ticket
    have failed := count_failed (fun waiting => waiting.ticket)
      (fun _ => .put (.error error)) fails exchange.waitingPuts ticket
    beta_reduce at failed
    simp only [Exchange.tickets, List.count_append, List.map_append]
    omega

theorem ne_nil_of_filter {ω : Type} {waiting : List ω} {remains : ω → Bool}
    (remain : waiting.filter remains ≠ []) : waiting ≠ [] := by
  rintro rfl
  exact remain rfl

theorem Sound.failTakes (sound : exchange.Sound) (error : ChannelError)
    (fails : WaitingTake → Bool) : (exchange.failTakes error fails).Sound := by
  have lost := exchange.channel.loses_foldl (exchange.waitingTakes.filter fails)
  refine ⟨sound.toConsistent.failTakes error fails, ?_, ?_⟩
  · intro remain
    exact lost.senders.trans_ne (sound.supplied (ne_nil_of_filter remain))
  · intro stuffed
    rw [failTakes_channel_of_stuffed sound.toConsistent stuffed]
    exact sound.attended stuffed

theorem Sound.failPuts (sound : exchange.Sound) (error : ChannelError)
    (fails : WaitingPut → Bool) : (exchange.failPuts error fails).Sound := by
  refine ⟨sound.toConsistent.failPuts error fails, ?_, ?_⟩
  · intro waits
    rw [failPuts_eq_of_hungry sound.toConsistent waits]
    exact sound.supplied waits
  · intro remain
    dsimp only [Exchange.failPuts]
    rw [Channel.foldl_dropSender]
    exact sound.attended (ne_nil_of_filter remain)

theorem Sound.cancel (sound : exchange.Sound) : exchange.cancel.Sound := by
  have ends := (sound.failTakes .cancelled fun waiting =>
    !waiting.patient).failPuts .cancelled fun waiting => !waiting.patient
  exact ⟨⟨ends.senders_eq, ends.receivers_eq, ends.hungry, ends.stuffed,
    ends.fits, ends.tickets⟩, ends.supplied, ends.attended⟩

private theorem sound_of_supplied (consistent : exchange.Consistent)
    (supplied : exchange.waitingTakes ≠ [] → exchange.channel.senders ≠ 0) :
    Sound
      (if exchange.channel.receivers = 0 then
        exchange.failPuts .closed fun _ => true
      else exchange) := by
  split
  · refine ⟨consistent.failPuts _ _, ?_, ?_⟩
    · intro waits
      rw [failPuts_eq_of_hungry consistent waits]
      exact supplied waits
    · intro stuffed
      simp [Exchange.failPuts] at stuffed
  · rename_i attended
    exact ⟨consistent, supplied, fun _ => attended⟩

/-- Once those who wait for a side that is gone have been told so, all is
well. -/
theorem Consistent.settle (consistent : exchange.Consistent) :
    exchange.settle.Sound := by
  unfold Exchange.settle
  split
  · apply sound_of_supplied (consistent.failTakes _ _)
    intro waits
    simp [Exchange.failTakes] at waits
  · rename_i supplied
    exact sound_of_supplied consistent fun _ => supplied

/-! ## Beginning to wait -/

theorem perm_range_succ {tickets : List Nat} {begun : Nat}
    (perm : tickets.Perm (List.range begun)) :
    (begun :: tickets).Perm (List.range (begun + 1)) := by
  rw [List.range_succ]
  exact (perm.cons begun).trans (List.perm_append_singleton begun _).symm

private theorem sound_of_reply {ticket : Nat} {answer : Reply}
    (sound : exchange.Sound) (fresh : ticket = exchange.begun) :
    Sound
      { exchange.reply ticket answer with begun := ticket + 1 } := by
  refine ⟨⟨sound.senders_eq, sound.receivers_eq, sound.hungry, sound.stuffed,
    sound.fits, ?_⟩, sound.supplied, sound.attended⟩
  subst fresh
  apply List.Perm.trans ?_ (perm_range_succ sound.tickets)
  apply List.perm_iff_count.mpr
  intro other
  simp only [tickets, reply, List.count_append, List.map_append, List.map_cons,
    List.map_nil, List.count_cons, List.count_nil]
  omega

theorem Sound.beginPut (sound : exchange.Sound) (value : Word)
    (patient heed : Bool) : (exchange.beginPut value patient heed).Sound := by
  obtain ⟨replies, puts⟩ := exchange.exists_attemptPut value patient heed
  unfold Exchange.beginPut
  rcases attempt : exchange.attemptPut value patient heed with
    ⟨_ | result, after⟩ <;> rw [attempt] at puts
  · cases puts with
    | waits unhungry attended cancellable full =>
        have senders_eq : after.channel.senders =
            after.senders + after.waitingPuts.length := sound.senders_eq
        constructor
        · constructor
          · show after.channel.senders + 1 = after.senders + List.length _
            rw [List.length_append, List.length_singleton]
            omega
          · exact sound.receivers_eq
          · exact fun waits => absurd unhungry waits
          · exact fun _ => ⟨cancellable, full⟩
          · exact sound.fits
          · apply List.Perm.trans ?_ (perm_range_succ sound.tickets)
            apply List.perm_iff_count.mpr
            intro other
            simp only [tickets, List.count_append, List.map_append,
              List.map_cons, List.map_nil, List.count_cons, List.count_nil]
            omega
        · exact fun waits => absurd unhungry waits
        · exact fun _ => attended
  · exact sound_of_reply (puts.sound sound) puts.begun_eq.symm

theorem Sound.beginTake (sound : exchange.Sound) (patient heed : Bool) :
    (exchange.beginTake patient heed).Sound := by
  obtain ⟨replies, takes⟩ := exchange.exists_attemptTake patient heed
  unfold Exchange.beginTake
  rcases attempt : exchange.attemptTake patient heed with
    ⟨_ | result, after⟩ <;> rw [attempt] at takes
  · cases takes with
    | waits empty supplied unstuffed =>
        have receivers_eq : after.channel.receivers =
            after.receivers + after.waitingTakes.length := sound.receivers_eq
        constructor
        · constructor
          · exact sound.senders_eq
          · show after.channel.receivers + 1 = after.receivers + List.length _
            rw [List.length_append, List.length_singleton]
            omega
          · exact fun _ => ⟨empty, unstuffed⟩
          · exact fun stuffed => absurd unstuffed stuffed
          · exact sound.fits
          · apply List.Perm.trans ?_ (perm_range_succ sound.tickets)
            apply List.perm_iff_count.mpr
            intro other
            simp only [tickets, List.count_append, List.map_append,
              List.map_cons, List.map_nil, List.count_cons, List.count_nil]
            omega
        · exact fun _ => supplied
        · exact fun stuffed => absurd unstuffed stuffed
  · exact sound_of_reply (takes.sound sound) takes.begun_eq.symm

/-! ## Handles -/

theorem Sound.cloneSender (sound : exchange.Sound) :
    exchange.cloneSender.Sound := by
  have senders_eq := sound.senders_eq
  refine ⟨⟨?_, sound.receivers_eq, sound.hungry, sound.stuffed, sound.fits,
    sound.tickets⟩, ?_, sound.attended⟩
  · show exchange.channel.senders + 1 =
      exchange.senders + 1 + exchange.waitingPuts.length
    omega
  · exact fun _ => Nat.succ_ne_zero _

theorem Sound.cloneReceiver (sound : exchange.Sound) :
    exchange.cloneReceiver.Sound := by
  have receivers_eq := sound.receivers_eq
  refine ⟨⟨sound.senders_eq, ?_, sound.hungry, sound.stuffed, sound.fits,
    sound.tickets⟩, sound.supplied, ?_⟩
  · show exchange.channel.receivers + 1 =
      exchange.receivers + 1 + exchange.waitingTakes.length
    omega
  · exact fun _ => Nat.succ_ne_zero _

theorem Consistent.withoutSender (consistent : exchange.Consistent)
    (held : exchange.senders ≠ 0) :
    Consistent
      { exchange with
        channel := exchange.channel.dropSender
        senders := exchange.senders - 1 } := by
  have senders_eq := consistent.senders_eq
  refine ⟨?_, consistent.receivers_eq, consistent.hungry, consistent.stuffed,
    consistent.fits, consistent.tickets⟩
  show exchange.channel.senders - 1 =
    exchange.senders - 1 + exchange.waitingPuts.length
  omega

theorem Consistent.withoutReceiver (consistent : exchange.Consistent)
    (held : exchange.receivers ≠ 0) :
    Consistent
      { exchange with
        channel := exchange.channel.dropReceiver
        receivers := exchange.receivers - 1 } := by
  have receivers_eq := consistent.receivers_eq
  refine ⟨?_, ?_, ?_, ?_, consistent.fits.dropReceiver, consistent.tickets⟩
  · exact (Channel.senders_dropReceiver _).trans consistent.senders_eq
  · apply (Channel.receivers_dropReceiver _).trans
    show exchange.channel.receivers - 1 =
      exchange.receivers - 1 + exchange.waitingTakes.length
    omega
  · intro waits
    obtain ⟨empty, unstuffed⟩ := consistent.hungry waits
    exact ⟨Channel.contents_dropReceiver_of_nil empty, unstuffed⟩
  · intro stuffed
    obtain ⟨cancellable, full⟩ := consistent.stuffed stuffed
    have bounded : exchange.channel.policy ≠ .unbounded := by
      intro unbounded
      rw [unbounded] at cancellable
      cases cancellable
    rw [Channel.policy_dropReceiver, Channel.length_dropReceiver bounded]
    exact ⟨cancellable, full⟩

theorem Sound.dropSender (sound : exchange.Sound)
    (held : exchange.senders ≠ 0) : exchange.dropSender.Sound :=
  (sound.toConsistent.withoutSender held).settle

theorem Sound.dropReceiver (sound : exchange.Sound)
    (held : exchange.receivers ≠ 0) : exchange.dropReceiver.Sound :=
  (sound.toConsistent.withoutReceiver held).settle

end Attempts

end Exchange

end CellMachines
