import CellMachines.Proofs.Network.Words

/-!
# The ledger of a single executor

A single executor stands between somebody who puts words on its input link and
somebody who takes words from its output link.  A ledger keeps the words that
have passed the two links, and a network tallies with it as long as nobody but
its executor trips the token before that is on its way out (`Tallies`).  Every
action of the executor and every use that the others make of the links keeps
the two in agreement.  From the ledger one can tell what the machine has done
and, once its executor is on its way out, why (`Cause`).
-/

namespace CellMachines

/-- The words that have passed the links of a single executor. -/
structure Ledger where
  /-- Put on the input link. -/
  given : List Word
  /-- Taken from there by the executor. -/
  taken : List Word
  /-- Put on the output link by the executor. -/
  sent : List Word
  /-- Taken from there. -/
  got : List Word
  deriving DecidableEq, Repr

namespace Ledger

def empty : Ledger := ⟨[], [], [], []⟩

def give (ledger : Ledger) (word : Word) : Ledger :=
  { ledger with given := ledger.given ++ [word] }

def get (ledger : Ledger) (word : Word) : Ledger :=
  { ledger with got := ledger.got ++ [word] }

/-- The ledger after an action of the executor. -/
def after (ledger : Ledger) (event : Option (Event 1)) : Ledger :=
  { ledger with
    taken := ledger.taken ++ Event.takings Network.sole event.toList
    sent := ledger.sent ++ Event.sendings Network.sole event.toList }

@[simp] theorem taken_after (ledger : Ledger) (dealing : Dealing) :
    (ledger.after (dealing.event? Network.sole)).taken =
      ledger.taken ++ dealing.received := by
  simp [after, Dealing.takings_event?]

@[simp] theorem sent_after (ledger : Ledger) (dealing : Dealing) :
    (ledger.after (dealing.event? Network.sole)).sent =
      ledger.sent ++ dealing.sent := by
  simp [after, Dealing.sendings_event?]

end Ledger

namespace Network

variable {first : Machine} {ledger later : Ledger}
  {network after between : Network 1} {dealing : Dealing} {next : Executor}
  {result : Except Failure Unit} {word : Word} {heed : Bool}

/-! ## Actions -/

/-- One network follows from another by an action of its only executor. -/
def Advances (network after : Network 1) : Prop :=
  ∃ heed, network.advance sole heed = some after

theorem Advances.exists_turn (advances : network.Advances after) :
    ∃ dealing between,
      (network.executor sole).Turn network.tripped dealing
        (after.executor sole) ∧
      network.Deals sole dealing between ∧
      after = between.updateExecutor sole fun _ => after.executor sole := by
  obtain ⟨heed, advances⟩ := advances
  have acts := acts_of_advance advances
  generalize network.event? sole heed = event at acts
  cases acts with
  | @turn dealing next between turn deals =>
      exact ⟨dealing, between, by simpa using turn, deals, by simp⟩

theorem Deals.senders_inputLink (deals : network.Deals sole dealing between)
    (chain : network.topology = .chain) :
    (between.link (inputLink sole)).senders =
      (network.link (inputLink sole)).senders := by
  by_cases closes : dealing = .closesOutput
  · subst closes
    cases deals
    rw [chain, link_updateLink, if_neg (by decide)]
  · exact deals.senders_eq closes _

theorem Deals.received_append_contents
    (deals : network.Deals sole dealing between)
    (keeps : dealing ≠ .closesInput)
    (chain : network.topology = .chain) :
    dealing.received ++ (between.link (inputLink sole)).contents =
      (network.link (inputLink sole)).contents := by
  have unwired : upstream? network.topology sole ≠ some sole := by
    rw [chain]
    decide
  have same := deals.contents_eq keeps sole
  rw [Dealing.takings_event?, if_pos rfl, Dealing.arrivals_event?,
    if_neg unwired, List.append_nil] at same
  exact same

theorem Deals.contents_append_sent
    (deals : network.Deals sole dealing between)
    (chain : network.topology = .chain) :
    (between.link (outputLink .chain sole)).contents =
      (network.link (outputLink .chain sole)).contents ++ dealing.sent := by
  have elsewhere : outputLink .chain sole ≠ inputLink sole := by decide
  cases deals with
  | receives | closesInput => simp [elsewhere, Dealing.sent]
  | sends => simp [chain, Dealing.sent]
  | closesOutput =>
      simp [chain, Dealing.sent, Channel.dropSender, Channel.contents]
  | _ => simp [Dealing.sent]

/-! ## Why an executor leaves -/

/-- Why a single executor is on its way out: its machine has ended, or it has
found nothing left on its input link or no room on its output link. -/
inductive Cause (first : Machine) (ledger : Ledger) (network : Network 1) :
    Except Failure Unit → Prop where
  | stopped {before ins : List Word} {machine : Machine}
      {result : Except Failure Unit} :
      first.Walk before (network.executor sole).emitted.toList machine →
      machine.Stops ins result (network.executor sole).machine →
      before ++ ins = ledger.taken → Cause first ledger network result
  | starved {machine : Machine} {target : Nat} :
      first.Walk ledger.given (network.executor sole).emitted.toList machine →
      machine.request = .ok (.input target) →
      (network.executor sole).machine = machine.failed .interrupted →
      (network.link (inputLink sole)).senders = 0 →
      Cause first ledger network (.error .interrupted)
  | overflowed {machine : Machine} {word : Word} {capacity : Nat}
      {early : List Word} :
      first.Walk ledger.taken (network.executor sole).emitted.toList machine →
      machine.request = .ok (.output word) →
      (network.executor sole).machine =
        machine.failed (.channelOverflow capacity) →
      (network.link (outputLink .chain sole)).policy = .failFast capacity →
      early <+: ledger.got →
      (network.executor sole).emitted.toList.length =
        early.length + capacity →
      Cause first ledger network (.error (.channelOverflow capacity))

/-- Once the executor is on its way out, its cause stays whatever the others
do. -/
theorem Cause.stays (cause : Cause first ledger network result)
    (machine : (after.executor sole).machine = (network.executor sole).machine)
    (emitted : (after.executor sole).emitted.toList =
      (network.executor sole).emitted.toList)
    (policy : (after.link (outputLink .chain sole)).policy =
      (network.link (outputLink .chain sole)).policy)
    (supplied : (network.link (inputLink sole)).senders = 0 →
      (after.link (inputLink sole)).senders = 0 ∧ later.given = ledger.given)
    (taken : later.taken = ledger.taken) (got : ledger.got <+: later.got) :
    Cause first later after result := by
  cases cause with
  | stopped walk stops split =>
      rw [← machine] at stops
      rw [← emitted] at walk
      exact .stopped walk stops (split.trans taken.symm)
  | starved walk asks failed unsupplied =>
      obtain ⟨unsupplied, given⟩ := supplied unsupplied
      rw [← emitted, ← given] at walk
      exact .starved walk asks (machine.trans failed) unsupplied
  | overflowed walk asks failed bounded early count =>
      rw [← emitted] at walk count
      rw [← taken] at walk
      exact .overflowed walk asks (machine.trans failed) (policy.trans bounded)
        (early.trans got) count

/-! ## Tallying -/

/-- The network is what the ledger makes it, and only the executor itself and
the ends of its links make it leave. -/
structure Tallies (first : Machine) (ledger : Ledger) (network : Network 1) :
    Prop where
  chain : network.topology = .chain
  explained : Executor.Explained first ledger.taken (network.executor sole)
  cause : ∀ result, (network.executor sole).outcome? = some result →
    Cause first ledger network result
  alarm : network.tripped = true → (network.executor sole).outcome? ≠ none
  reading : (network.link (inputLink sole)).receivers = 0 →
    (network.executor sole).hasEnded = true
  taken_prefix : ledger.taken <+: ledger.given
  taken_append : (network.executor sole).hasEnded = false →
    ledger.taken ++ (network.link (inputLink sole)).contents = ledger.given
  sent_prefix : ledger.sent <+: (network.executor sole).emitted.toList
  sent_eq : (network.link (outputLink .chain sole)).receivers ≠ 0 →
    ledger.sent = (network.executor sole).emitted.toList
  got_prefix : ledger.got <+: ledger.sent
  got_append : (network.link (outputLink .chain sole)).receivers ≠ 0 →
    ledger.got ++ (network.link (outputLink .chain sole)).contents =
      ledger.sent
  fits : ∀ link, (network.link link).Fits

/-- An executor that has yet to start, between two empty links. -/
theorem tallies_start {program : Program} {limits : Limits}
    (chain : network.topology = .chain)
    (executor : network.executor sole = Executor.start program limits)
    (empty : ∀ link, (network.link link).contents = [])
    (read : (network.link (inputLink sole)).receivers ≠ 0)
    (quiet : network.tripped = false) :
    network.Tallies (Machine.start program limits) .empty := by
  constructor
  · exact chain
  · rw [executor]
    exact Executor.explained_start program limits
  · rw [executor]
    exact nofun
  · rw [quiet]
    exact nofun
  · exact fun unread => absurd unread read
  · exact List.prefix_refl _
  · intro _
    rw [empty]
    rfl
  · exact List.nil_prefix
  · intro _
    rw [executor]
    rfl
  · exact List.prefix_refl _
  · intro _
    rw [empty]
    rfl
  · intro link capacity onFull _
    rw [← Channel.length_contents, empty]
    exact Nat.zero_le _

namespace Tallies

section Turn

variable (tallies : network.Tallies first ledger)
  (turn : (network.executor sole).Turn network.tripped dealing next)
  (deals : network.Deals sole dealing between)
include tallies turn deals

private theorem cause_of_leaving
    (atWork : (network.executor sole).outcome? = none)
    (outcome : next.outcome? = some result) :
    Cause first (ledger.after (dealing.event? sole))
      (between.updateExecutor sole fun _ => next) result := by
  have walk := tallies.explained.underway atWork
  have untripped : network.tripped ≠ true :=
    fun tripped => tallies.alarm tripped atWork
  have reading := turn.not_ended
  cases turn with
  | look idle =>
      have quiet : network.tripped = false := by simpa using untripped
      simp [Executor.outcome?, Executor.looked, quiet] at outcome
  | stop _ stops | spoil _ stops =>
      rw [Executor.outcome?_leaving, Option.some.injEq] at outcome
      subst outcome
      apply Cause.stopped
      · rw [executor_acted]
        exact walk
      · rw [executor_acted]
        exact stops
      · simp [Dealing.received]
  | @starve target _ asks =>
      cases outcome
      cases deals with
      | starves reason =>
          obtain ⟨empty, unsupplied⟩ := reason.resolve_left untripped
          have given := tallies.taken_append reading
          rw [empty, List.append_nil] at given
          rw [given] at walk
          apply Cause.starved
          · rw [executor_acted]
            exact walk
          · exact asks
          · rw [executor_acted]
          · exact unsupplied
  | @fail word error _ asks =>
      rw [Executor.outcome?_leaving, Option.some.injEq] at outcome
      subst outcome
      cases deals with
      | @overflows capacity policy full attended =>
          rw [tallies.chain] at policy full attended
          have bound := tallies.fits _ capacity _ policy
          rw [policy] at full
          simp only [Policy.hasRoom, Policy.failFast,
            decide_eq_false_iff_not] at full
          have sent := tallies.got_append attended
          rw [tallies.sent_eq attended] at sent
          apply Cause.overflowed
          · rw [executor_acted]
            simpa [Dealing.received] using walk
          · exact asks
          · rw [executor_acted]
            rfl
          · exact policy
          · exact List.prefix_refl ledger.got
          · rw [executor_acted, ← sent, List.length_append,
              Channel.length_contents]
            omega
      | cut _ tripped => exact absurd tripped untripped
  | trip leaving | closeOutput leaving | closeInput leaving =>
      simp [Executor.outcome?, leaving] at atWork
  | complete | receive | send | discard =>
      simp [Executor.outcome?] at outcome

private theorem cause_after (outcome : next.outcome? = some result) :
    Cause first (ledger.after (dealing.event? sole))
      (between.updateExecutor sole fun _ => next) result := by
  cases before : (network.executor sole).outcome? with
  | none => exact tallies.cause_of_leaving turn deals before outcome
  | some earlier =>
      obtain ⟨stays, machine, received, emitted⟩ := turn.outcome?_eq_some before
      obtain rfl : earlier = result :=
        Option.some.inj (stays.symm.trans outcome)
      apply (tallies.cause earlier before).stays
      · rw [executor_acted]
        exact machine
      · rw [executor_acted, turn.emitted_eq, emitted, List.append_nil]
      · exact deals.policy_eq _
      · intro unsupplied
        refine ⟨?_, rfl⟩
        rw [link_updateExecutor]
        rw [deals.senders_inputLink tallies.chain]
        exact unsupplied
      · rw [Ledger.taken_after, received, List.append_nil]
      · exact List.prefix_refl _

private theorem taken_append_after (keeps : dealing ≠ .closesInput) :
    (ledger.after (dealing.event? sole)).taken ++
        (between.link (inputLink sole)).contents =
      ledger.given := by
  rw [Ledger.taken_after, List.append_assoc,
    deals.received_append_contents keeps tallies.chain]
  exact tallies.taken_append turn.not_ended

private theorem taken_prefix_after :
    (ledger.after (dealing.event? sole)).taken <+: ledger.given := by
  by_cases closes : dealing = .closesInput
  · subst closes
    rw [Ledger.taken_after]
    simpa [Dealing.received] using tallies.taken_prefix
  · exact ⟨_, tallies.taken_append_after turn deals closes⟩

private theorem sent_prefix_after :
    (ledger.after (dealing.event? sole)).sent <+: next.emitted.toList := by
  rw [Ledger.sent_after, turn.emitted_eq]
  cases deals with
  | sends attended _ =>
      rw [tallies.chain] at attended
      rw [tallies.sent_eq attended]
      exact List.prefix_refl _
  | discards =>
      simpa [Dealing.sent] using
        tallies.sent_prefix.trans (List.prefix_append _ _)
  | _ => simpa [Dealing.sent, Dealing.emitted] using tallies.sent_prefix

private theorem sent_eq_after
    (attended : (between.link (outputLink .chain sole)).receivers ≠ 0) :
    (ledger.after (dealing.event? sole)).sent = next.emitted.toList := by
  have same : (between.link (outputLink .chain sole)).receivers =
      (network.link (outputLink .chain sole)).receivers := deals.receivers_last
  rw [same] at attended
  rw [Ledger.sent_after, turn.emitted_eq, tallies.sent_eq attended]
  cases deals with
  | discards gone =>
      rw [tallies.chain] at gone
      exact absurd gone attended
  | _ => rfl

omit turn in
private theorem got_append_after
    (attended : (between.link (outputLink .chain sole)).receivers ≠ 0) :
    ledger.got ++ (between.link (outputLink .chain sole)).contents =
      (ledger.after (dealing.event? sole)).sent := by
  have same : (between.link (outputLink .chain sole)).receivers =
      (network.link (outputLink .chain sole)).receivers := deals.receivers_last
  rw [same] at attended
  rw [deals.contents_append_sent tallies.chain, ← List.append_assoc,
    tallies.got_append attended, Ledger.sent_after]

end Turn

theorem advance (tallies : network.Tallies first ledger)
    (advances : network.advance sole heed = some after) :
    after.Tallies first (ledger.after (network.event? sole heed)) := by
  have acts := acts_of_advance advances
  generalize network.event? sole heed = event at acts
  cases acts with
  | @turn dealing next between turn deals =>
      constructor
      · exact deals.topology_eq.trans tallies.chain
      · rw [executor_acted, Ledger.taken_after]
        exact turn.explained tallies.explained
      · rw [executor_acted]
        intro result outcome
        exact tallies.cause_after turn deals outcome
      · rw [executor_acted]
        exact deals.outcome?_ne_none turn tallies.alarm
      · rw [executor_acted]
        exact deals.hasEnded_of_unread turn tallies.reading
      · exact tallies.taken_prefix_after turn deals
      · rw [executor_acted]
        intro reading
        apply tallies.taken_append_after turn deals
        intro closes
        subst closes
        cases turn
        cases reading
      · rw [executor_acted]
        exact tallies.sent_prefix_after turn deals
      · rw [executor_acted, link_updateExecutor]
        exact tallies.sent_eq_after turn deals
      · rw [Ledger.sent_after]
        exact tallies.got_prefix.trans (List.prefix_append _ _)
      · rw [link_updateExecutor]
        exact tallies.got_append_after deals
      · exact deals.fits tallies.fits

/-! ### The others -/

/-- Whatever the others do to the links, the executor stays as it is. -/
private theorem cause_of_client (tallies : network.Tallies first ledger)
    (executor : after.executor sole = network.executor sole)
    (policy : (after.link (outputLink .chain sole)).policy =
      (network.link (outputLink .chain sole)).policy)
    (supplied : (network.link (inputLink sole)).senders = 0 →
      (after.link (inputLink sole)).senders = 0 ∧ later.given = ledger.given)
    (taken : later.taken = ledger.taken) (got : ledger.got <+: later.got)
    (outcome : (after.executor sole).outcome? = some result) :
    Cause first later after result := by
  rw [executor] at outcome
  apply (tallies.cause result outcome).stays _ _ policy supplied taken got
  · rw [executor]
  · rw [executor]

theorem give (tallies : network.Tallies first ledger)
    (supplied : (network.link (inputLink sole)).senders ≠ 0)
    (room : (network.link (inputLink sole)).policy.hasRoom
      (network.link (inputLink sole)).length = true) :
    (network.updateLink (inputLink sole) fun _ =>
      (network.link (inputLink sole)).push word).Tallies first
        (ledger.give word) := by
  have elsewhere : outputLink .chain sole ≠ inputLink sole := by decide
  constructor
  · exact tallies.chain
  · exact tallies.explained
  · intro result outcome
    refine tallies.cause_of_client rfl ?_ ?_ rfl (List.prefix_refl _) outcome
    · simp [elsewhere]
    · intro unsupplied
      exact absurd unsupplied supplied
  · exact tallies.alarm
  · simpa [Channel.push] using tallies.reading
  · exact tallies.taken_prefix.trans (List.prefix_append _ _)
  · intro reading
    have same := tallies.taken_append reading
    simp [Ledger.give, ← same]
  · exact tallies.sent_prefix
  · simpa [elsewhere, Ledger.give] using tallies.sent_eq
  · exact tallies.got_prefix
  · simpa [elsewhere, Ledger.give] using tallies.got_append
  · exact fits_updateLink tallies.fits (Channel.fits_push room word)

theorem get {rest : Queue Word} (tallies : network.Tallies first ledger)
    (attended : (network.link (outputLink .chain sole)).receivers ≠ 0)
    (popped : (network.link (outputLink .chain sole)).buffer.pop? =
      some (word, rest)) :
    (network.updateLink (outputLink .chain sole) fun _ =>
      { network.link (outputLink .chain sole) with
        buffer := rest }).Tallies first (ledger.get word) := by
  have elsewhere : inputLink sole ≠ outputLink .chain sole := by decide
  have sent : ledger.got ++ [word] ++ rest.toList = ledger.sent := by
    have same := tallies.got_append attended
    rw [Channel.contents, Queue.toList_of_pop? popped] at same
    simpa using same
  constructor
  · exact tallies.chain
  · exact tallies.explained
  · intro result outcome
    refine tallies.cause_of_client rfl ?_ ?_ rfl (List.prefix_append _ _)
      outcome
    · simp
    · simp [elsewhere, Ledger.get]
  · exact tallies.alarm
  · simpa [elsewhere] using tallies.reading
  · exact tallies.taken_prefix
  · simpa [elsewhere, Ledger.get] using tallies.taken_append
  · exact tallies.sent_prefix
  · simpa [Ledger.get] using tallies.sent_eq
  · exact ⟨_, sent⟩
  · intro _
    simpa [Channel.contents, Ledger.get] using sent
  · exact fits_updateLink tallies.fits ((tallies.fits _).pop popped)

theorem closeInput (tallies : network.Tallies first ledger) :
    (network.updateLink (inputLink sole) Channel.dropSender).Tallies first
      ledger := by
  have elsewhere : outputLink .chain sole ≠ inputLink sole := by decide
  constructor
  · exact tallies.chain
  · exact tallies.explained
  · intro result outcome
    refine tallies.cause_of_client rfl ?_ ?_ rfl (List.prefix_refl _) outcome
    · simp [elsewhere]
    · intro unsupplied
      simp [Channel.dropSender, unsupplied]
  · exact tallies.alarm
  · simpa [Channel.dropSender] using tallies.reading
  · exact tallies.taken_prefix
  · simpa [Channel.dropSender, Channel.contents] using tallies.taken_append
  · exact tallies.sent_prefix
  · simpa [elsewhere] using tallies.sent_eq
  · exact tallies.got_prefix
  · simpa [elsewhere] using tallies.got_append
  · have kept : (network.link (inputLink sole)).dropSender.Fits :=
      tallies.fits _
    exact fits_updateLink tallies.fits kept

theorem closeOutput (tallies : network.Tallies first ledger)
    (last : (network.link (outputLink .chain sole)).receivers ≤ 1) :
    (network.updateLink (outputLink .chain sole)
      Channel.dropReceiver).Tallies first ledger := by
  have elsewhere : inputLink sole ≠ outputLink .chain sole := by decide
  have gone : (network.link (outputLink .chain sole)).dropReceiver.receivers =
      0 := by
    rw [Channel.receivers_dropReceiver]
    exact Nat.sub_eq_zero_of_le last
  constructor
  · exact tallies.chain
  · exact tallies.explained
  · intro result outcome
    refine tallies.cause_of_client rfl ?_ ?_ rfl (List.prefix_refl _) outcome
    · simp [Channel.policy_dropReceiver]
    · simp [elsewhere]
  · exact tallies.alarm
  · simpa [elsewhere] using tallies.reading
  · exact tallies.taken_prefix
  · simpa [elsewhere] using tallies.taken_append
  · exact tallies.sent_prefix
  · simp [gone]
  · exact tallies.got_prefix
  · simp [gone]
  · exact fits_updateLink tallies.fits (tallies.fits _).dropReceiver

theorem trip (tallies : network.Tallies first ledger)
    (leaving : (network.executor sole).outcome? ≠ none) :
    network.trip.Tallies first ledger := by
  constructor
  · exact tallies.chain
  · exact tallies.explained
  · intro result outcome
    refine tallies.cause_of_client rfl rfl ?_ rfl (List.prefix_refl _) outcome
    exact fun unsupplied => ⟨unsupplied, rfl⟩
  · exact fun _ => leaving
  · exact tallies.reading
  · exact tallies.taken_prefix
  · exact tallies.taken_append
  · exact tallies.sent_prefix
  · exact tallies.sent_eq
  · exact tallies.got_prefix
  · exact tallies.got_append
  · exact tallies.fits

end Tallies

end Network

end CellMachines
