import CellMachines.Network
import CellMachines.Proofs.Channel.Attempt
import CellMachines.Proofs.Executor.Turn

/-!
# Turns in a network

What a network lets an executor deal, and what becomes of its links and its
token by that: `Deals` is the outer side of an executor's turn.  `advance`
performs nothing but turns whose dealing the network permits, so whatever is to
hold along every run needs to be looked at once for each kind of turn and once
for each kind of dealing.
-/

namespace CellMachines

/-- What happens to the words of a network in one action. -/
inductive Event (n : Nat) where
  | seeded (word : Word)
  | took (index : Fin n) (word : Word)
  /-- A word of a machine came onto the link it writes. -/
  | sent (index : Fin n) (word : Word)
  deriving DecidableEq, Repr

def Dealing.event? {n : Nat} (index : Fin n) : Dealing → Option (Event n)
  | .receives word => some (.took index word)
  | .sends word => some (.sent index word)
  | _ => none

namespace Network

variable {n : Nat} {network after : Network n} {index : Fin n} {heed : Bool}

@[simp] theorem executor_trip (network : Network n) (index : Fin n) :
    network.trip.executor index = network.executor index := rfl

@[simp] theorem link_trip (network : Network n) (index : Fin (n + 1)) :
    network.trip.link index = network.link index := rfl

@[simp] theorem tripped_trip (network : Network n) :
    network.trip.tripped = true := rfl

@[simp] theorem topology_trip (network : Network n) :
    network.trip.topology = network.topology := rfl

@[simp] theorem tripped_updateExecutor (network : Network n) (index : Fin n)
    (change : Executor → Executor) :
    (network.updateExecutor index change).tripped = network.tripped := rfl

@[simp] theorem topology_updateExecutor (network : Network n) (index : Fin n)
    (change : Executor → Executor) :
    (network.updateExecutor index change).topology = network.topology := rfl

theorem executor_acted (network : Network n) (index : Fin n)
    (next : Executor) :
    (network.updateExecutor index fun _ => next).executor index = next := by
  rw [executor_updateExecutor, if_pos rfl]

@[simp] theorem tripped_updateLink (network : Network n) (index : Fin (n + 1))
    (change : Channel → Channel) :
    (network.updateLink index change).tripped = network.tripped := rfl

@[simp] theorem topology_updateLink (network : Network n) (index : Fin (n + 1))
    (change : Channel → Channel) :
    (network.updateLink index change).topology = network.topology := rfl

@[ext] theorem ext {left right : Network n}
    (topology : left.topology = right.topology)
    (executors : ∀ index, left.executor index = right.executor index)
    (links : ∀ index, left.link index = right.link index)
    (tripped : left.tripped = right.tripped) : left = right := by
  cases left
  cases right
  simp only [mk.injEq]
  exact ⟨topology, Vector.ext fun index below => executors ⟨index, below⟩,
    Vector.ext fun index below => links ⟨index, below⟩, tripped⟩

theorem updateLink_same (network : Network n) (index : Fin (n + 1)) :
    (network.updateLink index fun _ => network.link index) = network := by
  ext other
  · rfl
  · rfl
  · rw [link_updateLink]
    split <;> simp_all
  · rfl

theorem updateLink_keeps {α : Type} (field : Channel → α) {index : Fin (n + 1)}
    {change : Channel → Channel}
    (keeps : field (change (network.link index)) = field (network.link index))
    (other : Fin (n + 1)) :
    field ((network.updateLink index change).link other) =
      field (network.link other) := by
  rw [link_updateLink]
  split
  · rename_i same
    rw [same, keeps]
  · rfl

/-- What the next action of an executor does to the words on the links. -/
def event? (network : Network n) (index : Fin n) (heed : Bool) :
    Option (Event n) :=
  match (network.executor index).intent with
  | .take =>
    let input := network.link (inputLink index)
    match input.pollOrCancel network.tripped heed with
    | .done (.ok word) _ => some (.took index word)
    | _ => none
  | .put word =>
    let output := network.link (outputLink network.topology index)
    match output.offerOrCancel word network.tripped heed with
    | .done (.ok ()) _ => some (.sent index word)
    | _ => none
  | _ => none

/-- The dealings that a network permits a machine, with the network after
each. -/
inductive Deals (network : Network n) (index : Fin n) :
    Dealing → Network n → Prop where
  | quiet : Deals network index .quiet network
  | receives {word : Word} {rest : Queue Word} :
      (network.link (inputLink index)).buffer.pop? = some (word, rest) →
      Deals network index (.receives word)
        (network.updateLink (inputLink index) fun _ =>
          { network.link (inputLink index) with buffer := rest })
  | starves :
      (network.tripped = true ∨ (network.link (inputLink index)).contents = [] ∧
        (network.link (inputLink index)).senders = 0) →
      Deals network index .starves network
  | sends {word : Word} :
      (network.link (outputLink network.topology index)).receivers ≠ 0 →
      (network.link (outputLink network.topology index)).policy.hasRoom
        (network.link (outputLink network.topology index)).length = true →
      Deals network index (.sends word)
        (network.updateLink (outputLink network.topology index) fun _ =>
          (network.link (outputLink network.topology index)).push word)
  | discards {word : Word} :
      (network.link (outputLink network.topology index)).receivers = 0 →
      network.tripped = false → Deals network index (.discards word) network
  | overflows {capacity : Nat} :
      (network.link (outputLink network.topology index)).policy =
        .failFast capacity →
      (network.link (outputLink network.topology index)).policy.hasRoom
        (network.link (outputLink network.topology index)).length = false →
      (network.link (outputLink network.topology index)).receivers ≠ 0 →
      Deals network index (.fails (.full capacity)) network
  | cut {error : ChannelError} :
      error.failure = .interrupted → network.tripped = true →
      Deals network index (.fails error) network
  | trips : Deals network index .trips network.trip
  | closesOutput :
      Deals network index .closesOutput
        (network.updateLink (outputLink network.topology index)
          Channel.dropSender)
  | closesInput :
      Deals network index .closesInput
        (network.updateLink (inputLink index) Channel.dropReceiver)

/-- A turn of a machine with a dealing that the network permits. -/
inductive Acts (network : Network n) (index : Fin n) :
    Option (Event n) → Network n → Prop where
  | turn {dealing : Dealing} {next : Executor} {between : Network n} :
      (network.executor index).Turn network.tripped dealing next →
      network.Deals index dealing between →
      Acts network index (dealing.event? index)
        (between.updateExecutor index fun _ => next)

theorem updateExecutor_eq (network : Network n) (index : Fin n)
    (change : Executor → Executor) :
    network.updateExecutor index change =
      network.updateExecutor index fun _ =>
        change (network.executor index) := by
  ext other
  · rfl
  · simp only [executor_updateExecutor]
    split <;> simp_all
  · rfl
  · rfl

private theorem acts_of_take
    (intends : (network.executor index).intent = .take)
    (advances : network.advance index heed = some after) :
    network.Acts index (network.event? index heed) after := by
  have stands := (network.executor index).activity_of_intent
  simp only [intends] at stands
  obtain ⟨busy, target, asks⟩ := stands
  simp only [advance, intends] at advances
  cases polled :
      (network.link (inputLink index)).pollOrCancel network.tripped heed with
  | waits => simp [polled] at advances
  | done result link =>
      simp only [polled, Option.some.injEq] at advances
      subst advances
      rw [updateExecutor_eq]
      cases result with
      | ok word =>
          obtain ⟨rest, popped, rfl⟩ := Channel.pollOrCancel_ok polled
          have acts := Acts.turn (Executor.turn_took busy asks)
            (.receives popped)
          simp only [event?, intends, polled]
          exact acts
      | error error =>
          obtain ⟨rfl, interrupted, reason⟩ := Channel.pollOrCancel_error polled
          have acts := Acts.turn
            (Executor.turn_took_error busy asks interrupted) (.starves reason)
          rw [updateLink_same]
          simp only [event?, intends, polled]
          exact acts

private theorem acts_of_put {word : Word}
    (intends : (network.executor index).intent = .put word)
    (advances : network.advance index heed = some after) :
    network.Acts index (network.event? index heed) after := by
  have stands := (network.executor index).activity_of_intent
  simp only [intends] at stands
  obtain ⟨busy, asks⟩ := stands
  simp only [advance, intends] at advances
  cases offered :
      (network.link (outputLink network.topology index)).offerOrCancel word
        network.tripped heed with
  | waits => simp [offered] at advances
  | done result link =>
      simp only [offered, Option.some.injEq] at advances
      subst advances
      rw [updateExecutor_eq]
      cases result with
      | ok =>
          obtain ⟨held, room, rfl⟩ := Channel.offerOrCancel_ok offered
          have acts := Acts.turn (Executor.turn_gave busy asks)
            (.sends held room)
          simp only [event?, intends, offered]
          exact acts
      | error error =>
          obtain ⟨rfl, reason⟩ := Channel.offerOrCancel_error offered
          rw [updateLink_same]
          simp only [event?, intends, offered]
          rcases reason with
            ⟨rfl, gone⟩ | ⟨capacity, rfl, policy⟩ | ⟨rfl, tripped⟩
          · -- only with the token tripped is a closed link a failure
            rcases Bool.eq_false_or_eq_true network.tripped with
              tripped | quiet
            · have turn : (network.executor index).Turn network.tripped
                  (.fails .closed) _ :=
                Executor.turn_gave_error busy asks (.inr tripped)
              exact Acts.turn turn (.cut rfl tripped)
            · have turn := Executor.turn_gave_closed busy asks quiet
              exact Acts.turn turn (.discards gone quiet)
          · have turn : (network.executor index).Turn network.tripped
                (.fails (.full capacity)) _ :=
              Executor.turn_gave_error busy asks (.inl (by simp))
            obtain ⟨attended, full⟩ := Channel.offerOrCancel_full offered
            exact Acts.turn turn (.overflows policy full attended)
          · have turn : (network.executor index).Turn network.tripped
                (.fails .cancelled) _ :=
              Executor.turn_gave_error busy asks (.inl (by simp))
            exact Acts.turn turn (.cut rfl tripped)

theorem acts_of_advance (advances : network.advance index heed = some after) :
    network.Acts index (network.event? index heed) after := by
  have stands := (network.executor index).activity_of_intent
  cases intends : (network.executor index).intent with
  | take => exact acts_of_take intends advances
  | put word => exact acts_of_put intends advances
  | look =>
      simp only [intends] at stands
      simp only [advance, intends, Option.some.injEq] at advances
      subst advances
      have acts := Acts.turn (.look stands) (.quiet : network.Deals index _ _)
      rw [updateExecutor_eq]
      simp only [event?, intends]
      exact acts
  | work =>
      simp only [intends] at stands
      simp only [advance, intends, Option.some.injEq] at advances
      subst advances
      have acts := Acts.turn (Executor.turn_worked stands intends)
        (.quiet : network.Deals index _ _)
      rw [updateExecutor_eq]
      simp only [event?, intends]
      exact acts
  | trip =>
      simp only [intends] at stands
      obtain ⟨failure, failing⟩ := stands
      simp only [advance, intends, Option.some.injEq] at advances
      subst advances
      have acts := Acts.turn (.trip failing) (.trips : network.Deals index _ _)
      rw [updateExecutor_eq]
      simp only [event?, intends, executor_trip, Executor.announced, failing]
      exact acts
  | dropOutput =>
      simp only [intends] at stands
      obtain ⟨result, closing⟩ := stands
      simp only [advance, intends, Option.some.injEq] at advances
      subst advances
      have acts := Acts.turn (.closeOutput closing)
        (.closesOutput : network.Deals index _ _)
      rw [updateExecutor_eq]
      simp only [event?, intends, executor_updateLink, Executor.closedOutput,
        closing]
      exact acts
  | dropInput =>
      simp only [intends] at stands
      obtain ⟨result, parting⟩ := stands
      simp only [advance, intends, Option.some.injEq] at advances
      subst advances
      have acts := Acts.turn (.closeInput parting)
        (.closesInput : network.Deals index _ _)
      rw [updateExecutor_eq]
      simp only [event?, intends, executor_updateLink, Executor.closedInput,
        parting]
      exact acts
  | rest => simp [advance, intends] at advances

/-- Why a machine cannot act. -/
inductive Idle (network : Network n) (index : Fin n) : Prop where
  | ended : (network.executor index).hasEnded = true → Idle network index
  | hungry {target : Nat} :
      network.tripped = false → (network.executor index).outcome? = none →
      (network.link (inputLink index)).contents = [] →
      (network.link (inputLink index)).senders ≠ 0 →
      (network.executor index).machine.request = .ok (.input target) →
      Idle network index
  | stuffed :
      network.tripped = false → (network.executor index).outcome? = none →
      (network.link (outputLink network.topology index)).policy.hasRoom
        (network.link (outputLink network.topology index)).length = false →
      (network.link (outputLink network.topology index)).receivers ≠ 0 →
      (network.link
        (outputLink network.topology index)).policy.isCancellable = true →
      Idle network index

theorem idle_of_advance (stopped : network.advance index heed = none) :
    network.Idle index := by
  have stands := (network.executor index).activity_of_intent
  unfold advance at stopped
  cases intends : (network.executor index).intent with
  | take =>
      simp only [intends] at stands stopped
      cases polled :
          (network.link (inputLink index)).pollOrCancel network.tripped heed
        with
      | done => simp [polled] at stopped
      | waits =>
          obtain ⟨untripped, empty, supplied⟩ :=
            Channel.pollOrCancel_waits polled
          obtain ⟨busy, target, asks⟩ := stands
          apply Idle.hungry untripped ?_ empty supplied asks
          simp [Executor.outcome?, busy]
  | put word =>
      simp only [intends] at stands stopped
      cases offered :
          (network.link (outputLink network.topology index)).offerOrCancel word
            network.tripped heed with
      | done => simp [offered] at stopped
      | waits =>
          obtain ⟨untripped, attended, full, cancellable⟩ :=
            Channel.offerOrCancel_waits offered
          apply Idle.stuffed untripped ?_ full attended cancellable
          simp [Executor.outcome?, stands.1]
  | rest =>
      simp only [intends] at stands
      obtain ⟨result, ended⟩ := stands
      apply Idle.ended
      simp [Executor.hasEnded, Executor.result?, ended]
  | look | work | trip | dropOutput | dropInput => simp [intends] at stopped

end Network

end CellMachines
