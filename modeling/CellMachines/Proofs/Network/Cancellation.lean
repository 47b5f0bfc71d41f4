import CellMachines.Proofs.Executor.Course
import CellMachines.Proofs.Remote.Serving

/-!
# Cancellation

One executor of a network, and all that can happen around it: others may trip
the token, put and take words, let go of their ends and do anything else at any
moment, as long as they leave the executor itself, the wiring and the policies
alone and nobody takes back that the token is tripped (`Disturbs`).  From the
moment when it is tripped, the executor never has to wait, it performs four more
actions at most, and the only instruction that it may still complete is the one
that was under way (`ends_promptly`).
-/

namespace CellMachines

namespace Network

variable {n : Nat} {index : Fin n} {first network between after : Network n}
  {event : Option (Event n)} {events later : List (Event n)}
  {count further : Nat} {policy : Policy}

/-! ## Whatever may happen -/

/-- An action of an executor, with what it does to the words: one on its links
and the token, or a word that passes from hand to hand, as on a link without a
buffer. -/
inductive Moves (network : Network n) (index : Fin n) :
    Option (Event n) → Network n → Prop where
  | advance {heed : Bool} {after : Network n} :
      network.advance index heed = some after →
      Moves network index (network.event? index heed) after
  | accept {word : Word} :
      (network.executor index).intent = .take →
      (network.link (inputLink index)).senders ≠ 0 →
      Moves network index (some (.took index word))
        (network.updateExecutor index (·.took (.ok word)))
  | hand {word : Word} :
      (network.executor index).intent = .put word →
      (network.link (outputLink network.topology index)).receivers ≠ 0 →
      Moves network index (some (.sent index word))
        (network.updateExecutor index (·.gave word (.ok ()) network.tripped))

/-- What nobody does anything to, except that the token may be tripped. -/
structure Keeps (network after : Network n) : Prop where
  topology : after.topology = network.topology
  policy : ∀ link, (after.link link).policy = (network.link link).policy
  tripped : network.tripped = true → after.tripped = true

/-- Something that others do. -/
structure Disturbs (network : Network n) (index : Fin n)
    (after : Network n) : Prop extends network.Keeps after where
  executor : after.executor index = network.executor index

/-- One network comes out of another by a number of actions of one executor,
with anything that others do in between. -/
inductive Unfolds (index : Fin n) (first : Network n) :
    Nat → List (Event n) → Network n → Prop where
  | refl : Unfolds index first 0 [] first
  | moves {count : Nat} {events : List (Event n)} {event : Option (Event n)}
      {network after : Network n} :
      Unfolds index first count events network →
      network.Moves index event after →
      Unfolds index first (count + 1) (events ++ event.toList) after
  | disturbs {count : Nat} {events : List (Event n)}
      {network after : Network n} :
      Unfolds index first count events network →
      network.Disturbs index after → Unfolds index first count events after

theorem Keeps.refl (network : Network n) : network.Keeps network :=
  ⟨rfl, fun _ => rfl, id⟩

theorem Keeps.trans (kept : first.Keeps network) (later : network.Keeps after) :
    first.Keeps after where
  topology := later.topology.trans kept.topology
  policy link := (later.policy link).trans (kept.policy link)
  tripped tripped := later.tripped (kept.tripped tripped)

theorem disturbs_trip (network : Network n) (index : Fin n) :
    network.Disturbs index network.trip where
  executor := rfl
  topology := rfl
  policy _ := rfl
  tripped _ := rfl

/-! ## One action -/

/-- The turn that an action is for the executor. -/
inductive TurnOf (network : Network n) (index : Fin n)
    (event : Option (Event n)) (after : Network n) : Prop where
  | mk {dealing : Dealing} :
      (network.executor index).Turn network.tripped dealing
        (after.executor index) →
      dealing.event? index = event →
      dealing.Permitted
        (network.link (outputLink network.topology index)).policy →
      (network.tripped = true → dealing.emitted = dealing.sent) →
      TurnOf network index event after

private theorem Deals.keeps {dealing : Dealing} {next : Executor}
    (deals : network.Deals index dealing between) :
    network.Keeps (between.updateExecutor index fun _ => next) where
  topology := deals.topology_eq
  policy := deals.policy_eq
  tripped tripped := by
    by_cases trips : dealing = .trips
    · subst trips
      cases deals
      rfl
    · exact (deals.tripped_eq trips).trans tripped

private theorem Deals.permitted {dealing : Dealing}
    (deals : network.Deals index dealing between) :
    dealing.Permitted
      (network.link (outputLink network.topology index)).policy := by
  intro capacity overflows
  subst overflows
  cases deals with
  | overflows policy => exact policy
  | cut interrupted => cases interrupted

private theorem Deals.emitted_eq_sent {dealing : Dealing}
    (deals : network.Deals index dealing between)
    (tripped : network.tripped = true) : dealing.emitted = dealing.sent := by
  cases deals with
  | discards _ untripped =>
      rw [untripped] at tripped
      cases tripped
  | _ => rfl

theorem Moves.turnOf (moves : network.Moves index event after) :
    network.TurnOf index event after ∧ network.Keeps after := by
  have stands := (network.executor index).activity_of_intent
  cases moves with
  | advance advances =>
      have acts := acts_of_advance advances
      generalize network.event? index _ = event at acts
      cases acts with
      | turn turn deals =>
          refine ⟨.mk ?_ rfl deals.permitted deals.emitted_eq_sent, deals.keeps⟩
          rw [executor_acted]
          exact turn
  | accept intends =>
      simp only [intends] at stands
      obtain ⟨busy, target, asks⟩ := stands
      constructor
      · apply TurnOf.mk
        · rw [executor_updateExecutor, if_pos rfl]
          exact Executor.turn_took busy asks
        · rfl
        · exact nofun
        · exact fun _ => rfl
      · exact ⟨rfl, fun _ => rfl, id⟩
  | hand intends =>
      simp only [intends] at stands
      obtain ⟨busy, asks⟩ := stands
      constructor
      · apply TurnOf.mk
        · rw [executor_updateExecutor, if_pos rfl]
          exact Executor.turn_gave busy asks
        · rfl
        · exact nofun
        · exact fun _ => rfl
      · exact ⟨rfl, fun _ => rfl, id⟩

/-- Whoever has a tripped token does not wait. -/
theorem isSome_advance (tripped : network.tripped = true)
    (going : (network.executor index).hasEnded = false) (heed : Bool) :
    (network.advance index heed).isSome = true := by
  cases advanced : network.advance index heed with
  | some => rfl
  | none =>
      cases idle_of_advance advanced with
      | ended ended =>
          rw [going] at ended
          cases ended
      | hungry untripped | stuffed untripped =>
          rw [tripped] at untripped
          cases untripped

/-! ## Any number of actions -/

namespace Unfolds

theorem keeps (unfolds : first.Unfolds index count events network) :
    first.Keeps network := by
  induction unfolds with
  | refl => exact .refl first
  | moves _ moves induction => exact induction.trans moves.turnOf.2
  | disturbs _ disturbs induction => exact induction.trans disturbs.toKeeps

theorem policy_eq (unfolds : first.Unfolds index count events network) :
    (network.link (outputLink network.topology index)).policy =
      (first.link (outputLink first.topology index)).policy := by
  rw [unfolds.keeps.topology, unfolds.keeps.policy]

theorem trans (unfolds : first.Unfolds index count events network)
    (further_unfolds : network.Unfolds index further later after) :
    first.Unfolds index (count + further) (events ++ later) after := by
  induction further_unfolds with
  | refl => simpa using unfolds
  | moves _ moves induction =>
      rw [← List.append_assoc]
      exact induction.moves moves
  | disturbs _ disturbs induction => exact induction.disturbs disturbs

theorem accounted {program : Program} {limits : Limits}
    (starts : first.executor index = Executor.start program limits)
    (unfolds : first.Unfolds index count events network) :
    Executor.Accounted (Machine.start program limits)
      (first.link (outputLink first.topology index)).policy
      (Event.takings index events) (network.executor index) := by
  induction unfolds with
  | refl =>
      rw [starts]
      exact Executor.accounted_start program limits _
  | moves unfolds moves induction =>
      obtain ⟨turn, rfl, permitted, _⟩ := moves.turnOf.1
      rw [unfolds.policy_eq] at permitted
      rw [Event.takings_append, Dealing.takings_event?, if_pos rfl]
      exact induction.after turn permitted
  | disturbs _ disturbs induction =>
      rw [disturbs.executor]
      exact induction

theorem course (tripped : first.tripped = true)
    (unfolds : first.Unfolds index count events network) :
    (first.executor index).Course
        (first.link (outputLink first.topology index)).policy
        (Event.takings index events) (Event.sendings index events)
        (network.executor index) ∧
      (network.executor index).emitted.toList =
        (first.executor index).emitted.toList ++
          Event.sendings index events := by
  induction unfolds with
  | refl => exact ⟨.pending, by simp [Event.sendings]⟩
  | moves unfolds moves induction =>
      obtain ⟨course, put_out⟩ := induction
      have still := unfolds.keeps.tripped tripped
      obtain ⟨turn, rfl, permitted, reached⟩ := moves.turnOf.1
      rw [unfolds.policy_eq] at permitted
      rw [Event.takings_append, Event.sendings_append, Dealing.takings_event?,
        Dealing.sendings_event?, if_pos rfl, if_pos rfl, ← reached still]
      rw [still] at turn
      refine ⟨course.after turn permitted, ?_⟩
      rw [turn.emitted_eq, put_out, List.append_assoc]
  | disturbs _ disturbs induction =>
      rw [disturbs.executor]
      exact induction

theorem distance_le (tripped : first.tripped = true)
    (unfolds : first.Unfolds index count events network) :
    count + (network.executor index).distance ≤ 4 := by
  induction unfolds with
  | refl => simpa using (first.executor index).distance_le
  | moves unfolds moves induction =>
      obtain ⟨turn, _⟩ := moves.turnOf.1
      rw [unfolds.keeps.tripped tripped] at turn
      have nearer := turn.distance_lt
      omega
  | disturbs _ disturbs induction =>
      rw [disturbs.executor]
      exact induction

end Unfolds

/-! ## Ending promptly -/

/-- What becomes of an executor between a moment when the token is tripped and a
later one, when it has been started with a program and has taken the words of
`events` before and those of `later` since. -/
structure EndsPromptly (program : Program) (limits : Limits) (index : Fin n)
    (events : List (Event n)) (network : Network n) (count : Nat)
    (later : List (Event n)) (after : Network n) : Prop where
  ready : (after.executor index).hasEnded = false →
    ∀ heed, (after.advance index heed).isSome = true
  few_actions : count ≤ 4
  ended : count = 4 → (after.executor index).hasEnded = true
  one_instruction : (after.executor index).machine.steps ≤
    (network.executor index).machine.steps + 1
  one_input : (Event.takings index later).length ≤ 1
  one_output : (Event.sendings index later).length ≤ 1
  emitted : (after.executor index).emitted.toList =
    (network.executor index).emitted.toList ++ Event.sendings index later
  result : ∀ result, (after.executor index).result? = some result →
    (network.executor index).Verdict
      (network.link (outputLink network.topology index)).policy
      (Event.takings index later) (Event.sendings index later) result
      (after.executor index).machine
  settled : ∀ result, (after.executor index).result? = some result →
    Executor.Settled (Machine.start program limits)
      (network.link (outputLink network.topology index)).policy
      (Event.takings index (events ++ later))
      (after.executor index).emitted.toList result
      (after.executor index).machine

theorem Unfolds.ends_promptly {program : Program} {limits : Limits}
    (starts : first.executor index = Executor.start program limits)
    (reached : first.Unfolds index count events network)
    (tripped : network.tripped = true)
    (unfolds : network.Unfolds index further later after) :
    EndsPromptly program limits index events network further later after := by
  have nearer := unfolds.distance_le tripped
  obtain ⟨course, put_out⟩ := unfolds.course tripped
  obtain ⟨steps, takes, puts⟩ := course.steps_le
  have accounted := (reached.trans unfolds).accounted starts
  rw [← reached.policy_eq] at accounted
  constructor
  · exact isSome_advance (unfolds.keeps.tripped tripped)
  · omega
  · intro last
    exact Executor.hasEnded_of_distance (by omega)
  · exact steps
  · exact takes
  · exact puts
  · exact put_out
  · intro result ended
    exact course.verdict (Executor.outcome?_of_result? ended)
  · intro result ended
    exact accounted.settled result (Executor.outcome?_of_result? ended)

/-! ## An executor that acts alone -/

/-- Actions of one executor in a row, one for each choice. -/
def act (index : Fin n) :
    List Bool → Network n → Option (List (Event n) × Network n)
  | [], network => some ([], network)
  | heed :: choices, network =>
    (network.advance index heed).bind fun between =>
      (act index choices between).map fun run =>
        ((network.event? index heed).toList ++ run.1, run.2)

theorem Unfolds.act {choices : List Bool} {run : List (Event n) × Network n}
    (unfolds : first.Unfolds index count events network)
    (acts : network.act index choices = some run) :
    first.Unfolds index (count + choices.length) (events ++ run.1) run.2 := by
  induction choices generalizing network count events run with
  | nil =>
      cases acts
      simpa using unfolds
  | cons heed choices induction =>
      obtain ⟨between, advances, acts⟩ := Option.bind_eq_some_iff.mp acts
      obtain ⟨rest, goes_on, rfl⟩ := Option.map_eq_some_iff.mp acts
      have further := induction (unfolds.moves (.advance advances)) goes_on
      rw [List.append_assoc] at further
      rw [List.length_cons, Nat.add_comm choices.length, ← Nat.add_assoc]
      exact further

/-- A word that is put on a link without a buffer, and taken from hand to hand
just as the token is tripped. -/
theorem ends_promptly_handing : ∃ first network after : Network 1,
    first = solo ⟨[104, 7, 99]⟩ {} [] (.backpressure 0) true false ∧
      first.Unfolds sole 1 [] network ∧ network.tripped = true ∧
      network.Unfolds sole 4 [.sent sole 7] after ∧
      EndsPromptly ⟨[104, 7, 99]⟩ {} sole [] network 4 [.sent sole 7] after ∧
      (after.executor sole).result? = some (.error .interrupted) := by
  let first := solo ⟨[104, 7, 99]⟩ {} [] (.backpressure 0) true false
  let network := (first.updateExecutor sole (·.looked false)).trip
  let handed :=
    network.updateExecutor sole (·.gave 7 (.ok ()) network.tripped)
  have looks : first.Moves sole none
      (first.updateExecutor sole (·.looked false)) :=
    .advance (show first.advance sole false = _ from rfl)
  have hands : network.Moves sole (some (.sent sole 7)) handed :=
    .hand (by decide +kernel) (by decide)
  have acts : (handed.act sole [false, false, false]).any
      (fun (events, after) => events = [] &&
        (after.executor sole).result? = some (.error .interrupted)) = true := by
    decide +kernel
  obtain ⟨⟨events, after⟩, acts, checks⟩ := (Option.any_eq_true _ _).mp acts
  simp only [Bool.and_eq_true, decide_eq_true_eq] at checks
  obtain ⟨rfl, result⟩ := checks
  have reached : first.Unfolds sole 1 [] network :=
    (Unfolds.refl.moves looks).disturbs (disturbs_trip _ _)
  have ends : network.Unfolds sole 4 [.sent sole 7] after :=
    (Unfolds.refl.moves hands).act acts
  exact ⟨first, network, after, rfl, reached, rfl, ends,
    Unfolds.ends_promptly rfl reached rfl ends, result⟩

end Network

end CellMachines
