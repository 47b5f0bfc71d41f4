import CellMachines.Pipeline
import CellMachines.Proofs.Network.Wiring
import Mathlib.Logic.Relation

/-!
# Journals of a pipeline

A run of a pipeline is a sequence of moves in any order, and its journal lists
what happened to the words on the links in that order.  `Change` names what one
move can do, and `Recorded.changes` carries over to a whole run whatever every
change keeps.
-/

namespace CellMachines

namespace Pipeline

variable {n : Nat}

/-! ## Moves -/

namespace Conductor

/-- Whether the conductor still has its end of link `0`. -/
def holdsEntry : Conductor → Bool
  | .seeding | .releasing _ => true
  | .tripping _ | .joining _ => false

end Conductor

namespace Progress

variable {progress after first last : Progress n} {move : Move n}
  {events : List (Event n)}

def event? (progress : Progress n) : Move n → Option (Event n)
  | .conduct heed =>
    match progress.conductor with
    | .seeding =>
      let entry := progress.network.link (Network.entry n)
      match entry.offerOrCancel progress.seed progress.network.tripped heed with
      | .done (.ok ()) _ => some (.seeded progress.seed)
      | _ => none
    | _ => none
  | .execute index heed => progress.network.event? index heed

/-- Why the seed is not put on link `0`. -/
inductive Refuses (network : Network n) : ChannelError → Prop where
  | closed :
      (network.link (Network.entry n)).receivers = 0 → Refuses network .closed
  | full {capacity : Nat} :
      (network.link (Network.entry n)).policy = .failFast capacity →
      Refuses network (.full capacity)
  | cancelled : network.tripped = true → Refuses network .cancelled

/-- What can happen in one move, with its entry in the journal. -/
inductive Change (progress : Progress n) :
    Option (Event n) → Progress n → Prop where
  | turn {index : Fin n} {dealing : Dealing} {next : Executor}
      {between : Network n} :
      (progress.network.executor index).Turn progress.network.tripped
        dealing next →
      progress.network.Deals index dealing between →
      Change progress (dealing.event? index)
        { progress with network := between.updateExecutor index fun _ => next }
  | seed :
      progress.conductor = .seeding →
      (progress.network.link (Network.entry n)).receivers ≠ 0 →
      (progress.network.link (Network.entry n)).policy.hasRoom
        (progress.network.link (Network.entry n)).length = true →
      Change progress (some (.seeded progress.seed))
        { progress with
          network := progress.network.updateLink (Network.entry n) fun _ =>
            (progress.network.link (Network.entry n)).push progress.seed
          conductor := .releasing (.ok ()) }
  | refuse {error : ChannelError} :
      progress.conductor = .seeding → Refuses progress.network error →
      Change progress none
        { progress with conductor := .releasing (.error error) }
  | release {delivery : Except ChannelError Unit} :
      progress.conductor = .releasing delivery →
      (∀ capacity, delivery ≠ .error (.full capacity)) →
      Change progress none
        { progress with
          network :=
            progress.network.updateLink (Network.entry n) Channel.dropSender
          conductor := .joining none }
  | giveUp {capacity : Nat} :
      progress.conductor = .releasing (.error (.full capacity)) →
      Change progress none
        { progress with
          network :=
            progress.network.updateLink (Network.entry n) Channel.dropSender
          conductor := .tripping (.full capacity) }
  | trip {source : ChannelError} :
      progress.conductor = .tripping source →
      Change progress none
        { progress with
          network := progress.network.trip
          conductor := .joining (some source) }

private theorem change_of_conduct {heed : Bool}
    (stepped : progress.conduct heed = some after) :
    Change progress (progress.event? (.conduct heed)) after := by
  unfold conduct at stepped
  cases stands : progress.conductor with
  | seeding =>
      simp only [stands] at stepped
      cases offered :
          (progress.network.link (Network.entry n)).offerOrCancel progress.seed
            progress.network.tripped heed with
      | waits => simp [offered] at stepped
      | done delivery link =>
          simp only [offered, Option.some.injEq] at stepped
          subst stepped
          cases delivery with
          | ok =>
              obtain ⟨held, room, rfl⟩ := Channel.offerOrCancel_ok offered
              simpa [event?, stands, offered] using Change.seed stands held room
          | error error =>
              obtain ⟨rfl, reason⟩ := Channel.offerOrCancel_error offered
              have refuses : Refuses progress.network error := by
                rcases reason with
                  ⟨rfl, gone⟩ | ⟨capacity, rfl, policy⟩ | ⟨rfl, tripped⟩
                · exact .closed gone
                · exact .full policy
                · exact .cancelled tripped
              rw [Network.updateLink_same]
              simpa [event?, stands, offered] using Change.refuse stands refuses
  | releasing delivery =>
      simp only [stands, Option.some.injEq] at stepped
      subst stepped
      have unrecorded : progress.event? (.conduct heed) = none := by
        simp [event?, stands]
      rw [unrecorded]
      cases delivery with
      | ok => exact .release stands (by simp)
      | error error =>
          cases error with
          | full capacity => exact .giveUp stands
          | closed | cancelled => exact .release stands (by simp)
  | tripping source =>
      simp only [stands, Option.some.injEq] at stepped
      subst stepped
      simpa [event?, stands] using Change.trip stands
  | joining refusal => simp [stands] at stepped

theorem change_of_step (stepped : progress.step move = some after) :
    Change progress (progress.event? move) after := by
  cases move with
  | conduct heed => exact change_of_conduct stepped
  | execute index heed =>
      obtain ⟨network, advances, rfl⟩ := Option.map_eq_some_iff.mp stepped
      have acts := Network.acts_of_advance advances
      rw [event?]
      generalize progress.network.event? index heed = event at acts ⊢
      cases acts with
      | turn turn deals => exact .turn turn deals

def Reaches (first last : Progress n) : Prop :=
  Relation.ReflTransGen (fun before after =>
    ∃ move, before.step move = some after) first last

/-- The configurations that a run comes to, each with the journal of the run. -/
inductive Recorded (first : Progress n) :
    List (Event n) → Progress n → Prop where
  | start : Recorded first [] first
  | step {events : List (Event n)} {progress after : Progress n}
      {move : Move n} :
      Recorded first events progress → progress.step move = some after →
      Recorded first (events ++ (progress.event? move).toList) after

theorem exists_recorded (reaches : Reaches first last) :
    ∃ events, Recorded first events last := by
  induction reaches with
  | refl => exact ⟨[], .start⟩
  | tail _ stepped induction =>
      obtain ⟨events, recorded⟩ := induction
      obtain ⟨move, stepped⟩ := stepped
      exact ⟨_, recorded.step stepped⟩

/-- Whatever holds at the start and is kept by every change holds throughout a
run. -/
@[elab_as_elim]
theorem Recorded.changes
    {motive : ∀ (events : List (Event n)) (progress : Progress n),
      first.Recorded events progress → Prop}
    (start : motive [] first .start)
    (change : ∀ {events : List (Event n)} {progress after : Progress n}
      {event : Option (Event n)} (recorded : first.Recorded events progress)
      (further : first.Recorded (events ++ event.toList) after),
      motive events progress recorded → progress.Change event after →
      motive (events ++ event.toList) after further)
    {events : List (Event n)} {last : Progress n}
    (recorded : first.Recorded events last) :
    motive events last recorded := by
  induction recorded with
  | start => exact start
  | step recorded stepped induction =>
      exact change recorded (.step recorded stepped) induction
        (change_of_step stepped)

/-- The journal of a schedule and the configuration it leads to, if all its
moves are possible. -/
def follow (progress : Progress n) :
    List (Move n) → Option (List (Event n) × Progress n)
  | [] => some ([], progress)
  | move :: later => do
    let after ← progress.step move
    let (events, last) ← after.follow later
    return ((progress.event? move).toList ++ events, last)

theorem Recorded.follow {moves : List (Move n)} {earlier : List (Event n)}
    (recorded : first.Recorded earlier progress)
    (follows : progress.follow moves = some (events, last)) :
    first.Recorded (earlier ++ events) last := by
  induction moves generalizing progress earlier events with
  | nil =>
      cases follows
      simpa using recorded
  | cons move later induction =>
      simp only [Progress.follow, Option.bind_eq_bind, Option.bind_eq_some_iff,
        Option.pure_def, Option.some.injEq, Prod.mk.injEq, Prod.exists]
        at follows
      obtain ⟨after, stepped, rest, _, follows, rfl, rfl⟩ := follows
      simpa using induction (recorded.step stepped) follows

/-! ### The schedule in rounds -/

theorem reaches_sweep (progress : Progress n) (moves : List (Move n)) :
    Reaches progress (progress.sweep moves).1 := by
  induction moves generalizing progress with
  | nil => exact .refl
  | cons move later induction =>
      unfold sweep
      split
      · exact induction progress
      · rename_i after stepped
        exact .head ⟨move, stepped⟩ (induction after)

theorem reaches_of_finish {moves : List (Move n)} {budget : Nat}
    (finishes : progress.finish moves budget = some last) :
    Reaches progress last ∧ last.isComplete = true := by
  induction budget generalizing progress with
  | zero =>
      unfold finish at finishes
      split at finishes
      · cases finishes
        exact ⟨.refl, ‹_›⟩
      · cases finishes
  | succ budget induction =>
      unfold finish at finishes
      split at finishes
      · cases finishes
        exact ⟨.refl, ‹_›⟩
      · simp only at finishes
        split at finishes
        · cases finishes
        · rename_i after swept
          obtain ⟨reaches, complete⟩ := induction finishes
          have here := reaches_sweep progress moves
          rw [swept] at here
          exact ⟨here.trans reaches, complete⟩

end Progress

end Pipeline

end CellMachines
