import CellMachines.Proofs.Network.Ledger
import CellMachines.Remote
import Mathlib.Logic.Relation

/-!
# The executor of a session

As long as the client holds its end of the input link and has not tripped the
token, nothing but its own machine makes the executor end: it does not find the
input link closed, its put does not overflow, and it trips the token only on its
way out.  `Serving` says so of a network, and every action of the executor keeps
it.  Once the executor is on its way out nothing changes how it ends, and once
the token is tripped it ends after a few more actions, whatever it was about to
do.
-/

namespace CellMachines

namespace Executor

variable {executor next : Executor} {tripped : Bool} {dealing : Dealing}

theorem Turn.isTerminal (turn : executor.Turn tripped dealing next)
    (running : executor.machine.status.isTerminal = false)
    (atWork : next.outcome? = none) :
    next.machine.status.isTerminal = false := by
  cases turn with
  | look => exact running
  | complete _ completes | receive _ completes | send _ completes
  | discard _ completes => exact completes.isTerminal running
  | stop | spoil | fail =>
      rw [outcome?_leaving] at atWork
      cases atWork
  | starve => simp [outcome?] at atWork
  | trip | closeOutput | closeInput => exact running

/-- The number of actions that an executor needs at most until it has ended when
the token is tripped. -/
def distance (executor : Executor) : Nat :=
  match executor.activity with
  | .executing => 4
  | .checking | .failing _ => 3
  | .closing _ => 2
  | .parting _ => 1
  | .ended _ => 0

theorem distance_le (executor : Executor) : executor.distance ≤ 4 := by
  unfold distance
  split <;> omega

theorem hasEnded_of_distance {executor : Executor}
    (arrived : executor.distance = 0) : executor.hasEnded = true := by
  unfold distance at arrived
  unfold hasEnded result?
  split at arrived <;> simp_all

theorem distance_leaving_lt (executor : Executor) (machine : Machine)
    (result : Except Failure Unit) :
    distance { executor with machine, activity := leaving result } < 4 := by
  rcases leaving_cases result with left | ⟨_, _, left⟩ <;>
    simp [distance, left]

theorem Turn.distance_lt (turn : executor.Turn true dealing next) :
    next.distance < executor.distance := by
  cases turn with
  | look idle => simp [distance, looked, idle]
  | stop busy | spoil busy | fail busy =>
      have from_work : executor.distance = 4 := by simp [distance, busy]
      rw [from_work]
      exact distance_leaving_lt _ _ _
  | complete busy | receive busy | starve busy | send busy | discard busy =>
      simp [distance, busy]
  | trip leaving | closeOutput leaving | closeInput leaving =>
      simp [distance, leaving]

end Executor

namespace Network

variable {network after : Network 1} {result : Except Failure Unit}

theorem Advances.outcome?_eq_some (advances : network.Advances after)
    (outcome : (network.executor sole).outcome? = some result) :
    (after.executor sole).outcome? = some result := by
  obtain ⟨_, _, turn, _⟩ := advances.exists_turn
  exact (turn.outcome?_eq_some outcome).1

theorem Advances.not_ended (advances : network.Advances after) :
    (network.executor sole).hasEnded = false := by
  obtain ⟨_, _, turn, _⟩ := advances.exists_turn
  exact turn.not_ended

theorem Advances.tripped (advances : network.Advances after)
    (tripped : network.tripped = true) : after.tripped = true := by
  obtain ⟨dealing, between, _, deals, same⟩ := advances.exists_turn
  rw [same, tripped_updateExecutor]
  by_cases trips : dealing = .trips
  · subst trips
    cases deals
    rfl
  · rw [deals.tripped_eq trips, tripped]

theorem Advances.distance_lt (advances : network.Advances after)
    (tripped : network.tripped = true) :
    (after.executor sole).distance < (network.executor sole).distance := by
  obtain ⟨_, _, turn, _⟩ := advances.exists_turn
  rw [tripped] at turn
  exact turn.distance_lt

/-- Only the client and the machine itself make the executor end. -/
structure Serving (network : Network 1) : Prop where
  chain : network.topology = .chain
  supplied : (network.link (inputLink sole)).senders ≠ 0
  unbounded : (network.link (inputLink sole)).policy = .unbounded
  reading : (network.link (inputLink sole)).receivers = 0 →
    (network.executor sole).hasEnded = true
  writing : (network.link (outputLink .chain sole)).senders = 0 →
    (network.executor sole).holdsOutput = false
  running : (network.executor sole).outcome? = none →
    (network.executor sole).machine.status.isTerminal = false
  alone : (network.executor sole).outcome? ≠ some (.error .interrupted)
  alarm : network.tripped = true → (network.executor sole).outcome? ≠ none

namespace Serving

variable (serving : network.Serving)
include serving

section Turn

variable {dealing : Dealing} {between : Network 1} {next : Executor}
  (turn : (network.executor sole).Turn network.tripped dealing next)
  (deals : network.Deals sole dealing between)

include deals in
private theorem supplied_after :
    (between.link (inputLink sole)).senders ≠ 0 := by
  rw [deals.senders_inputLink serving.chain]
  exact serving.supplied

include turn deals

private theorem writing_after
    (gone : (between.link (outputLink .chain sole)).senders = 0) :
    next.holdsOutput = false := by
  by_cases closes : dealing = .closesOutput
  · subst closes
    cases turn
    rfl
  · rw [deals.senders_eq closes] at gone
    rw [turn.holdsOutput_eq closes]
    exact serving.writing gone

private theorem alone_after : next.outcome? ≠ some (.error .interrupted) := by
  intro interrupted
  cases outcome : (network.executor sole).outcome? with
  | some result =>
      have stays := (turn.outcome?_eq_some outcome).1
      rw [stays, ← outcome] at interrupted
      exact serving.alone interrupted
  | none =>
      have untripped : network.tripped ≠ true :=
        fun tripped => serving.alarm tripped outcome
      cases turn.leaves outcome interrupted with
      | cancelled tripped => exact untripped tripped
      | stopped stops => cases stops.isFault (serving.running outcome)
      | starved =>
          cases deals with
          | starves reason =>
              rcases reason with tripped | ⟨_, unsupplied⟩
              · exact untripped tripped
              · exact serving.supplied unsupplied
      | failed same =>
          cases deals with
          | overflows => cases same
          | cut _ tripped => exact untripped tripped

end Turn

theorem advance (advances : network.Advances after) : after.Serving := by
  obtain ⟨dealing, between, turn, deals, same⟩ := advances.exists_turn
  generalize after.executor sole = next at turn same
  subst same
  constructor
  · exact deals.topology_eq.trans serving.chain
  · rw [link_updateExecutor]
    exact serving.supplied_after deals
  · rw [link_updateExecutor, deals.policy_eq]
    exact serving.unbounded
  · rw [executor_acted, link_updateExecutor]
    exact deals.hasEnded_of_unread turn serving.reading
  · rw [executor_acted, link_updateExecutor]
    exact serving.writing_after turn deals
  · rw [executor_acted]
    intro atWork
    have running := serving.running (turn.outcome?_eq_none atWork)
    exact turn.isTerminal running atWork
  · rw [executor_acted]
    exact serving.alone_after turn deals
  · rw [executor_acted, tripped_updateExecutor]
    exact deals.outcome?_ne_none turn serving.alarm

/-- What the client does to a link matters only as far as it puts something on
the input link or takes something from the output link. -/
theorem updateLink {index : Fin 2} {change : Channel → Channel}
    (policy : (change (network.link index)).policy =
      (network.link index).policy)
    (senders : (change (network.link index)).senders =
      (network.link index).senders)
    (receivers : (change (network.link index)).receivers =
      (network.link index).receivers) :
    (network.updateLink index change).Serving where
  chain := serving.chain
  supplied := by
    rw [updateLink_keeps Channel.senders senders]
    exact serving.supplied
  unbounded := by
    rw [updateLink_keeps Channel.policy policy]
    exact serving.unbounded
  reading := by
    rw [updateLink_keeps Channel.receivers receivers]
    exact serving.reading
  writing := by
    rw [updateLink_keeps Channel.senders senders]
    exact serving.writing
  running := serving.running
  alone := serving.alone
  alarm := serving.alarm

end Serving

end Network

end CellMachines
