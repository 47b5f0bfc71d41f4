import CellMachines.Proofs.Network.Words
import CellMachines.Proofs.Pipeline.Returns

/-!
# Who holds the ends of the links

A link counts its senders and its receivers, and everybody lets go of an end
once.  In every configuration that a run comes to, the counts are therefore
those of the executors, and of the conductor for link `0`, who have not let go
yet (`Wired`). An executor that takes part in a wait is thus known from the
counts alone.
-/

namespace CellMachines

namespace Network

variable {n : Nat} {network other : Network n} {held : Bool} {writer : Fin n}

/-- The number of those who may still put words on the link of a machine, where
`held` tells whether the conductor still has its end of link `0`. -/
def holders (network : Network n) (held : Bool) (index : Fin n) : Nat :=
  (if index.val = 0 ∧ held = true then 1 else 0) +
    (upstream? network.topology index).elim 0 fun writer =>
      if (network.executor writer).holdsOutput then 1 else 0

theorem holders_eq (topology : other.topology = network.topology)
    (outputs : ∀ writer, (other.executor writer).holdsOutput =
      (network.executor writer).holdsOutput) (index : Fin n) :
    other.holders held index = network.holders held index := by
  simp only [holders, topology, outputs]

theorem holders_eq_of_release (network : Network n) (index : Fin n) :
    network.holders true index =
      network.holders false index + if index.val = 0 then 1 else 0 := by
  simp only [holders]
  simp [Nat.add_comm]

theorem holders_eq_of_close (topology : other.topology = network.topology)
    (holding : (network.executor writer).holdsOutput = true)
    (gone : (other.executor writer).holdsOutput = false)
    (outputs : ∀ third, third ≠ writer →
      (other.executor third).holdsOutput = (network.executor third).holdsOutput)
    (index : Fin n) :
    network.holders held index = other.holders held index +
      if upstream? network.topology index = some writer then 1 else 0 := by
  simp only [holders, topology]
  cases wired : upstream? network.topology index with
  | none => simp
  | some third =>
      by_cases same : third = writer
      · simp [same, holding, gone]
      · simp [same, outputs third same]

end Network

namespace Pipeline

variable {n : Nat} {pipeline : Pipeline}

namespace Progress

variable {progress after : Progress n} {event : Option (Event n)}

/-- A change lets one executor take a turn or leaves it alone. -/
theorem Change.turn_or_same (change : progress.Change event after)
    (index : Fin n) :
    (after.network.executor index = progress.network.executor index ∧
        Event.takings index event.toList = [] ∧
        Event.sendings index event.toList = []) ∨
      ∃ dealing between,
        (progress.network.executor index).Turn progress.network.tripped dealing
          (after.network.executor index) ∧
        progress.network.Deals index dealing between ∧
        event = dealing.event? index := by
  cases change with
  | @turn other dealing next between turn deals =>
      by_cases same : index = other
      · subst same
        exact .inr ⟨dealing, between, by simpa using turn, deals, rfl⟩
      · have others : other ≠ index := Ne.symm same
        left
        refine ⟨?_, ?_, ?_⟩
        · simp [same, deals.executor_eq]
        · simp [Dealing.takings_event?, others]
        · simp [Dealing.sendings_event?, others]
  | _ => exact .inl ⟨rfl, rfl, rfl⟩

theorem Change.executor_eq_of_ended (change : progress.Change event after)
    {index : Fin n}
    (ended : (progress.network.executor index).hasEnded = true) :
    after.network.executor index = progress.network.executor index := by
  rcases change.turn_or_same index with ⟨same, _⟩ | ⟨_, _, turn, _⟩
  · exact same
  · rw [turn.not_ended] at ended
    cases ended

theorem Change.outcome?_eq_some (change : progress.Change event after)
    {index : Fin n} {result : Except Failure Unit}
    (outcome : (progress.network.executor index).outcome? = some result) :
    (after.network.executor index).outcome? = some result ∧
      (after.network.executor index).emitted =
        (progress.network.executor index).emitted := by
  rcases change.turn_or_same index with ⟨same, _⟩ | ⟨_, _, turn, _⟩
  · rw [same]
    exact ⟨outcome, rfl⟩
  · obtain ⟨stays, _, _, nothing⟩ := turn.outcome?_eq_some outcome
    have emitted := turn.emitted_eq
    rw [nothing, List.append_nil] at emitted
    exact ⟨stays, Array.toList_inj.mp emitted⟩

theorem Change.reading_before (change : progress.Change event after)
    {index : Fin n}
    (reading : (after.network.executor index).hasEnded = false) :
    (progress.network.executor index).hasEnded = false := by
  by_contra ended
  rw [change.executor_eq_of_ended (by simpa using ended)] at reading
  exact ended reading

theorem Change.policy_eq (change : progress.Change event after)
    (link : Fin (n + 1)) :
    (after.network.link link).policy = (progress.network.link link).policy := by
  cases change with
  | turn _ deals => exact deals.policy_eq link
  | seed | release | giveUp =>
      exact Network.updateLink_keeps Channel.policy rfl link
  | refuse | trip => rfl

theorem Change.receivers_eq_zero (change : progress.Change event after)
    {link : Fin (n + 1)} (gone : (progress.network.link link).receivers = 0) :
    (after.network.link link).receivers = 0 := by
  cases change with
  | turn _ deals => exact deals.receivers_eq_zero gone
  | seed | release | giveUp =>
      exact (Network.updateLink_keeps Channel.receivers rfl link).trans gone
  | refuse | trip => exact gone

theorem Change.tripped (change : progress.Change event after)
    (tripped : progress.network.tripped = true) :
    after.network.tripped = true := by
  cases change with
  | @turn _ dealing _ _ _ deals =>
      cases deals <;> first | exact tripped | rfl
  | trip => rfl
  | _ => exact tripped

/-- The links are as the pipeline set them up, but for the ends that have been
let go of. -/
structure Wired (pipeline : Pipeline) (progress : Progress n) : Prop where
  topology_eq : progress.network.topology = pipeline.topology
  seed_eq : progress.seed = pipeline.seed
  policy_eq : ∀ index,
    (progress.network.link (Network.inputLink index)).policy = pipeline.policy
  receivers_eq : ∀ index,
    (progress.network.link (Network.inputLink index)).receivers =
      if (progress.network.executor index).hasEnded then 0 else 1
  senders_eq : ∀ index,
    (progress.network.link (Network.inputLink index)).senders =
      progress.network.holders progress.conductor.holdsEntry index
  collector : pipeline.topology = .chain →
    (progress.network.link (Fin.last n)).policy = .unbounded ∧
      (progress.network.link (Fin.last n)).receivers = 1

theorem Wired.reading_of_attended (wired : Wired pipeline progress)
    {index : Fin n}
    (attended :
      (progress.network.link (Network.inputLink index)).receivers ≠ 0) :
    (progress.network.executor index).hasEnded = false := by
  by_contra ended
  rw [wired.receivers_eq, if_pos (by simpa using ended)] at attended
  exact attended rfl

theorem wired_opening (phases : Vector Word n) :
    Wired pipeline (pipeline.opening phases) where
  topology_eq := rfl
  seed_eq := rfl
  policy_eq index := by rw [inputLink_opening]; rfl
  receivers_eq index := by rw [inputLink_opening, executor_opening]; rfl
  senders_eq index := by
    have holding :
        (Executor.start pipeline.program pipeline.limits).holdsOutput = true :=
      rfl
    have standing : (pipeline.opening phases).conductor.holdsEntry = true := rfl
    have wiring :
        (pipeline.opening phases).network.topology = pipeline.topology :=
      rfl
    rw [inputLink_opening]
    simp only [Network.holders, executor_opening, holding, standing, wiring,
      openingLink, Channel.push, Channel.create, writers, Network.upstream?]
    cases pipeline.topology <;> by_cases first : index.val = 0 <;> simp [first]
  collector chain := by
    rw [lastLink_opening, chain]
    exact ⟨rfl, rfl⟩

section Turn

variable {index : Fin n} {dealing : Dealing} {next : Executor}
  {between : Network n}

private theorem Wired.receivers_turn (wired : Wired pipeline progress)
    (turn : (progress.network.executor index).Turn progress.network.tripped
      dealing next)
    (deals : progress.network.Deals index dealing between) (other : Fin n) :
    (between.link (Network.inputLink other)).receivers =
      if (if other = index then next
        else progress.network.executor other).hasEnded then 0 else 1 := by
  have before := wired.receivers_eq other
  by_cases closes : dealing = .closesInput
  · subst closes
    cases deals
    cases turn with
    | closeInput parting =>
        by_cases own : other = index
        · subst own
          have held :
              (progress.network.link (Network.inputLink other)).receivers =
                1 := by
            simpa [Executor.hasEnded, Executor.result?, parting] using before
          simp only [Network.link_updateLink, if_true, Channel.dropReceiver,
            held, Executor.hasEnded, Executor.result?, Option.isSome_some]
          split <;> rfl
        · have elsewhere : Network.inputLink other ≠ Network.inputLink index :=
            fun same => own (Network.inputLink_injective same)
          simpa [own, elsewhere] using before
  · rw [deals.receivers_eq closes, before]
    by_cases own : other = index
    · subst own
      simp [turn.hasEnded_eq closes]
    · simp [own]

private theorem Wired.senders_turn (wired : Wired pipeline progress)
    (turn : (progress.network.executor index).Turn progress.network.tripped
      dealing next)
    (deals : progress.network.Deals index dealing between) (other : Fin n) :
    (between.link (Network.inputLink other)).senders =
      (between.updateExecutor index fun _ => next).holders
        progress.conductor.holdsEntry other := by
  have before := wired.senders_eq other
  by_cases closes : dealing = .closesOutput
  · subst closes
    cases deals
    cases turn with
    | @closeOutput result closing =>
        generalize closed : (progress.network.updateLink
          (Network.outputLink progress.network.topology index)
          Channel.dropSender).updateExecutor index (fun _ =>
            { progress.network.executor index with
              activity := .parting result }) = after
        have fewer :
            progress.network.holders progress.conductor.holdsEntry other =
              after.holders progress.conductor.holdsEntry other +
                if Network.upstream? progress.network.topology other =
                  some index then 1 else 0 := by
          apply Network.holders_eq_of_close
          · simp [← closed]
          · simp [Executor.holdsOutput, closing]
          · simp [← closed, Executor.holdsOutput]
          · intro third distinct
            simp [← closed, distinct]
        rw [Network.link_updateLink]
        by_cases wired :
            Network.upstream? progress.network.topology other = some index
        · rw [← Network.upstream?_eq_some_iff.mp wired] at before ⊢
          simp only [wired, if_true, Channel.dropSender] at fewer ⊢
          omega
        · have elsewhere : Network.inputLink other ≠
              Network.outputLink progress.network.topology index :=
            fun same => wired (Network.upstream?_eq_some_iff.mpr same.symm)
          simp only [elsewhere, wired, if_false] at fewer ⊢
          omega
  · rw [deals.senders_eq closes, before]
    symm
    apply Network.holders_eq
    · exact deals.topology_eq
    · intro writer
      rw [Network.executor_updateExecutor, deals.executor_eq]
      split
      · rename_i own
        rw [own, turn.holdsOutput_eq closes]
      · rfl

private theorem Wired.of_turn (wired : Wired pipeline progress)
    (turn : (progress.network.executor index).Turn progress.network.tripped
      dealing next)
    (deals : progress.network.Deals index dealing between) :
    Wired pipeline
      { progress with
        network := between.updateExecutor index fun _ => next } where
  topology_eq := deals.topology_eq.trans wired.topology_eq
  seed_eq := wired.seed_eq
  policy_eq other := by
    rw [Network.link_updateExecutor, deals.policy_eq]
    exact wired.policy_eq other
  receivers_eq other := by
    rw [Network.link_updateExecutor, Network.executor_updateExecutor,
      deals.executor_eq]
    exact wired.receivers_turn turn deals other
  senders_eq other := by
    rw [Network.link_updateExecutor]
    exact wired.senders_turn turn deals other
  collector chain := by
    have before := wired.collector chain
    rw [Network.link_updateExecutor, deals.policy_eq]
    exact ⟨before.1, deals.receivers_last.trans before.2⟩

end Turn

private theorem Wired.of_conduct {network : Network n} {conductor : Conductor}
    (wired : Wired pipeline progress)
    (topology : network.topology = progress.network.topology)
    (executors : ∀ index,
      network.executor index = progress.network.executor index)
    (policies : ∀ link,
      (network.link link).policy = (progress.network.link link).policy)
    (receivers : ∀ link,
      (network.link link).receivers = (progress.network.link link).receivers)
    (senders : ∀ index, (network.link (Network.inputLink index)).senders =
      network.holders conductor.holdsEntry index) :
    Wired pipeline { progress with network, conductor } where
  topology_eq := topology.trans wired.topology_eq
  seed_eq := wired.seed_eq
  policy_eq index := (policies _).trans (wired.policy_eq index)
  receivers_eq index := by
    rw [receivers, executors]
    exact wired.receivers_eq index
  senders_eq := senders
  collector chain := by
    rw [policies, receivers]
    exact wired.collector chain

private theorem Wired.senders_released (wired : Wired pipeline progress)
    (held : progress.conductor.holdsEntry = true) (index : Fin n) :
    ((progress.network.updateLink (Network.entry n) Channel.dropSender).link
        (Network.inputLink index)).senders =
      (progress.network.updateLink (Network.entry n) Channel.dropSender).holders
        false index := by
  have before := wired.senders_eq index
  rw [held, Network.holders_eq_of_release] at before
  have entry : Network.inputLink index = Network.entry n ↔ index.val = 0 := by
    simp [Network.inputLink, Network.entry, Fin.ext_iff]
  have same :
      (progress.network.updateLink (Network.entry n) Channel.dropSender).holders
        false index = progress.network.holders false index :=
    Network.holders_eq rfl (fun _ => rfl) index
  rw [same, Network.link_updateLink]
  by_cases first : index.val = 0
  · rw [entry.mpr first] at before ⊢
    simp only [first, if_true, Channel.dropSender] at before ⊢
    omega
  · simp only [entry, first, if_false] at before ⊢
    omega

theorem Change.wired (change : progress.Change event after)
    (wired : Wired pipeline progress) :
    Wired pipeline after := by
  cases change with
  | turn turn deals => exact wired.of_turn turn deals
  | seed standing =>
      apply wired.of_conduct
      · rfl
      · exact fun _ => rfl
      · exact Network.updateLink_keeps Channel.policy rfl
      · exact Network.updateLink_keeps Channel.receivers rfl
      · intro index
        rw [Network.updateLink_keeps Channel.senders rfl, wired.senders_eq,
          standing]
        exact (Network.holders_eq rfl (fun _ => rfl) index).symm
  | refuse standing =>
      apply wired.of_conduct rfl (fun _ => rfl) (fun _ => rfl) (fun _ => rfl)
      intro index
      rw [wired.senders_eq index, standing]
      rfl
  | release standing | giveUp standing =>
      apply wired.of_conduct
      · rfl
      · exact fun _ => rfl
      · exact Network.updateLink_keeps Channel.policy rfl
      · exact Network.updateLink_keeps Channel.receivers rfl
      · apply wired.senders_released
        rw [standing]
        rfl
  | trip standing =>
      refine wired.of_conduct rfl (fun _ => rfl) (fun _ => rfl)
        (fun _ => rfl) ?_
      intro index
      rw [Network.link_trip, wired.senders_eq index, standing]
      rfl

theorem Recorded.wired {phases : Vector Word n} {events : List (Event n)}
    (recorded : (pipeline.opening phases).Recorded events progress) :
    Wired pipeline progress := by
  induction recorded using Recorded.changes with
  | start => exact wired_opening phases
  | change _ _ wired change => exact change.wired wired

end Progress

end Pipeline

end CellMachines
