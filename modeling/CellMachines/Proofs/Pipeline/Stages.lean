import CellMachines.Proofs.Pipeline.Accounts

/-!
# Stages

A stage is the run of a single machine on a fixed list of inputs.  Stages that
feed each other in the way the machines of a pipeline do (`Solves`) determine
what those machines can do: as long as the seed comes first on link `0`, no
machine of a run ever takes or emits anything but a beginning of what its stage
takes and puts out, in whatever order the machines act and whatever the links
hold.  So whoever ends by itself ends as its stage does, and whoever is
interrupted in an untripped network had come to the point where its stage runs
out of inputs.
-/

namespace CellMachines

/-- How the run of a single machine on a fixed list of inputs ends. -/
structure Stage where
  result : Except Failure Unit
  machine : Machine
  outputs : List Word

namespace Executor

variable {first last : Machine} {taken inputs outputs : List Word}
  {executor : Executor} {result other : Except Failure Unit}

theorem Explained.emitted_prefix_outputs
    (explained : Explained first taken executor)
    (concludes : first.Concludes inputs result last outputs)
    (within : taken <+: inputs) :
    executor.emitted.toList <+: outputs := by
  cases outcome : executor.outcome? with
  | none =>
      exact concludes.emitted_prefix_outputs (explained.underway outcome) within
  | some ending =>
      cases explained.outcome ending outcome with
      | stopped walk stops split =>
          subst split
          exact concludes.emitted_prefix_outputs walk
            ((List.prefix_append _ _).trans within)
      | cut walk => exact concludes.emitted_prefix_outputs walk within

/-- No executor ends for lack of inputs: either its machine has a fault or a
link let it down. -/
theorem Explained.not_exhausted (explained : Explained first taken executor)
    (running : first.status.isTerminal = false) :
    executor.outcome? ≠ some (.error .inputExhausted) := by
  intro outcome
  cases explained.outcome _ outcome with
  | stopped walk stops => cases stops.isFault (walk.isTerminal running)
  | cut _ reason => simp at reason

theorem Explained.agrees (explained : Explained first taken executor)
    (concludes : first.Concludes inputs result last outputs)
    (within : taken <+: inputs) (outcome : executor.outcome? = some other)
    (own : other ≠ .error .interrupted)
    (roomy : ∀ capacity, other ≠ .error (.channelOverflow capacity)) :
    other = result ∧ executor.machine = last ∧
      executor.emitted.toList = outputs := by
  cases explained.outcome other outcome with
  | stopped walk stops split =>
      subst split
      exact Machine.Concludes.unique (.stops walk stops within) concludes
  | cut _ reason =>
      rcases reason with rfl | ⟨capacity, rfl⟩
      · exact absurd rfl own
      · exact absurd rfl (roomy capacity)

end Executor

namespace Pipeline

variable {n : Nat} {pipeline : Pipeline} {phases : Vector Word n}
  {stages : Fin n → Stage}

/-- What a machine is given after its phase setting: the seed, if it is the
first one, and all that the stage upstream puts out. -/
def feed (pipeline : Pipeline) (stages : Fin n → Stage) (index : Fin n) :
    List Word :=
  (if index.val = 0 then [pipeline.seed] else []) ++
    (Network.upstream? pipeline.topology index).elim [] fun writer =>
      (stages writer).outputs

/-- The stages feed each other as the machines of the pipeline do. -/
def Solves (pipeline : Pipeline) (phases : Vector Word n)
    (stages : Fin n → Stage) : Prop :=
  ∀ index, (Machine.start pipeline.program pipeline.limits).Concludes
    (phases.get index :: pipeline.feed stages index) (stages index).result
    (stages index).machine (stages index).outputs

namespace Progress

variable {events : List (Event n)} {progress : Progress n} {index : Fin n}

private theorem Recorded.takings_prefix_of_emitted
    (recorded : (pipeline.opening phases).Recorded events progress)
    (seedFirst : Event.SeedFirst pipeline.topology events)
    (emitted : ∀ writer,
      (progress.network.executor writer).emitted.toList <+:
        (stages writer).outputs)
    (index : Fin n) :
    Event.takings index events <+:
      phases.get index :: pipeline.feed stages index := by
  apply (recorded.takings_prefix_arrivals index).trans
  apply (List.prefix_cons_inj _).mpr
  have sent (writer : Fin n) :
      Event.sendings writer events <+: (stages writer).outputs :=
    (recorded.sendings_prefix_emitted writer).trans (emitted writer)
  rw [Event.arrivals_eq seedFirst
    (recorded.seedings_cases.imp_right fun once => ⟨_, once⟩), feed]
  cases upstream : Network.upstream? pipeline.topology index with
  | none =>
      rcases recorded.seedings_cases with seedless | once <;> split <;> simp [*]
  | some writer =>
      by_cases first : index.val = 0
      · rcases recorded.seedings_cases with seedless | once
        · have silent := seedFirst.sendings_eq_nil
            (Network.outputLink_eq_entry upstream first) seedless
          simp [first, seedless, silent]
        · simpa [first, once] using sent writer
      · simpa [first] using sent writer

/-- A machine never emits anything but a beginning of what its stage puts
out. -/
theorem Recorded.emitted_prefix_outputs
    (recorded : (pipeline.opening phases).Recorded events progress)
    (solves : pipeline.Solves phases stages)
    (seedFirst : Event.SeedFirst pipeline.topology events) (index : Fin n) :
    (progress.network.executor index).emitted.toList <+:
      (stages index).outputs := by
  induction recorded using Recorded.changes generalizing index with
  | start =>
      rw [executor_opening]
      exact List.nil_prefix
  | change recorded further induction change =>
      have before := induction seedFirst.of_append
      rcases change.turn_or_same index with
        ⟨same, _⟩ | ⟨dealing, _, turn, _, rfl⟩
      · rw [same]
        exact before index
      · by_cases silent : dealing.emitted = []
        · rw [turn.emitted_eq, silent, List.append_nil]
          exact before index
        · -- a machine that puts out a word takes none, and what it took before
          -- was right
          have nothing : dealing.received = [] := by
            cases dealing <;> first | rfl | exact absurd rfl silent
          have explained := further.explained index
          rw [Event.takings_append, Dealing.takings_event?, if_pos rfl, nothing,
            List.append_nil] at explained
          exact explained.emitted_prefix_outputs (solves index)
            (recorded.takings_prefix_of_emitted seedFirst.of_append
              before index)

theorem Recorded.takings_prefix_feed
    (recorded : (pipeline.opening phases).Recorded events progress)
    (solves : pipeline.Solves phases stages)
    (seedFirst : Event.SeedFirst pipeline.topology events) (index : Fin n) :
    Event.takings index events <+:
      phases.get index :: pipeline.feed stages index :=
  recorded.takings_prefix_of_emitted seedFirst
    (recorded.emitted_prefix_outputs solves seedFirst) index

/-- The machines of a configuration as if all had halted. -/
def halts (progress : Progress n) (index : Fin n) : Stage where
  result := .ok ()
  machine := (progress.network.executor index).machine
  outputs := (progress.network.executor index).emitted.toList

theorem Recorded.solves_of_halted
    (recorded : (pipeline.opening phases).Recorded events progress)
    (seedFirst : Event.SeedFirst pipeline.topology events)
    (halted : ∀ index,
      (progress.network.executor index).outcome? = some (.ok ())) :
    pipeline.Solves phases progress.halts := by
  intro index
  have emitted (writer : Fin n) :
      (progress.network.executor writer).emitted.toList <+:
        (progress.halts writer).outputs :=
    List.prefix_refl _
  have within := recorded.takings_prefix_of_emitted seedFirst emitted index
  cases (recorded.explained index).outcome _ (halted index) with
  | stopped walk stops split =>
      rw [← split] at within
      exact .stops walk stops within

theorem Recorded.agrees
    (recorded : (pipeline.opening phases).Recorded events progress)
    (solves : pipeline.Solves phases stages)
    (seedFirst : Event.SeedFirst pipeline.topology events)
    {result : Except Failure Unit}
    (outcome : (progress.network.executor index).outcome? = some result)
    (own : result ≠ .error .interrupted)
    (roomy : ∀ capacity, result ≠ .error (.channelOverflow capacity)) :
    result = (stages index).result ∧
      (progress.network.executor index).machine = (stages index).machine ∧
      (progress.network.executor index).emitted.toList =
        (stages index).outputs :=
  (recorded.explained index).agrees (solves index)
    (recorded.takings_prefix_feed solves seedFirst index) outcome own roomy

section Patient

variable (patient : ∀ capacity, pipeline.policy ≠ .failFast capacity)

include patient

theorem Recorded.roomy
    (recorded : (pipeline.opening phases).Recorded events progress)
    {result : Except Failure Unit}
    (outcome : (progress.network.executor index).outcome? = some result)
    (capacity : Nat) :
    result ≠ .error (.channelOverflow capacity) := by
  rintro rfl
  exact patient capacity (recorded.overflow outcome)

theorem Recorded.conductor_patient
    (recorded : (pipeline.opening phases).Recorded events progress)
    (index : Fin n) :
    (∀ source, progress.conductor ≠ .tripping source) ∧
      ∀ source, progress.conductor ≠ .joining (some source) := by
  have entry : Network.entry n = Network.inputLink ⟨0, index.pos⟩ := rfl
  have delivered := recorded.delivered
  have wired := recorded.wired
  constructor
  · intro source standing
    rw [standing] at delivered
    cases delivered with
    | blocked _ policy =>
        rw [entry, wired.policy_eq] at policy
        exact patient _ policy
  · intro source standing
    rw [standing] at delivered
    cases delivered with
    | abandoned _ policy =>
        rw [entry, wired.policy_eq] at policy
        exact patient _ policy

/-- The seed was put if the conductor has let go of a link still being read. -/
private theorem Recorded.seedings_eq_of_released
    (recorded : (pipeline.opening phases).Recorded events progress)
    (untripped : progress.network.tripped = false) (first : index.val = 0)
    (reading : (progress.network.executor index).hasEnded = false)
    (released : progress.conductor.holdsEntry = false) :
    Event.seedings events = [pipeline.seed] := by
  have entry : Network.entry n = Network.inputLink index := (Fin.ext first).symm
  have delivered := recorded.delivered
  obtain ⟨patience, endurance⟩ := recorded.conductor_patient patient index
  generalize progress.conductor = conductor at *
  cases delivered with
  | done once => exact once
  | undone _ reason =>
      rw [entry, recorded.wired.receivers_eq, reading, untripped] at reason
      simp at reason
  | ahead | put | refused => cases released
  | blocked => exact absurd rfl (patience _)
  | abandoned => exact absurd rfl (endurance _)

private theorem Recorded.takings_eq_of_drained
    (recorded : (pipeline.opening phases).Recorded events progress)
    (seedFirst : Event.SeedFirst pipeline.topology events)
    (untripped : progress.network.tripped = false)
    (reading : (progress.network.executor index).hasEnded = false)
    (drained : (progress.network.link (Network.inputLink index)).contents = [])
    (deserted : (progress.network.link (Network.inputLink index)).senders = 0)
    (complete : ∀ writer result,
      (progress.network.executor writer).outcome? = some result →
      (progress.network.executor writer).emitted.toList =
        (stages writer).outputs) :
    Event.takings index events =
      phases.get index :: pipeline.feed stages index := by
  have wired := recorded.wired
  have contents := recorded.contents_eq reading
  rw [drained, List.append_nil,
    Event.arrivals_eq seedFirst
      (recorded.seedings_cases.imp_right fun once => ⟨_, once⟩)]
    at contents
  rw [wired.senders_eq, Network.holders, wired.topology_eq] at deserted
  rw [contents, feed]
  congr 2
  · by_cases first : index.val = 0
    · have released : progress.conductor.holdsEntry = false := by
        by_contra held
        simp [first, held] at deserted
      rw [if_pos first, if_pos first]
      exact recorded.seedings_eq_of_released patient untripped first reading
        released
    · simp [first]
  · cases upstream : Network.upstream? pipeline.topology index with
    | none => rfl
    | some writer =>
        have gone : (progress.network.executor writer).holdsOutput = false := by
          by_contra holding
          simp [upstream, holding] at deserted
        obtain ⟨result, outcome⟩ := Executor.outcome?_of_not_holdsOutput gone
        exact (recorded.sendings_eq_of_reading upstream reading).trans
          (complete writer result outcome)

/-- A machine that is interrupted in an untripped network has come to the end of
its stage, which runs out of inputs. -/
theorem Recorded.starved
    (recorded : (pipeline.opening phases).Recorded events progress)
    (solves : pipeline.Solves phases stages)
    (seedFirst : Event.SeedFirst pipeline.topology events)
    (untripped : progress.network.tripped = false)
    (outcome : (progress.network.executor index).outcome? =
      some (.error .interrupted)) :
    (stages index).result = .error .inputExhausted ∧
      (progress.network.executor index).emitted.toList =
        (stages index).outputs := by
  induction recorded using Recorded.changes generalizing index with
  | start =>
      rw [executor_opening] at outcome
      cases outcome
  | @change events progress after event recorded further induction change =>
      have earlier := seedFirst.of_append
      have quiet : progress.network.tripped = false := by
        by_contra tripped
        rw [change.tripped (by simpa using tripped)] at untripped
        cases untripped
      -- whoever was on the way out before has emitted all of the stage
      have complete : ∀ writer result,
          (progress.network.executor writer).outcome? = some result →
          (progress.network.executor writer).emitted.toList =
            (stages writer).outputs := by
        intro writer result outcome
        by_cases own : result = .error .interrupted
        · exact (induction earlier quiet (own ▸ outcome)).2
        · exact (recorded.agrees solves earlier outcome own
            (recorded.roomy patient outcome)).2.2
      cases before : (progress.network.executor index).outcome? with
      | some result =>
          obtain ⟨stays, emitted⟩ := change.outcome?_eq_some before
          rw [stays] at outcome
          rw [emitted]
          exact induction earlier quiet (before.trans outcome)
      | none =>
          have walk := (recorded.explained index).underway before
          rcases change.turn_or_same index with
            ⟨same, _⟩ | ⟨dealing, _, turn, deals, _⟩
          · rw [same, before] at outcome
            cases outcome
          · cases turn.leaves before outcome with
            | cancelled tripped =>
                rw [quiet] at tripped
                cases tripped
            | stopped stops =>
                -- a machine that ends by itself has a fault
                cases stops.isFault (walk.isTerminal rfl)
            | starved asks =>
                have nothing : Dealing.starves.emitted = [] := rfl
                rw [turn.emitted_eq, nothing, List.append_nil]
                cases deals with
                | starves reason =>
                    rcases reason with tripped | ⟨drained, deserted⟩
                    · rw [quiet] at tripped
                      cases tripped
                    · have whole := recorded.takings_eq_of_drained patient
                        earlier quiet turn.not_ended drained deserted complete
                      rw [whole] at walk
                      obtain ⟨result, -, outputs⟩ :=
                        (solves index).unique (.starves walk asks)
                      exact ⟨result, outputs.symm⟩
            | failed same =>
                cases deals with
                | overflows => cases same
                | cut _ tripped =>
                    rw [quiet] at tripped
                    cases tripped

end Patient

end Progress

end Pipeline

end CellMachines
