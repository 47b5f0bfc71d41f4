import CellMachines.Proofs.Pipeline.Ends

/-!
# Accounts of a run

The journal of a run accounts for everything in the configuration it leads to.
What a machine took and what is still on its link make up what arrived there;
what it sent is a part of what it emitted, and all of it while the next machine
still reads; and the machine itself is explained by what it took.  The conductor
is accounted for by the seed that was put or that could not be put.
-/

namespace CellMachines

namespace Pipeline

namespace Progress

variable {n : Nat} {pipeline : Pipeline} {phases : Vector Word n}
  {events : List (Event n)} {progress after : Progress n}
  {event : Option (Event n)} {index writer : Fin n}

/-! ## Machines -/

theorem Recorded.explained
    (recorded : (pipeline.opening phases).Recorded events progress)
    (index : Fin n) :
    Executor.Explained (Machine.start pipeline.program pipeline.limits)
      (Event.takings index events) (progress.network.executor index) := by
  induction recorded using Recorded.changes with
  | start =>
      rw [executor_opening]
      exact Executor.explained_start _ _
  | change _ _ explained change =>
      rcases change.turn_or_same index with
        ⟨same, taken, _⟩ | ⟨dealing, _, turn, _, rfl⟩
      · rw [same, Event.takings_append, taken, List.append_nil]
        exact explained
      · rw [Event.takings_append, Dealing.takings_event?, if_pos rfl]
        exact turn.explained explained

/-- As long as somebody receives from a link, all that its machine emits comes
onto it. -/
theorem Recorded.sendings_eq
    (recorded : (pipeline.opening phases).Recorded events progress)
    (attended :
      (progress.network.link
        (Network.outputLink pipeline.topology writer)).receivers ≠ 0) :
    Event.sendings writer events =
      (progress.network.executor writer).emitted.toList := by
  induction recorded using Recorded.changes with
  | start =>
      rw [executor_opening]
      rfl
  | change recorded _ induction change =>
      have attendedBefore := mt change.receivers_eq_zero attended
      have before := induction attendedBefore
      rw [← recorded.wired.topology_eq] at attendedBefore
      rcases change.turn_or_same writer with
        ⟨same, _, sent⟩ | ⟨dealing, _, turn, deals, rfl⟩
      · rw [same, Event.sendings_append, sent, List.append_nil, before]
      · rw [Event.sendings_append, Dealing.sendings_event?, if_pos rfl, before,
          turn.emitted_eq]
        cases deals with
        | discards gone => exact absurd gone attendedBefore
        | _ => rfl

theorem Recorded.sendings_prefix_emitted
    (recorded : (pipeline.opening phases).Recorded events progress)
    (index : Fin n) :
    Event.sendings index events <+:
      (progress.network.executor index).emitted.toList := by
  induction recorded using Recorded.changes with
  | start => exact List.nil_prefix
  | change recorded _ induction change =>
      rcases change.turn_or_same index with
        ⟨same, _, sent⟩ | ⟨dealing, _, turn, deals, rfl⟩
      · rw [same, Event.sendings_append, sent, List.append_nil]
        exact induction
      · rw [Event.sendings_append, Dealing.sendings_event?, if_pos rfl,
          turn.emitted_eq]
        have kept := induction.trans (List.prefix_append _ dealing.emitted)
        cases deals with
        | sends attended =>
            -- nothing was dropped before, or this word would be dropped as well
            rw [recorded.wired.topology_eq] at attended
            rw [recorded.sendings_eq attended]
            exact List.prefix_refl _
        | _ => simpa [Dealing.sent] using kept

theorem Recorded.sendings_eq_of_reading
    (recorded : (pipeline.opening phases).Recorded events progress)
    (upstream : Network.upstream? pipeline.topology index = some writer)
    (reading : (progress.network.executor index).hasEnded = false) :
    Event.sendings writer events =
      (progress.network.executor writer).emitted.toList := by
  apply recorded.sendings_eq
  rw [Network.upstream?_eq_some_iff.mp upstream,
    recorded.wired.receivers_eq index, reading]
  simp

/-! ## Links -/

private theorem Change.contents_eq (change : progress.Change event after)
    (index : Fin n)
    (reading : (after.network.executor index).hasEnded = false) :
    Event.takings index event.toList ++
        (after.network.link (Network.inputLink index)).contents =
      (progress.network.link (Network.inputLink index)).contents ++
        Event.arrivals progress.network.topology index event.toList := by
  have entry : Network.inputLink index = Network.entry n ↔ index.val = 0 := by
    simp [Network.inputLink, Network.entry, Fin.ext_iff]
  cases change with
  | @turn other dealing next between turn deals =>
      by_cases closes : dealing = .closesInput
      · subst closes
        cases deals
        cases turn with
        | closeInput =>
            have distinct : index ≠ other := by
              rintro rfl
              simp [Executor.hasEnded, Executor.result?] at reading
            have elsewhere :
                Network.inputLink index ≠ Network.inputLink other :=
              fun same => distinct (Network.inputLink_injective same)
            simp [elsewhere, Dealing.event?, Event.takings, Event.arrivals]
      · exact deals.contents_eq closes index
  | seed =>
      rw [Network.link_updateLink]
      by_cases first : index.val = 0
      · rw [if_pos (entry.mpr first), Channel.contents_push, entry.mpr first]
        simp [Event.takings, Event.taken?, Event.arrivals, Event.arriving?,
          first]
      · rw [if_neg (mt entry.mp first)]
        simp [Event.takings, Event.taken?, Event.arrivals, Event.arriving?,
          first]
  | release | giveUp =>
      rw [Network.updateLink_keeps Channel.contents rfl]
      simp [Event.takings, Event.arrivals]
  | refuse | trip => simp [Event.takings, Event.arrivals]

/-- What a machine took and what is still on its link is the phase setting and
what arrived. -/
theorem Recorded.contents_eq
    (recorded : (pipeline.opening phases).Recorded events progress)
    (reading : (progress.network.executor index).hasEnded = false) :
    Event.takings index events ++
        (progress.network.link (Network.inputLink index)).contents =
      phases.get index :: Event.arrivals pipeline.topology index events := by
  induction recorded using Recorded.changes with
  | start =>
      rw [inputLink_opening, openingLink, Channel.contents_push]
      rfl
  | change recorded _ induction change =>
      have before := induction (change.reading_before reading)
      have moved := change.contents_eq index reading
      rw [recorded.wired.topology_eq] at moved
      rw [Event.takings_append, Event.arrivals_append, List.append_assoc, moved,
        ← List.append_assoc, before, List.cons_append]

theorem Recorded.takings_prefix_arrivals
    (recorded : (pipeline.opening phases).Recorded events progress)
    (index : Fin n) :
    Event.takings index events <+:
      phases.get index :: Event.arrivals pipeline.topology index events := by
  induction recorded using Recorded.changes with
  | start => exact List.nil_prefix
  | @change events progress after event recorded further induction change =>
      cases ended : (after.network.executor index).hasEnded with
      | false => exact ⟨_, further.contents_eq ended⟩
      | true =>
          -- whoever has ended takes nothing, and nobody ends with a take
          have nothing : Event.takings index event.toList = [] := by
            rcases change.turn_or_same index with
              ⟨_, taken, _⟩ | ⟨dealing, _, turn, _, rfl⟩
            · exact taken
            · rw [Dealing.takings_event?, if_pos rfl]
              by_cases closes : dealing = .closesInput
              · rw [closes]
                rfl
              · rw [turn.hasEnded_eq closes, turn.not_ended] at ended
                cases ended
          rw [Event.takings_append, nothing, List.append_nil,
            Event.arrivals_append, ← List.cons_append]
          exact induction.trans (List.prefix_append _ _)

/-! ## The conductor -/

/-- What became of the seed, by where the conductor stands. -/
inductive Delivered (seed : Word) (events : List (Event n))
    (network : Network n) : Conductor → Prop where
  | ahead : Event.seedings events = [] → Delivered seed events network .seeding
  | put :
      Event.seedings events = [seed] →
      Delivered seed events network (.releasing (.ok ()))
  | refused {error : ChannelError} :
      Event.seedings events = [] → Refuses network error →
      Delivered seed events network (.releasing (.error error))
  | blocked {source : ChannelError} {capacity : Nat} :
      Event.seedings events = [] →
      (network.link (Network.entry n)).policy = .failFast capacity →
      Delivered seed events network (.tripping source)
  | done :
      Event.seedings events = [seed] →
      Delivered seed events network (.joining none)
  | undone :
      Event.seedings events = [] →
      ((network.link (Network.entry n)).receivers = 0 ∨
        network.tripped = true) →
      Delivered seed events network (.joining none)
  | abandoned {source : ChannelError} {capacity : Nat} :
      Event.seedings events = [] →
      (network.link (Network.entry n)).policy = .failFast capacity →
      Delivered seed events network (.joining (some source))

private theorem Refuses.later {error : ChannelError}
    (refuses : Refuses progress.network error)
    (change : progress.Change event after) : Refuses after.network error := by
  cases refuses with
  | closed gone => exact .closed (change.receivers_eq_zero gone)
  | full policy => exact .full ((change.policy_eq _).trans policy)
  | cancelled tripped => exact .cancelled (change.tripped tripped)

private theorem Delivered.of_turn {seed : Word} {conductor : Conductor}
    (delivered : Delivered seed events progress.network conductor)
    (change : progress.Change event after)
    (seedless : Event.seedings event.toList = []) :
    Delivered seed (events ++ event.toList) after.network conductor := by
  have same :
      Event.seedings (events ++ event.toList) = Event.seedings events := by
    rw [Event.seedings_append, seedless, List.append_nil]
  cases delivered with
  | ahead none => exact .ahead (same.trans none)
  | put once => exact .put (same.trans once)
  | refused none refuses =>
      exact .refused (same.trans none) (refuses.later change)
  | blocked none policy =>
      exact .blocked (same.trans none) ((change.policy_eq _).trans policy)
  | done once => exact .done (same.trans once)
  | undone none reason =>
      exact .undone (same.trans none)
        (reason.imp change.receivers_eq_zero change.tripped)
  | abandoned none policy =>
      exact .abandoned (same.trans none) ((change.policy_eq _).trans policy)

theorem Recorded.delivered
    (recorded : (pipeline.opening phases).Recorded events progress) :
    Delivered pipeline.seed events progress.network progress.conductor := by
  induction recorded using Recorded.changes with
  | start => exact .ahead rfl
  | @change events progress after event recorded _ delivered change =>
      have seed_eq := recorded.wired.seed_eq
      cases change with
      | @turn index dealing _ _ turn deals =>
          apply delivered.of_turn (.turn turn deals)
          cases dealing <;> rfl
      | seed standing =>
          rw [standing] at delivered
          cases delivered with
          | ahead none =>
              apply Delivered.put
              rw [Event.seedings_append, none, seed_eq]
              rfl
      | refuse standing refuses =>
          rw [standing] at delivered
          cases delivered with
          | ahead none => exact .refused (by simpa using none) refuses
      | release standing spared =>
          rw [standing] at delivered
          cases delivered with
          | put once => exact .done (by simpa using once)
          | refused none refuses =>
              have later := refuses.later (.release standing spared)
              apply Delivered.undone (by simpa using none)
              cases later with
              | closed gone => exact .inl gone
              | @full capacity => exact absurd rfl (spared capacity)
              | cancelled tripped => exact .inr tripped
      | giveUp standing =>
          rw [standing] at delivered
          cases delivered with
          | refused none refuses =>
              cases refuses.later (.giveUp standing) with
              | full policy => exact .blocked (by simpa using none) policy
      | trip standing =>
          rw [standing] at delivered
          cases delivered with
          | blocked none policy => exact .abandoned (by simpa using none) policy

theorem Recorded.seedings_cases
    (recorded : (pipeline.opening phases).Recorded events progress) :
    Event.seedings events = [] ∨ Event.seedings events = [pipeline.seed] := by
  have delivered := recorded.delivered
  generalize progress.conductor = conductor at delivered
  cases delivered with
  | ahead none | refused none | blocked none | undone none | abandoned none =>
      exact .inl none
  | put once | done once => exact .inr once

/-! ## Failures -/

private theorem Recorded.activity_ne_failing
    (recorded : (pipeline.opening phases).Recorded events progress)
    (index : Fin n) :
    (progress.network.executor index).activity ≠ .failing .interrupted := by
  induction recorded using Recorded.changes with
  | start =>
      rw [executor_opening]
      simp [Executor.start]
  | change _ _ induction change =>
      rcases change.turn_or_same index with ⟨same, _⟩ | ⟨_, _, turn, _⟩
      · rw [same]
        exact induction
      · exact turn.activity_ne_failing

/-- A token is tripped for a machine that failed by itself, or for a seed that
found no room. -/
theorem Recorded.alarm
    (recorded : (pipeline.opening phases).Recorded events progress)
    (tripped : progress.network.tripped = true) :
    (∃ index failure,
        (progress.network.executor index).outcome? = some (.error failure) ∧
          failure ≠ .interrupted) ∨
      ∃ source, progress.conductor = .joining (some source) := by
  induction recorded using Recorded.changes with
  | start => cases tripped
  | @change events progress after event recorded _ induction change =>
      cases before : progress.network.tripped with
      | true =>
          rcases induction before with
            ⟨index, failure, outcome, own⟩ | ⟨source, standing⟩
          · left
            exact ⟨index, failure, (change.outcome?_eq_some outcome).1, own⟩
          · right
            refine ⟨source, ?_⟩
            cases change with
            | turn => exact standing
            | seed other | refuse other | release other | giveUp other
            | trip other =>
                rw [standing] at other
                cases other
      | false =>
          cases change with
          | @turn index dealing next between turn deals =>
              by_cases trips : dealing = .trips
              · subst trips
                have own := recorded.activity_ne_failing index
                cases turn with
                | @trip failure failing =>
                    refine .inl ⟨index, failure, ?_, ?_⟩
                    · simp [Executor.outcome?]
                    · rintro rfl
                      exact own failing
              · have still := deals.tripped_eq trips
                rw [before] at still
                rw [Network.tripped_updateExecutor, still] at tripped
                cases tripped
          | @trip source => exact .inr ⟨source, rfl⟩
          | seed | refuse | release | giveUp => simp [before] at tripped

private theorem Wired.outputLink_policy (wired : Wired pipeline progress)
    {capacity : Nat}
    (policy : (progress.network.link
      (Network.outputLink progress.network.topology index)).policy =
        .failFast capacity) :
    pipeline.policy = .failFast capacity := by
  rw [wired.topology_eq] at policy
  rcases Network.outputLink_cases pipeline.topology index with
    ⟨reader, upstream⟩ | ⟨chain, last⟩
  · rw [Network.upstream?_eq_some_iff.mp upstream, wired.policy_eq] at policy
    exact policy
  · rw [last, (wired.collector chain).1] at policy
    cases policy

theorem Recorded.overflow
    (recorded : (pipeline.opening phases).Recorded events progress)
    {capacity : Nat}
    (outcome : (progress.network.executor index).outcome? =
      some (.error (.channelOverflow capacity))) :
    pipeline.policy = .failFast capacity := by
  induction recorded using Recorded.changes with
  | start =>
      rw [executor_opening] at outcome
      cases outcome
  | @change events progress after event recorded _ induction change =>
      cases before : (progress.network.executor index).outcome? with
      | some result =>
          rw [(change.outcome?_eq_some before).1] at outcome
          exact induction (before.trans outcome)
      | none =>
          have running :=
            ((recorded.explained index).underway before).isTerminal rfl
          rcases change.turn_or_same index with
            ⟨same, _⟩ | ⟨dealing, _, turn, deals, _⟩
          · rw [same, before] at outcome
            cases outcome
          · cases turn.leaves before outcome with
            | cancelled _ interrupted => cases interrupted
            | starved _ interrupted => cases interrupted
            | stopped stops =>
                -- a machine that ends by itself has a fault
                cases stops.isFault running
            | failed same =>
                cases deals with
                | overflows policy =>
                    cases same
                    exact recorded.wired.outputLink_policy policy
                | cut interrupted =>
                    rw [interrupted] at same
                    cases same

end Progress

end Pipeline

end CellMachines
