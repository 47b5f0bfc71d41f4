import CellMachines.Proofs.Pipeline.Accounts

/-!
# Conservation of words

A link neither loses nor duplicates nor reorders words.  As long as its machine
reads it, what that machine has taken and what is still on the link are the
phase setting and then everything that the machine upstream has put out, and on
link `0` the seed where it came in.  A word is dropped only where the machine
that would read it has ended: a put that finds no room fails, and its word has
not been put out then.  No link ever buffers more than its capacity.
-/

namespace CellMachines

namespace Pipeline

namespace Progress

variable {n : Nat} {pipeline : Pipeline} {phases : Vector Word n}
  {events : List (Event n)} {progress after : Progress n}
  {event : Option (Event n)} {index writer : Fin n}

/-! ## Capacities -/

private theorem Change.fits (change : progress.Change event after)
    (fits : ∀ link, (progress.network.link link).Fits) (link : Fin (n + 1)) :
    (after.network.link link).Fits := by
  cases change with
  | turn _ deals => exact deals.fits fits link
  | seed _ _ room =>
      exact Network.fits_updateLink fits (Channel.fits_push room _) link
  | release | giveUp =>
      have kept :
          (progress.network.link (Network.entry n)).dropSender.Fits := fits _
      exact Network.fits_updateLink fits kept link
  | refuse | trip => exact fits link

theorem Recorded.fits
    (recorded : (pipeline.opening phases).Recorded events progress)
    (accepted : policyProblem? pipeline.policy = none) (link : Fin (n + 1)) :
    (progress.network.link link).Fits := by
  induction recorded using Recorded.changes generalizing link with
  | start =>
      cases link using Fin.lastCases with
      | last =>
          rw [lastLink_opening]
          intro capacity onFull policy
          exfalso
          cases topology : pipeline.topology <;>
            simp [lastLink, topology, Channel.create] at policy
      | cast index =>
          have opens := inputLink_opening pipeline phases index
          rw [Network.inputLink] at opens
          rw [opens]
          exact Channel.fits_push (hasRoom_of_accepted accepted) _
  | change _ _ induction change => exact change.fits induction link

/-! ## Dropped words -/

/-- What a machine puts out comes onto the link it writes, unless the machine
that reads this link has ended. -/
theorem Recorded.emitted_cases
    (recorded : (pipeline.opening phases).Recorded events progress)
    (change : progress.Change event after) (writer : Fin n) :
    (after.network.executor writer).emitted.toList =
        (progress.network.executor writer).emitted.toList ++
          Event.sendings writer event.toList ∨
      Event.sendings writer event.toList = [] ∧
        ∃ reader,
          Network.upstream? pipeline.topology reader = some writer ∧
            (progress.network.executor reader).hasEnded = true := by
  obtain ⟨same, _, sent⟩ | ⟨dealing, between, turn, deals, rfl⟩ :=
    change.turn_or_same writer
  · left
    rw [same, sent, List.append_nil]
  · rw [turn.emitted_eq, Dealing.sendings_event?, if_pos rfl]
    cases deals with
    | discards gone =>
        right
        refine ⟨rfl, ?_⟩
        rw [recorded.wired.topology_eq] at gone
        obtain ⟨reader, upstream⟩ | ⟨chain, last⟩ :=
          Network.outputLink_cases pipeline.topology writer
        · refine ⟨reader, upstream, ?_⟩
          rw [Network.upstream?_eq_some_iff.mp upstream,
            recorded.wired.receivers_eq] at gone
          simpa using gone
        · -- the collector of a chain is never let go of
          rw [last, (recorded.wired.collector chain).2] at gone
          cases gone
    | _ => exact .inl rfl

/-- A machine whose put finds no room has not put out its word, and its link is
full and left as it was. -/
theorem Recorded.unchanged_of_overflow {capacity : Nat}
    (recorded : (pipeline.opening phases).Recorded events progress)
    (accepted : policyProblem? pipeline.policy = none)
    (change : progress.Change event after)
    (atWork : (progress.network.executor writer).outcome? = none)
    (overflows : (after.network.executor writer).outcome? =
      some (.error (.channelOverflow capacity))) :
    (after.network.executor writer).emitted =
        (progress.network.executor writer).emitted ∧
      (∀ link, after.network.link link = progress.network.link link) ∧
      (progress.network.link
        (Network.outputLink pipeline.topology writer)).length = capacity := by
  have running := ((recorded.explained writer).underway atWork).isTerminal rfl
  cases change with
  | @turn other dealing next between turn deals =>
      by_cases own : writer = other
      · subst own
        rw [Network.executor_acted] at overflows ⊢
        cases turn.leaves atWork overflows with
        | cancelled _ interrupted | starved _ interrupted => cases interrupted
        | stopped stops => cases stops.isFault running
        | failed same =>
            have emitted := turn.emitted_eq
            cases deals with
            | overflows policy full =>
                cases same
                have fits := recorded.fits accepted
                  (Network.outputLink pipeline.topology writer)
                rw [recorded.wired.topology_eq] at policy full
                have bound := fits _ _ policy
                rw [policy] at full
                simp only [Policy.hasRoom, Policy.failFast,
                  decide_eq_false_iff_not] at full
                refine ⟨?_, ?_, by omega⟩
                · apply Array.toList_inj.mp
                  simpa [Dealing.emitted] using emitted
                · intro link
                  rw [Network.link_updateExecutor]
            | cut interrupted =>
                rw [interrupted] at same
                cases same
      · have same : (between.updateExecutor other fun _ => next).executor
            writer = progress.network.executor writer := by
          rw [Network.executor_updateExecutor, if_neg own, deals.executor_eq]
        rw [same, atWork] at overflows
        cases overflows
  | seed | refuse | release | giveUp | trip =>
      have same := atWork.symm.trans overflows
      cases same

/-- A seed that is not put leaves all links as they were, and is turned away as
closed only where the first machine has ended. -/
theorem Recorded.unchanged_of_refused {error : ChannelError}
    (recorded : (pipeline.opening phases).Recorded events progress)
    (change : progress.Change event after)
    (standing : progress.conductor = .seeding)
    (refused : after.conductor = .releasing (.error error)) :
    after.network = progress.network ∧ event = none ∧
      (error = .closed → ∀ first : Fin n, first.val = 0 →
        (progress.network.executor first).hasEnded = true) := by
  cases change with
  | turn =>
      have impossible := standing.symm.trans refused
      cases impossible
  | seed => cases refused
  | refuse _ refuses =>
      cases refused
      refine ⟨rfl, rfl, ?_⟩
      rintro rfl first isFirst
      cases refuses with
      | closed gone =>
          have entry : Network.entry n = Network.inputLink first :=
            (Fin.ext isFirst).symm
          rw [entry, recorded.wired.receivers_eq] at gone
          simpa using gone
  | release other | giveUp other | trip other =>
      rw [standing] at other
      cases other

/-! ## What is on the way -/

/-- What a machine took and what is on its link is its phase setting, followed
by all that the machine upstream has put out, with the seeds put so far
somewhere among it if the machine is the first one. -/
theorem Recorded.contents_eq_insert
    (recorded : (pipeline.opening phases).Recorded events progress)
    (upstream : Network.upstream? pipeline.topology index = some writer)
    (first : index.val = 0)
    (reading : (progress.network.executor index).hasEnded = false) :
    ∃ ahead behind,
      (progress.network.executor writer).emitted.toList = ahead ++ behind ∧
        Event.takings index events ++
            (progress.network.link (Network.inputLink index)).contents =
          phases.get index :: (ahead ++ Event.seedings events ++ behind) := by
  rw [recorded.contents_eq reading,
    ← recorded.sendings_eq_of_reading upstream reading]
  obtain seedless | once := recorded.seedings_cases
  · refine ⟨Event.sendings writer events, [], by simp, ?_⟩
    rw [Event.arrivals_eq_sendings upstream fun _ => seedless, seedless]
    simp
  · obtain ⟨ahead, behind, arrived, sent, _⟩ :=
      Event.arrivals_eq_insert first upstream once
    refine ⟨ahead, behind, sent, ?_⟩
    rw [arrived, once]
    simp

end Progress

section Visits

variable {pipeline : Pipeline} {phases : List Word}
  {events : List (Event phases.length)} {progress : Progress phases.length}

/-- Links neither lose nor duplicate nor reorder words.  What a machine that has
not ended took, followed by what is on its link, is its phase setting and then
everything that the machine upstream has put out; on link `0` of a chain it is
the phase setting and the seed, once that is put, and in a ring the seed stands
somewhere among the words of the last machine.  Whatever a machine puts out in
one move comes onto its link, unless the machine that reads the link has ended.
A word that found no room has not been put out, and nothing else changes on any
link then.  No link buffers more words than its capacity. -/
theorem Visits.words_conserved
    (visits : pipeline.Visits phases events progress) :
    (∀ index, (progress.network.executor index).hasEnded = false →
      (∀ writer : Fin phases.length, writer.val + 1 = index.val →
        Event.takings index events ++
            (progress.network.link (Network.inputLink index)).contents =
          phases.get index ::
            (progress.network.executor writer).emitted.toList) ∧
      (index.val = 0 → pipeline.topology = .chain →
        Event.takings index events ++
            (progress.network.link (Network.inputLink index)).contents =
          phases.get index :: Event.seedings events) ∧
      (index.val = 0 → pipeline.topology = .ring →
        ∀ last : Fin phases.length, last.val + 1 = phases.length →
          ∃ ahead behind,
            (progress.network.executor last).emitted.toList =
                ahead ++ behind ∧
              Event.takings index events ++
                  (progress.network.link (Network.inputLink index)).contents =
                phases.get index ::
                  (ahead ++ Event.seedings events ++ behind))) ∧
    (Event.seedings events = [] ∨ Event.seedings events = [pipeline.seed]) ∧
    (∀ move after, progress.step move = some after →
      (∀ writer,
        (after.network.executor writer).emitted.toList =
            (progress.network.executor writer).emitted.toList ++
              Event.sendings writer (progress.event? move).toList ∨
          Event.sendings writer (progress.event? move).toList = [] ∧
            ∃ reader,
              Network.upstream? pipeline.topology reader = some writer ∧
                (progress.network.executor reader).hasEnded = true) ∧
      (∀ writer capacity,
        (progress.network.executor writer).outcome? = none →
        (after.network.executor writer).outcome? =
          some (.error (.channelOverflow capacity)) →
        (after.network.executor writer).emitted =
            (progress.network.executor writer).emitted ∧
          (∀ link, after.network.link link = progress.network.link link) ∧
          (progress.network.link
            (Network.outputLink pipeline.topology writer)).length =
              capacity) ∧
      ∀ error, progress.conductor = .seeding →
        after.conductor = .releasing (.error error) →
        after.network = progress.network ∧ progress.event? move = none ∧
          (error = .closed → ∀ first : Fin phases.length, first.val = 0 →
            (progress.network.executor first).hasEnded = true)) ∧
    ∀ link capacity onFull,
      (progress.network.link link).policy = .bounded capacity onFull →
      (progress.network.link link).length ≤ capacity := by
  have recorded := visits.of_opening
  have accepted := visits.policy_accepted
  refine ⟨?_, recorded.seedings_cases, ?_, recorded.fits accepted⟩
  · intro index reading
    have contents := recorded.contents_eq reading
    refine ⟨?_, ?_, ?_⟩
    · intro writer before
      have upstream :
          Network.upstream? pipeline.topology index = some writer :=
        Network.upstream?_eq_some_iff_val.mpr (.inl before.symm)
      have later : ¬index.val = 0 := by omega
      rw [contents, Event.arrivals_eq_sendings upstream fun first =>
        absurd first later, recorded.sendings_eq_of_reading upstream reading]
      rfl
    · intro first chain
      have unwired : Network.upstream? pipeline.topology index = none := by
        simp [Network.upstream?, first, chain]
      rw [contents, Event.arrivals_eq_seedings unwired]
      rfl
    · intro first ring last isLast
      have upstream :
          Network.upstream? pipeline.topology index = some last :=
        Network.upstream?_eq_some_iff_val.mpr (.inr ⟨ring, first, isLast⟩)
      exact recorded.contents_eq_insert upstream first reading
  · intro move after stepped
    have change := Progress.change_of_step stepped
    refine ⟨recorded.emitted_cases change, ?_, ?_⟩
    · intro writer capacity atWork overflows
      exact recorded.unchanged_of_overflow accepted change atWork overflows
    · intro error standing refused
      exact recorded.unchanged_of_refused change standing refused

/-- A ring whose machines put out a word before they take any. -/
def eager : Pipeline where
  program := ⟨[104, 5, 3, 20, 104, 6, 3, 20, 3, 20, 99]⟩
  topology := .ring
  policy := .failFast 3
  seed := 7

/-- The seed is put after a word of the last machine. -/
theorem words_conserved_eager : ∃ events progress,
    eager.Visits [1, 2] events progress ∧
      (∃ ahead behind,
        (progress.network.executor 1).emitted.toList = ahead ++ behind ∧
          Event.takings 0 events ++
              (progress.network.link (Network.inputLink 0)).contents =
            1 :: (ahead ++ [7] ++ behind)) ∧
      Event.takings 1 events ++
          (progress.network.link (Network.inputLink 1)).contents =
        2 :: (progress.network.executor 0).emitted.toList := by
  let act (index : Fin 2) (count : Nat) : List (Move 2) :=
    List.replicate count (.execute index false)
  let moves : List (Move 2) :=
    act 1 2 ++ [.conduct false] ++ act 0 6 ++ act 1 4
  have checks : ((eager.opening (settings [1, 2])).follow moves).any
      (fun (events, progress) =>
        !(progress.network.executor 0).hasEnded &&
          !(progress.network.executor 1).hasEnded &&
          Event.seedings events = [7]) = true := by
    decide +kernel
  obtain ⟨⟨events, progress⟩, follows, checks⟩ :=
    (Option.any_eq_true _ _).mp checks
  simp only [Bool.and_eq_true, Bool.not_eq_true', decide_eq_true_eq] at checks
  obtain ⟨⟨first, second⟩, seeded⟩ := checks
  have visits := visits_of_follow (by decide) (by decide) follows
  obtain ⟨conserved, _⟩ := visits.words_conserved
  have entry := (conserved 0 first).2.2 rfl rfl 1 rfl
  rw [seeded] at entry
  exact ⟨events, progress, visits, entry, (conserved 1 second).1 0 rfl⟩

end Visits

end Pipeline

end CellMachines
