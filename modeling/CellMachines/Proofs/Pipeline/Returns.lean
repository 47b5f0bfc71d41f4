import CellMachines.Proofs.Pipeline.Journal

/-!
# What a pipeline returns

A pipeline that accepts its phase settings and its policy always starts:
`opening` is the configuration it starts in.  `Visits` says that some run of it
comes to a configuration with a given journal, and `Returns` what it gives back,
either at once or when everybody has ended.  The schedule in rounds that `run`
follows is one of these runs.
-/

namespace CellMachines

namespace Pipeline

variable {n : Nat} {pipeline : Pipeline}

/-! ## What is accepted -/

private theorem repeatedFrom_eq_none_iff {seen phases : List Word} :
    repeatedFrom seen phases = none ↔
      phases.Nodup ∧ ∀ phase ∈ phases, phase ∉ seen := by
  induction phases generalizing seen with
  | nil => simp [repeatedFrom]
  | cons phase later induction =>
      unfold repeatedFrom
      split
      · simp_all
      · rw [induction, List.nodup_cons]
        constructor
        · rintro ⟨distinct, fresh⟩
          refine ⟨⟨?_, distinct⟩, ?_⟩
          · intro member
            exact fresh phase member (by simp)
          · intro other member
            rcases List.mem_cons.mp member with rfl | member
            · assumption
            · exact fun seen => fresh other member (List.mem_cons_of_mem _ seen)
        · rintro ⟨⟨new, distinct⟩, fresh⟩
          refine ⟨distinct, ?_⟩
          intro other member seen
          rcases List.mem_cons.mp seen with rfl | seen
          · exact new member
          · exact fresh other (List.mem_cons_of_mem _ member) seen

theorem phaseProblem?_eq_none_iff {phases : List Word} :
    phaseProblem? phases = none ↔ phases ≠ [] ∧ phases.Nodup := by
  unfold phaseProblem?
  cases phases with
  | nil => simp
  | cons phase later => simp [repeatedFrom_eq_none_iff]

/-- The policies that are accepted have room for what is on a link before
anybody takes. -/
theorem policyProblem?_eq_none_iff {policy : Policy} :
    policyProblem? policy = none ↔
      policy = .unbounded ∨
        (∃ capacity, 1 ≤ capacity ∧ policy = .backpressure capacity) ∨
        ∃ capacity, 2 ≤ capacity ∧ policy = .failFast capacity := by
  unfold policyProblem? Policy.backpressure Policy.failFast
  cases policy with
  | unbounded => simp
  | bounded capacity onFull => cases onFull <;> simp <;> omega

/-! ## The start -/

def openingLink (pipeline : Pipeline) (index : Nat) (phase : Word) : Channel :=
  (Channel.create pipeline.policy
    (writers pipeline.topology index + if index = 0 then 1 else 0) 1).push phase

/-- The configuration in which all executors are about to start. -/
def opening (pipeline : Pipeline) (phases : Vector Word n) : Progress n where
  network := {
    topology := pipeline.topology
    executors :=
      Vector.replicate n (Executor.start pipeline.program pipeline.limits)
    links :=
      (Vector.ofFn fun index =>
        pipeline.openingLink index (phases.get index)).push
          (lastLink pipeline.topology)
    tripped := false }
  conductor := .seeding
  seed := pipeline.seed

theorem hasRoom_of_accepted {policy : Policy}
    (accepted : policyProblem? policy = none) :
    policy.hasRoom 0 = true := by
  rcases policyProblem?_eq_none_iff.mp accepted with
    rfl | ⟨capacity, large, rfl⟩ | ⟨capacity, large, rfl⟩
  · rfl
  · simp only [Policy.hasRoom, Policy.backpressure, decide_eq_true_eq]
    omega
  · simp only [Policy.hasRoom, Policy.failFast, decide_eq_true_eq]
    omega

private theorem primedLink_eq (accepted : policyProblem? pipeline.policy = none)
    (index : Nat) (phase : Word) :
    pipeline.primedLink index phase =
      pure (pipeline.openingLink index phase) := by
  have room := hasRoom_of_accepted accepted
  simp [primedLink, openingLink, Channel.offer, Channel.create, Channel.length,
    Queue.empty, room]

theorem start_eq (accepted : policyProblem? pipeline.policy = none)
    (phases : Vector Word n) :
    (pipeline.start phases).run = some (.ok (pipeline.opening phases)) := by
  simp only [start, primedLink_eq accepted, Vector.ofFnM_pure, pure_bind]
  rfl

private theorem get_eq_getElem {α : Type} (values : Vector α n)
    (index : Fin n) : values.get index = values[index.val] :=
  rfl

theorem executor_opening (pipeline : Pipeline) (phases : Vector Word n)
    (index : Fin n) :
    (pipeline.opening phases).network.executor index =
      Executor.start pipeline.program pipeline.limits := by
  simp [opening, Network.executor, get_eq_getElem]

theorem inputLink_opening (pipeline : Pipeline) (phases : Vector Word n)
    (index : Fin n) :
    (pipeline.opening phases).network.link (Network.inputLink index) =
      pipeline.openingLink index (phases.get index) := by
  simp [opening, Network.link, Network.inputLink, get_eq_getElem]

theorem lastLink_opening (pipeline : Pipeline) (phases : Vector Word n) :
    (pipeline.opening phases).network.link (Fin.last n) =
      lastLink pipeline.topology := by
  simp [opening, Network.link, get_eq_getElem]

/-! ## Runs -/

def settings (phases : List Word) : Vector Word phases.length :=
  Vector.mk phases.toArray List.size_toArray

/-- Some run of the pipeline comes to a configuration with a journal. -/
structure Visits (pipeline : Pipeline) (phases : List Word)
    (events : List (Event phases.length))
    (progress : Progress phases.length) : Prop where
  phases_accepted : phaseProblem? phases = none
  policy_accepted : policyProblem? pipeline.policy = none
  recorded : ∃ first,
    (pipeline.start (settings phases)).run = some (.ok first) ∧
      first.Recorded events progress

/-- What a pipeline gives back, with the journal of the run that led there. -/
inductive Returns (pipeline : Pipeline) (phases : List Word) :
    List (Event phases.length) → Except PipelineError PipelineRun → Prop where
  | invalidPhases {reason : String} :
      phaseProblem? phases = some reason →
      Returns pipeline phases [] (.error (.invalidPhases reason))
  | invalidPolicy {reason : String} :
      phaseProblem? phases = none →
      policyProblem? pipeline.policy = some reason →
      Returns pipeline phases [] (.error (.invalidPolicy reason))
  | complete {events : List (Event phases.length)}
      {last : Progress phases.length} :
      pipeline.Visits phases events last → last.isComplete = true →
      Returns pipeline phases events (verdict last)

variable {phases : List Word} {events : List (Event phases.length)}
  {progress : Progress phases.length}

theorem Visits.of_opening (visits : pipeline.Visits phases events progress) :
    (pipeline.opening (settings phases)).Recorded events progress := by
  obtain ⟨first, started, recorded⟩ := visits.recorded
  rw [start_eq visits.policy_accepted] at started
  cases started
  exact recorded

theorem visits_of_follow {moves : List (Move phases.length)}
    (phases_accepted : phaseProblem? phases = none)
    (policy_accepted : policyProblem? pipeline.policy = none)
    (follows : (pipeline.opening (settings phases)).follow moves =
      some (events, progress)) :
    pipeline.Visits phases events progress where
  phases_accepted
  policy_accepted
  recorded := by
    refine ⟨_, start_eq policy_accepted _, ?_⟩
    simpa using Progress.Recorded.start.follow follows

theorem Returns.complete_of_accepted
    {outcome : Except PipelineError PipelineRun}
    (returns : pipeline.Returns phases events outcome) (nonempty : phases ≠ [])
    (distinct : phases.Nodup)
    (accepted : policyProblem? pipeline.policy = none) :
    ∃ last, pipeline.Visits phases events last ∧ last.isComplete = true ∧
      outcome = verdict last := by
  cases returns with
  | invalidPhases problem =>
      rw [phaseProblem?_eq_none_iff.mpr ⟨nonempty, distinct⟩] at problem
      cases problem
  | invalidPolicy _ problem =>
      rw [accepted] at problem
      cases problem
  | @complete _ last visits complete => exact ⟨last, visits, complete, rfl⟩

/-- The executable run is one of the runs. -/
theorem returns_of_run {budget : Nat}
    {outcome : Except PipelineError PipelineRun}
    (ran : (pipeline.run phases budget).run = some outcome) :
    ∃ events, pipeline.Returns phases events outcome := by
  unfold run at ran
  cases phasesAccepted : phaseProblem? phases with
  | some reason =>
      simp only [phasesAccepted] at ran
      cases ran
      exact ⟨[], .invalidPhases phasesAccepted⟩
  | none =>
      cases policyAccepted : policyProblem? pipeline.policy with
      | some reason =>
          simp only [phasesAccepted, policyAccepted] at ran
          cases ran
          exact ⟨[], .invalidPolicy phasesAccepted policyAccepted⟩
      | none =>
          have started := start_eq policyAccepted (settings phases)
          simp only [phasesAccepted, policyAccepted] at ran
          -- what is left of the run once both are accepted, with `settings`
          -- for the vector
          change (do
            let progress ← pipeline.start (settings phases)
            let after ← ExceptT.lift (progress.finish (Progress.round _) budget)
            ExceptT.mk (some (verdict after)) :
            ExceptT PipelineError Option PipelineRun).run = some outcome at ran
          simp only [ExceptT.run_bind, started, Option.bind_eq_bind,
            Option.bind_some] at ran
          cases finishes : (pipeline.opening (settings phases)).finish
              (Progress.round phases.length) budget with
          | none => simp [finishes, ExceptT.run_lift] at ran
          | some last =>
              have same : verdict last = outcome := by
                simpa [finishes, ExceptT.run_lift] using ran
              obtain ⟨reaches, complete⟩ := Progress.reaches_of_finish finishes
              obtain ⟨events, recorded⟩ := Progress.exists_recorded reaches
              have visits : pipeline.Visits phases events last :=
                ⟨phasesAccepted, policyAccepted, _, started, recorded⟩
              rw [← same]
              exact ⟨events, .complete visits complete⟩

end Pipeline

end CellMachines
