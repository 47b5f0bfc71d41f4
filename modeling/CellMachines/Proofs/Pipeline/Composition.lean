import CellMachines.Proofs.Pipeline.Outcome
import Mathlib.Order.WellFounded

/-!
# Chains and sequential composition

A chain of machines that run at the same time returns what the same machines
return one after another, each with all outputs of the one before as its inputs.
Neither the order in which they act nor the capacity of the links makes a
difference, as long as a put that finds no room waits.
-/

namespace CellMachines

/-- The run of a fresh machine of a pipeline on the given inputs. -/
def Stage.run (pipeline : Pipeline) (budget : Nat) (inputs : List Word) :
    Option Stage :=
  (Machine.run Tape.surroundings budget
    (Machine.start pipeline.program pipeline.limits)
    { waiting := inputs }).map fun (result, machine, tape) =>
      { result, machine, outputs := tape.emitted.toList }

namespace Pipeline

variable {pipeline : Pipeline}

/-- The stages of machines that run one after another until each has ended.
Each is given its phase setting and then everything that the one before put out,
however it ended; the first one is given `inputs` after its phase setting. -/
inductive Composes (pipeline : Pipeline) :
    List Word → List Word → List Stage → Prop where
  | nil {inputs : List Word} : Composes pipeline [] inputs []
  | cons {budget : Nat} {phase : Word} {later inputs : List Word}
      {stage : Stage} {stages : List Stage} :
      Stage.run pipeline budget (phase :: inputs) = some stage →
      Composes pipeline later stage.outputs stages →
      Composes pipeline (phase :: later) inputs (stage :: stages)

/-- Runs one machine after another, each within the budget. -/
def compose (pipeline : Pipeline) (budget : Nat) :
    List Word → List Word → Option (List Stage)
  | [], _ => some []
  | phase :: later, inputs => do
    let stage ← Stage.run pipeline budget (phase :: inputs)
    return stage :: (← compose pipeline budget later stage.outputs)

theorem stage_run_of_le {budget larger : Nat} {inputs : List Word}
    {stage : Stage} (ran : Stage.run pipeline budget inputs = some stage)
    (within : budget ≤ larger) :
    Stage.run pipeline larger inputs = some stage := by
  obtain ⟨ending, ended, rfl⟩ := Option.map_eq_some_iff.mp ran
  rw [Stage.run, Machine.run_of_le ended within]
  rfl

theorem compose_cons_eq_some_iff {budget : Nat} {phase : Word}
    {later inputs : List Word} {stages : List Stage} :
    pipeline.compose budget (phase :: later) inputs = some stages ↔
      ∃ stage rest, Stage.run pipeline budget (phase :: inputs) = some stage ∧
        pipeline.compose budget later stage.outputs = some rest ∧
        stages = stage :: rest := by
  simp only [compose, Option.bind_eq_bind, Option.bind_eq_some_iff,
    Option.pure_def, Option.some.injEq]
  constructor
  · rintro ⟨stage, ran, rest, composed, rfl⟩
    exact ⟨stage, rest, ran, composed, rfl⟩
  · rintro ⟨stage, rest, ran, composed, rfl⟩
    exact ⟨stage, ran, rest, composed, rfl⟩

theorem compose_of_le {budget larger : Nat} {phases inputs : List Word}
    {stages : List Stage}
    (composed : pipeline.compose budget phases inputs = some stages)
    (within : budget ≤ larger) :
    pipeline.compose larger phases inputs = some stages := by
  induction phases generalizing inputs stages with
  | nil => exact composed
  | cons phase later induction =>
      obtain ⟨stage, rest, ran, further, rfl⟩ :=
        compose_cons_eq_some_iff.mp composed
      exact compose_cons_eq_some_iff.mpr ⟨stage, rest,
        stage_run_of_le ran within, induction further, rfl⟩

theorem composes_iff_exists_compose {phases inputs : List Word}
    {stages : List Stage} :
    pipeline.Composes phases inputs stages ↔
      ∃ budget, pipeline.compose budget phases inputs = some stages := by
  constructor
  · intro composes
    induction composes with
    | nil => exact ⟨0, rfl⟩
    | @cons budget _ _ _ stage _ ran _ induction =>
        obtain ⟨enough, composed⟩ := induction
        refine ⟨max budget enough, ?_⟩
        exact compose_cons_eq_some_iff.mpr ⟨stage, _,
          stage_run_of_le ran (Nat.le_max_left _ _),
          compose_of_le composed (Nat.le_max_right _ _), rfl⟩
  · rintro ⟨budget, composed⟩
    induction phases generalizing inputs stages with
    | nil =>
        cases composed
        exact .nil
    | cons phase later induction =>
        obtain ⟨stage, rest, ran, further, rfl⟩ :=
          compose_cons_eq_some_iff.mp composed
        exact .cons ran (induction further)

theorem exists_composes_of_stepLimit {limit : Nat}
    (limited : pipeline.limits.steps = some limit) (phases inputs : List Word) :
    ∃ stages, pipeline.Composes phases inputs stages := by
  induction phases generalizing inputs with
  | nil => exact ⟨[], .nil⟩
  | cons phase later induction =>
      have enough : limit <
          (Machine.start pipeline.program pipeline.limits).steps +
            (limit + 1) := by
        simp [Machine.start]
      have plain : Machine.IsPlain { waiting := phase :: inputs } := ⟨rfl, rfl⟩
      obtain ⟨result, machine, tape, ran⟩ :=
        Machine.exists_run_of_stepLimit plain limited (Nat.zero_le limit) enough
      obtain ⟨stages, composes⟩ := induction tape.emitted.toList
      have stage : Stage.run pipeline (limit + 1) (phase :: inputs) =
          some { result, machine, outputs := tape.emitted.toList } := by
        simp [Stage.run, ran]
      exact ⟨_, .cons stage composes⟩

theorem concludes_of_stage_run {budget : Nat} {inputs : List Word}
    {stage : Stage} (ran : Stage.run pipeline budget inputs = some stage) :
    (Machine.start pipeline.program pipeline.limits).Concludes inputs
      stage.result stage.machine stage.outputs := by
  obtain ⟨⟨result, machine, tape⟩, ended, rfl⟩ := Option.map_eq_some_iff.mp ran
  exact Machine.concludes_of_run ended

namespace Composes

variable {phases inputs : List Word} {stages : List Stage}

theorem length_eq (composes : pipeline.Composes phases inputs stages) :
    stages.length = phases.length := by
  induction composes with
  | nil => rfl
  | cons _ _ induction => rw [List.length_cons, induction, List.length_cons]

private theorem concludes (composes : pipeline.Composes phases inputs stages)
    (index : Nat) (inPhases : index < phases.length)
    (inStages : index < stages.length)
    (inFeeds : index < (inputs :: stages.map Stage.outputs).length) :
    (Machine.start pipeline.program pipeline.limits).Concludes
      (phases[index] :: (inputs :: stages.map Stage.outputs)[index])
      stages[index].result stages[index].machine stages[index].outputs := by
  induction composes generalizing index with
  | nil => exact absurd inPhases (Nat.not_lt_zero _)
  | cons ran _ induction =>
      cases index with
      | zero => exact concludes_of_stage_run ran
      | succ index =>
          exact induction index (Nat.lt_of_succ_lt_succ inPhases)
            (Nat.lt_of_succ_lt_succ inStages) (Nat.lt_of_succ_lt_succ inFeeds)

/-- Stages that run one after another feed each other as the machines of a chain
do. -/
private theorem solves
    (composes : pipeline.Composes phases [pipeline.seed] stages)
    (chain : pipeline.topology = .chain) (stage : Fin phases.length → Stage)
    (same : ∀ index, stages[index.val]? = some (stage index)) :
    pipeline.Solves (settings phases) stage := by
  intro index
  have below : index.val < stages.length := by
    rw [composes.length_eq]
    exact index.isLt
  have inFeeds :
      index.val < ([pipeline.seed] :: stages.map Stage.outputs).length := by
    simp only [List.length_cons, List.length_map]
    omega
  have fed : ([pipeline.seed] :: stages.map Stage.outputs)[index.val] =
      pipeline.feed stage index := by
    rw [feed, chain]
    obtain ⟨index, bound⟩ := index
    cases index with
    | zero => rfl
    | succ before =>
        obtain ⟨_, upstream⟩ :=
          List.getElem?_eq_some_iff.mp (same ⟨before, by omega⟩)
        simp only at upstream
        simp [Network.upstream?, upstream]
  obtain ⟨_, here⟩ := List.getElem?_eq_some_iff.mp (same index)
  have concluded := composes.concludes index.val index.isLt below inFeeds
  rw [here, fed] at concluded
  exact concluded

end Composes

/-- A chain returns what its machines return one after another.  With a step
limit these always come to an end, and then: if they all halt, the result is
made of their reports; if some run out of inputs and the others halt, the first
of those is named as interrupted; and if some fail by themselves, one of these
is named with its failure. -/
theorem chain_eq_compose {phases : List Word}
    (chain : pipeline.topology = .chain) (nonempty : phases ≠ [])
    (distinct : phases.Nodup)
    (patient : pipeline.policy = .unbounded ∨
      ∃ capacity, 1 ≤ capacity ∧ pipeline.policy = .backpressure capacity) :
    (∀ limit, pipeline.limits.steps = some limit →
      ∃ stages, pipeline.Composes phases [pipeline.seed] stages) ∧
    ∀ stages events outcome,
      pipeline.Composes phases [pipeline.seed] stages →
      pipeline.Returns phases events outcome →
      ((∀ stage ∈ stages, stage.result = .ok ()) →
        outcome = resultOf .chain
          (stages.mapIdx fun index stage => stage.report index)) ∧
      ((∃ stage ∈ stages, stage.result = .error .inputExhausted) →
        (∀ stage ∈ stages,
          stage.result = .ok () ∨ stage.result = .error .inputExhausted) →
        ∃ index,
          stages[index]?.map Stage.result = some (.error .inputExhausted) ∧
          (∀ earlier < index,
            stages[earlier]?.map Stage.result = some (.ok ())) ∧
          outcome = .error (.machine index .interrupted)) ∧
      ((∃ stage ∈ stages, ∃ failure,
          stage.result = .error failure ∧ failure ≠ .inputExhausted) →
        ∃ index failure,
          stages[index]?.map Stage.result = some (.error failure) ∧
          failure ≠ .inputExhausted ∧
          outcome = .error (.machine index failure)) := by
  have accepted : policyProblem? pipeline.policy = none :=
    policyProblem?_eq_none_iff.mpr (patient.imp_right .inl)
  have waits : ∀ capacity, pipeline.policy ≠ .failFast capacity := by
    rcases patient with policy | ⟨_, _, policy⟩ <;>
      simp [policy, Policy.failFast, Policy.backpressure]
  constructor
  · intro limit limited
    exact exists_composes_of_stepLimit limited _ _
  intro stages events outcome composes returns
  obtain ⟨last, visits, complete, rfl⟩ :=
    returns.complete_of_accepted nonempty distinct accepted
  have length_eq := composes.length_eq
  have bound (index : Fin phases.length) : index.val < stages.length := by
    rw [length_eq]
    exact index.isLt
  let stage (index : Fin phases.length) : Stage :=
    stages.get ⟨index.val, bound index⟩
  have same (index : Fin phases.length) :
      stages[index.val]? = some (stage index) :=
    List.getElem?_eq_getElem (bound index)
  have member (index : Fin phases.length) : stage index ∈ stages :=
    List.get_mem _ _
  have recorded := visits.of_opening
  have solves := composes.solves chain stage same
  have seedFirst : Event.SeedFirst pipeline.topology events := by
    rw [chain]
    exact Event.seedFirst_chain events
  refine ⟨?halting, ?starving, ?failing⟩
  case halting =>
    intro halting
    have first : Fin phases.length := ⟨0, List.length_pos_iff.mpr nonempty⟩
    have halted (index : Fin phases.length) : (stage index).result = .ok () :=
      halting _ (member index)
    rw [recorded.verdict_of_halting complete solves seedFirst waits first
      halted, chain]
    apply congrArg (resultOf .chain)
    apply List.ext_getElem
    · simp [length_eq]
    · intro index _ _
      simp [stage]
  case starving =>
    intro starving others
    obtain ⟨_, among, starved⟩ := starving
    obtain ⟨index, below, rfl⟩ := List.getElem_of_mem among
    rw [length_eq] at below
    obtain ⟨first, starved, earlier⟩ :=
      exists_least (fun index => (stage index).result = .error .inputExhausted)
        ⟨⟨index, below⟩, starved⟩
    have halting (before : Fin phases.length) (less : before < first) :
        (stage before).result = .ok () :=
      (others _ (member before)).resolve_right (earlier before less)
    refine ⟨first.val, ?_, ?_, ?_⟩
    · rw [same, Option.map_some, starved]
    · intro before less
      have bound : before < phases.length := less.trans first.isLt
      have here : stages[before]? = some (stage ⟨before, bound⟩) :=
        same ⟨before, bound⟩
      rw [here, Option.map_some, halting ⟨before, bound⟩ less]
    · exact recorded.verdict_of_starving complete solves seedFirst waits starved
        halting fun other => others _ (member other)
  case failing =>
    intro failing
    obtain ⟨_, among, failure, failed, fed⟩ := failing
    obtain ⟨index, below, rfl⟩ := List.getElem_of_mem among
    rw [length_eq] at below
    have failing : (stage ⟨index, below⟩).result = .error failure := failed
    obtain ⟨first, cause, failing, fed, named⟩ :=
      recorded.verdict_of_failing complete solves seedFirst waits failing fed
    refine ⟨first.val, cause, ?_, fed, named⟩
    rw [same, Option.map_some, failing]

/-- A chain whose machines pass a word on. -/
def relay : Pipeline where
  program := ⟨[3, 0, 3, 0, 4, 0, 99]⟩
  policy := .backpressure 1
  seed := 7

theorem chain_eq_compose_relay : ∃ stages events outcome,
    relay.Composes [5, 6] [7] stages ∧
      (∀ stage ∈ stages, stage.result = .ok ()) ∧
      relay.Returns [5, 6] events outcome ∧
      outcome = resultOf .chain
        (stages.mapIdx fun index stage => stage.report index) := by
  have halting : (relay.compose 5 [5, 6] [7]).map (List.map Stage.result) =
      some [.ok (), .ok ()] := by
    decide +kernel
  obtain ⟨stages, composed, results⟩ := Option.map_eq_some_iff.mp halting
  have composes := composes_iff_exists_compose.mpr ⟨5, composed⟩
  have halting : ∀ stage ∈ stages, stage.result = .ok () := by
    intro stage member
    have among := List.mem_map_of_mem (f := Stage.result) member
    rw [results] at among
    simpa using among
  have ends : (relay.run [5, 6] 20).run.isSome = true := by decide +kernel
  obtain ⟨outcome, ran⟩ := Option.isSome_iff_exists.mp ends
  obtain ⟨events, returns⟩ := returns_of_run ran
  have agrees := (chain_eq_compose rfl (by decide) (by decide)
    (.inr ⟨1, by decide, rfl⟩)).2 stages events outcome composes returns
  exact ⟨stages, events, outcome, composes, halting, returns, agrees.1 halting⟩

end Pipeline

end CellMachines
