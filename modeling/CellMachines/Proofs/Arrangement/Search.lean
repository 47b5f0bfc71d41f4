import CellMachines.Proofs.Arrangement.Enumeration
import CellMachines.Proofs.Pipeline.Returns

/-!
# The search for the best ordering

The search runs the orderings of the candidates one after the other and keeps
the first of those with the largest output so far.  As every ordering occurs
among them, what it ends with is the largest output of all orderings, and the
candidates may just as well come in another order.  The first run that fails
ends the search, and for candidates that are no phase settings this is the first
run of all.
-/

namespace CellMachines

open Arrangement

variable {ε : Type} {run : List Word → Except ε Word}
  {orderings earlier later : List (List Word)} {phases : List Word}
  {best : List Word × Word} {output : Word} {failure : ε}

/-! ## The best of several runs -/

/-- Of the orderings whose runs succeed, the first one with the largest output.
-/
structure IsFirstBest (run : List Word → Except ε Word)
    (orderings : List (List Word)) (best : List Word × Word) : Prop where
  attains : run best.1 = .ok best.2
  largest : ∀ phases ∈ orderings, ∀ output, run phases = .ok output →
    output.toInt ≤ best.2.toInt
  first : ∃ before after, orderings = before ++ best.1 :: after ∧
    ∀ phases ∈ before, ∀ output, run phases = .ok output →
      output.toInt < best.2.toInt

/-- What is kept after another run. -/
def better (best : List Word × Word) (phases : List Word) (output : Word) :
    List Word × Word :=
  if best.2.toInt < output.toInt then (phases, output) else best

theorem isFirstBest_single (ran : run phases = .ok output) :
    IsFirstBest run [phases] (phases, output) where
  attains := ran
  largest := by
    intro other member found same
    obtain rfl := List.mem_singleton.mp member
    rw [ran] at same
    cases same
    exact Int.le_refl _
  first := ⟨[], [], rfl, nofun⟩

theorem IsFirstBest.concat (isBest : IsFirstBest run orderings best)
    (ran : run phases = .ok output) :
    IsFirstBest run (orderings ++ [phases]) (better best phases output) := by
  unfold better
  split
  · rename_i improves
    have below : ∀ other ∈ orderings, ∀ found, run other = .ok found →
        found.toInt < output.toInt := by
      intro other member found same
      exact Int.lt_of_le_of_lt (isBest.largest other member found same) improves
    refine ⟨ran, ?_, orderings, [], rfl, below⟩
    intro other member found same
    rcases List.mem_append.mp member with member | member
    · exact Int.le_of_lt (below other member found same)
    · obtain rfl := List.mem_singleton.mp member
      rw [ran] at same
      cases same
      exact Int.le_refl _
  · rename_i keeps
    obtain ⟨before, after, split, below⟩ := isBest.first
    refine ⟨isBest.attains, ?_, before, after ++ [phases], ?_, below⟩
    · intro other member found same
      rcases List.mem_append.mp member with member | member
      · exact isBest.largest other member found same
      · obtain rfl := List.mem_singleton.mp member
        rw [ran] at same
        cases same
        exact Int.not_lt.mp keeps
    · rw [split, List.append_assoc, List.cons_append]

/-! ## One run after the other -/

/-- Runs one more ordering. -/
def consider {m : Type → Type} [Monad m] (run : List Word → m Word)
    (best : List Word × Word) (phases : List Word) : m (List Word × Word) := do
  return better best phases (← run phases)

theorem foldlM_consider_cons (ran : run phases = .ok output) :
    (phases :: later).foldlM (consider run) best =
      later.foldlM (consider run) (better best phases output) := by
  rw [List.foldlM_cons, consider, ran]
  rfl

theorem exists_isFirstBest (isBest : IsFirstBest run earlier best)
    (succeed : ∀ phases ∈ later, ∃ output, run phases = .ok output) :
    ∃ winner, later.foldlM (consider run) best = .ok winner ∧
      IsFirstBest run (earlier ++ later) winner := by
  induction later generalizing earlier best with
  | nil => exact ⟨best, rfl, by rwa [List.append_nil]⟩
  | cons phases later induction =>
      rw [List.forall_mem_cons] at succeed
      obtain ⟨⟨output, ran⟩, succeed⟩ := succeed
      obtain ⟨winner, kept, isBest⟩ := induction (isBest.concat ran) succeed
      refine ⟨winner, ?_, ?_⟩
      · rw [foldlM_consider_cons ran, kept]
      · simpa using isBest

theorem foldlM_consider_of_fails
    (succeed : ∀ other ∈ earlier, ∃ output, run other = .ok output)
    (fails : run phases = .error failure) :
    (earlier ++ phases :: later).foldlM (consider run) best =
      .error failure := by
  induction earlier generalizing best with
  | nil =>
      rw [List.nil_append, List.foldlM_cons, consider, fails]
      rfl
  | cons other earlier induction =>
      rw [List.forall_mem_cons] at succeed
      obtain ⟨⟨output, ran⟩, succeed⟩ := succeed
      rw [List.cons_append, foldlM_consider_cons ran]
      exact induction succeed

/-! ## The search -/

theorem perm_of_mem_all {candidates : List Word}
    (member : phases ∈ all candidates) : phases.Perm candidates := by
  rw [all_eq_map] at member
  obtain ⟨permutation, _, rfl⟩ := List.mem_map.mp member
  exact arranged_perm candidates permutation

/-- The search begins with the ordering that the candidates are in. -/
theorem bestOrdering_eq {m : Type → Type} [Monad m] (run : List Word → m Word)
    (candidates : List Word) :
    bestOrdering run candidates = do
      let first ← run candidates
      let best ← (all candidates).tail.foldlM (consider run) (candidates, first)
      return {
        phases := best.1
        output := best.2
        tried := (all candidates).length } :=
  rfl

variable {candidates : List Word}

theorem exists_all_eq_cons (candidates : List Word) :
    ∃ later, all candidates = candidates :: later :=
  ⟨_, List.eq_cons_of_mem_head? (head?_all candidates)⟩

theorem bestOrdering_of_ok (split : all candidates = candidates :: later)
    (ran : run candidates = .ok output) :
    bestOrdering run candidates =
      (later.foldlM (consider run) (candidates, output)).map fun best => {
        phases := best.1
        output := best.2
        tried := (all candidates).length } := by
  rw [bestOrdering_eq, ran, split]
  change (do
    let best ← later.foldlM (consider run) (candidates, output)
    return _) = _
  cases later.foldlM (consider run) (candidates, output) <;> rfl

theorem bestOrdering_of_succeed
    (succeed : ∀ phases ∈ all candidates, ∃ output, run phases = .ok output) :
    ∃ best, bestOrdering run candidates = .ok best ∧
      IsFirstBest run (all candidates) (best.phases, best.output) ∧
      best.tried = candidates.length.factorial := by
  obtain ⟨later, split⟩ := exists_all_eq_cons candidates
  rw [split, List.forall_mem_cons] at succeed
  obtain ⟨⟨first, ran⟩, succeed⟩ := succeed
  obtain ⟨winner, kept, isBest⟩ :=
    exists_isFirstBest (isFirstBest_single ran) succeed
  refine ⟨⟨winner.1, winner.2, (all candidates).length⟩, ?_, ?_,
    length_all candidates⟩
  · rw [bestOrdering_of_ok split ran, kept]
    rfl
  · rw [split]
    exact isBest

theorem bestOrdering_of_fails
    (split : all candidates = earlier ++ phases :: later)
    (succeed : ∀ other ∈ earlier, ∃ output, run other = .ok output)
    (fails : run phases = .error failure) :
    bestOrdering run candidates = .error failure := by
  obtain ⟨rest, first⟩ := exists_all_eq_cons candidates
  cases earlier with
  | nil =>
      obtain ⟨rfl, rfl⟩ := List.cons.inj (first.symm.trans split)
      rw [bestOrdering_eq, fails]
      rfl
  | cons other earlier =>
      rw [List.cons_append] at split
      obtain ⟨rfl, rfl⟩ := List.cons.inj (first.symm.trans split)
      rw [List.forall_mem_cons] at succeed
      obtain ⟨⟨output, ran⟩, succeed⟩ := succeed
      rw [bestOrdering_of_ok first ran, foldlM_consider_of_fails succeed fails]
      rfl

theorem exists_first_failure
    (fails : ∃ phases ∈ orderings, ∃ failure, run phases = .error failure) :
    ∃ before phases after failure, orderings = before ++ phases :: after ∧
      (∀ earlier ∈ before, ∃ output, run earlier = .ok output) ∧
      run phases = .error failure := by
  induction orderings with
  | nil => simp at fails
  | cons phases later induction =>
      cases ran : run phases with
      | error failure => exact ⟨[], phases, later, failure, rfl, nofun, ran⟩
      | ok output =>
          obtain ⟨before, other, after, failure, rfl, succeed, fails⟩ :=
            induction (by simpa [ran] using fails)
          refine ⟨phases :: before, other, after, failure, rfl, ?_, fails⟩
          rw [List.forall_mem_cons]
          exact ⟨⟨output, ran⟩, succeed⟩

theorem IsFirstBest.mem (isBest : IsFirstBest run orderings best) :
    best.1 ∈ orderings := by
  obtain ⟨before, after, split, _⟩ := isBest.first
  rw [split]
  exact List.mem_append_right _ List.mem_cons_self

/-- More orderings make the best one no worse. -/
theorem IsFirstBest.le_of_subset {others : List (List Word)}
    {other : List Word × Word} (isBest : IsFirstBest run orderings best)
    (otherBest : IsFirstBest run others other) (within : orderings ⊆ others) :
    best.2.toInt ≤ other.2.toInt :=
  otherBest.largest best.1 (within isBest.mem) best.2 isBest.attains

/-! ## Runs that need not end -/

section Effects

variable {α β : Type}

/-- A computation that may go on for ever comes to a result. -/
def EndsAs (effect : ExceptT ε Option α) (result : Except ε α) : Prop :=
  effect.run = some result

theorem endsAs_pure (value : α) :
    EndsAs (pure value : ExceptT ε Option α) (.ok value) :=
  rfl

theorem EndsAs.bind {effect : ExceptT ε Option α} {result : Except ε α}
    {next : α → ExceptT ε Option β} {further : α → Except ε β}
    (ends : EndsAs effect result)
    (continues : ∀ value, EndsAs (next value) (further value)) :
    EndsAs (effect >>= next) (result >>= further) := by
  unfold EndsAs at ends continues ⊢
  rw [ExceptT.run_bind, ends]
  cases result with
  | error failure => rfl
  | ok value => exact continues value

variable {effectful : List Word → ExceptT ε Option Word}

theorem endsAs_foldlM_consider
    (same : ∀ phases ∈ later, EndsAs (effectful phases) (run phases)) :
    EndsAs (later.foldlM (consider effectful) best)
      (later.foldlM (consider run) best) := by
  induction later generalizing best with
  | nil => exact endsAs_pure best
  | cons phases later induction =>
      rw [List.forall_mem_cons] at same
      obtain ⟨here, same⟩ := same
      apply EndsAs.bind
      · apply here.bind
        intro output
        exact endsAs_pure _
      · intro kept
        exact induction same

/-- When all its runs end, the search does what it does on their results. -/
theorem endsAs_bestOrdering (same : ∀ phases ∈ all candidates,
      EndsAs (effectful phases) (run phases)) :
    EndsAs (bestOrdering effectful candidates)
      (bestOrdering run candidates) := by
  rw [bestOrdering_eq, bestOrdering_eq]
  obtain ⟨later, split⟩ := exists_all_eq_cons candidates
  rw [split, List.forall_mem_cons] at same
  obtain ⟨here, same⟩ := same
  apply here.bind
  intro first
  rw [split, List.tail_cons]
  apply (endsAs_foldlM_consider same).bind
  intro winner
  exact endsAs_pure _

end Effects

namespace Pipeline

variable {pipeline : Pipeline}
  {outcome : List Word → Except PipelineError PipelineRun}

/-- For every order of the candidates, a result that some run of the pipeline
gives back. -/
def Answers (pipeline : Pipeline) (candidates : List Word)
    (outcome : List Word → Except PipelineError PipelineRun) : Prop :=
  ∀ phases, phases.Perm candidates →
    ∃ events, pipeline.Returns phases events (outcome phases)

def outputOf (outcome : List Word → Except PipelineError PipelineRun)
    (phases : List Word) : Except PipelineError Word :=
  (outcome phases).map PipelineRun.output

theorem outputOf_eq_ok_iff :
    outputOf outcome phases = .ok output ↔
      ∃ run, outcome phases = .ok run ∧ run.output = output := by
  unfold outputOf
  cases outcome phases <;> simp [Except.map]

theorem outputOf_eq_error_iff {failure : PipelineError} :
    outputOf outcome phases = .error failure ↔
      outcome phases = .error failure := by
  unfold outputOf
  cases outcome phases <;> simp [Except.map]

theorem outputOf_eq_bind (phases : List Word) :
    outputOf outcome phases = do return (← outcome phases).output := by
  unfold outputOf
  cases outcome phases <;> rfl

theorem Returns.eq_of_phaseProblem {events : List (Event phases.length)}
    {result : Except PipelineError PipelineRun} {reason : String}
    (returns : pipeline.Returns phases events result)
    (problem : phaseProblem? phases = some reason) :
    result = .error (.invalidPhases reason) := by
  cases returns with
  | invalidPhases same =>
      rw [problem] at same
      cases same
      rfl
  | invalidPolicy accepted =>
      rw [problem] at accepted
      cases accepted
  | complete visits =>
      have accepted := visits.phases_accepted
      rw [problem] at accepted
      cases accepted

theorem exists_bestOrdering
    (succeed : ∀ phases, phases.Perm candidates →
      ∃ run, outcome phases = .ok run) :
    ∃ best, bestOrdering (outputOf outcome) candidates = .ok best ∧
      IsFirstBest (outputOf outcome) (all candidates)
        (best.phases, best.output) ∧
      best.tried = candidates.length.factorial := by
  apply bestOrdering_of_succeed
  intro phases member
  obtain ⟨run, ok⟩ := succeed phases (perm_of_mem_all member)
  exact ⟨run.output, outputOf_eq_ok_iff.mpr ⟨run, ok, rfl⟩⟩

namespace Answers

variable (answers : pipeline.Answers candidates outcome)
include answers

/-- Candidates that are no phase settings are refused by the first run. -/
theorem bestOrdering_of_problem {reason : String}
    (problem : phaseProblem? candidates = some reason) :
    bestOrdering (outputOf outcome) candidates =
      .error (.invalidPhases reason) := by
  obtain ⟨events, returns⟩ := answers candidates (List.Perm.refl _)
  have refused := returns.eq_of_phaseProblem problem
  obtain ⟨later, first⟩ := exists_all_eq_cons candidates
  have split : all candidates = [] ++ candidates :: later := first
  apply bestOrdering_of_fails split nofun
  exact outputOf_eq_error_iff.mpr refused

theorem nodup_of_ok {run : PipelineRun}
    (succeeds : outcome candidates = .ok run) : candidates.Nodup := by
  obtain ⟨events, returns⟩ := answers candidates (List.Perm.refl _)
  cases problem : phaseProblem? candidates with
  | none => exact (phaseProblem?_eq_none_iff.mp problem).2
  | some reason =>
      rw [returns.eq_of_phaseProblem problem] at succeeds
      cases succeeds

/-- If a run fails, one of those that the search makes does. -/
theorem exists_failure (fails : ∃ phases failure, phases.Perm candidates ∧
      outcome phases = .error failure) :
    ∃ phases ∈ all candidates, ∃ failure,
      outputOf outcome phases = .error failure := by
  obtain ⟨phases, failure, arranged, fails⟩ := fails
  cases first : outcome candidates with
  | error failure =>
      obtain ⟨later, split⟩ := exists_all_eq_cons candidates
      refine ⟨candidates, ?_, failure, outputOf_eq_error_iff.mpr first⟩
      rw [split]
      exact List.mem_cons_self
  | ok run =>
      refine ⟨phases, ?_, failure, outputOf_eq_error_iff.mpr fails⟩
      rw [mem_all_iff (answers.nodup_of_ok first)]
      exact arranged

end Answers

/-- The search for the best ordering finds the largest output of all orderings,
and the first ordering in the order of the visit that has it.  If a run fails,
the first one that does ends the search with its failure; candidates that are
empty or repeat themselves are refused.  In what order the candidates come makes
no difference to the output.  All this holds of whatever the runs of the
pipeline give back, and in particular of what they give back within a budget. -/
theorem bestOrdering_is_maximum
    (answers : pipeline.Answers candidates outcome) :
    ((∀ phases, phases.Perm candidates → ∃ run, outcome phases = .ok run) →
      ∃ best, bestOrdering (outputOf outcome) candidates = .ok best ∧
        IsFirstBest (outputOf outcome) (all candidates)
          (best.phases, best.output) ∧
        (∀ phases, phases.Perm candidates → ∃ run, outcome phases = .ok run ∧
          run.output.toInt ≤ best.output.toInt) ∧
        best.tried = candidates.length.factorial ∧
        ∀ other, other.Perm candidates →
          ∃ otherBest, bestOrdering (outputOf outcome) other = .ok otherBest ∧
            otherBest.output = best.output ∧ otherBest.tried = best.tried) ∧
    ((∃ phases failure, phases.Perm candidates ∧
        outcome phases = .error failure) →
      ∃ before phases after failure,
        all candidates = before ++ phases :: after ∧
        (∀ earlier ∈ before, ∃ run, outcome earlier = .ok run) ∧
        outcome phases = .error failure ∧
        bestOrdering (outputOf outcome) candidates = .error failure) ∧
    (candidates = [] ∨ ¬candidates.Nodup →
      ∃ reason, phaseProblem? candidates = some reason ∧
        bestOrdering (outputOf outcome) candidates =
          .error (.invalidPhases reason)) ∧
    ∀ budget, (∀ phases, phases.Perm candidates →
        (pipeline.run phases budget).run = some (outcome phases)) →
      (bestOrdering (fun phases => do
        return (← pipeline.run phases budget).output) candidates).run =
        some (bestOrdering (outputOf outcome) candidates) := by
  refine ⟨?succeeding, ?failing, ?refused, ?within⟩
  case succeeding =>
    intro succeed
    obtain ⟨run, ok⟩ := succeed candidates (List.Perm.refl _)
    have distinct := answers.nodup_of_ok ok
    obtain ⟨best, found, isBest, tried⟩ := exists_bestOrdering succeed
    refine ⟨best, found, isBest, ?_, tried, ?_⟩
    · intro phases arranged
      obtain ⟨run, ok⟩ := succeed phases arranged
      refine ⟨run, ok, ?_⟩
      apply isBest.largest phases ((mem_all_iff distinct phases).mpr arranged)
      exact outputOf_eq_ok_iff.mpr ⟨run, ok, rfl⟩
    · intro other reordered
      obtain ⟨otherBest, otherFound, otherIsBest, otherTried⟩ :=
        exists_bestOrdering fun phases arranged =>
          succeed phases (arranged.trans reordered)
      have otherDistinct := reordered.nodup_iff.mpr distinct
      have within : all candidates ⊆ all other := by
        intro phases member
        rw [mem_all_iff otherDistinct]
        exact (perm_of_mem_all member).trans reordered.symm
      have otherWithin : all other ⊆ all candidates := by
        intro phases member
        rw [mem_all_iff distinct]
        exact (perm_of_mem_all member).trans reordered
      refine ⟨otherBest, otherFound, ?_, ?_⟩
      · apply Int64.toInt_inj.mp
        apply Int.le_antisymm
        · exact otherIsBest.le_of_subset isBest otherWithin
        · exact isBest.le_of_subset otherIsBest within
      · rw [otherTried, tried, reordered.length_eq]
  case failing =>
    intro fails
    obtain ⟨before, phases, after, failure, split, succeed, fails⟩ :=
      exists_first_failure (answers.exists_failure fails)
    refine ⟨before, phases, after, failure, split, ?_,
      outputOf_eq_error_iff.mp fails, bestOrdering_of_fails split succeed fails⟩
    intro earlier member
    obtain ⟨output, ran⟩ := succeed earlier member
    obtain ⟨run, ok, _⟩ := outputOf_eq_ok_iff.mp ran
    exact ⟨run, ok⟩
  case refused =>
    intro unfit
    cases problem : phaseProblem? candidates with
    | none =>
        obtain ⟨nonempty, distinct⟩ := phaseProblem?_eq_none_iff.mp problem
        exact (unfit.elim nonempty fun repeating => repeating distinct).elim
    | some reason =>
        exact ⟨reason, rfl, answers.bestOrdering_of_problem problem⟩
  case within =>
    intro budget ends
    apply endsAs_bestOrdering
    intro phases member
    have ran : EndsAs (pipeline.run phases budget) (outcome phases) :=
      ends phases (perm_of_mem_all member)
    rw [outputOf_eq_bind]
    apply ran.bind
    intro run
    exact endsAs_pure run.output

/-- A chain whose machines put out their phase settings. -/
def declaring : Pipeline where
  program := ⟨[3, 0, 4, 0, 99]⟩

/-- What the chain gives back in twenty rounds. -/
def declared (phases : List Word) : Except PipelineError PipelineRun :=
  (declaring.run phases 20).run.getD (.error .noOutput)

/-- Two of the six orderings have the largest output, and the search keeps the
one that is visited first. -/
theorem bestOrdering_is_maximum_declaring :
    declaring.Answers [3, 1, 2] declared ∧
      (∀ phases, phases.Perm [3, 1, 2] → ∃ run, declared phases = .ok run) ∧
      ∃ best, bestOrdering (outputOf declared) [3, 1, 2] = .ok best ∧
        best = ⟨[1, 2, 3], 3, 6⟩ ∧
        ∀ phases, phases.Perm [3, 1, 2] → ∃ run, declared phases = .ok run ∧
          run.output.toInt ≤ best.output.toInt := by
  have distinct : ([3, 1, 2] : List Word).Nodup := by decide
  have checks : ∀ phases ∈ all [3, 1, 2],
      (declaring.run phases 20).run.isSome ∧ (declared phases).isOk := by
    decide +kernel
  have answers : declaring.Answers [3, 1, 2] declared := by
    intro phases arranged
    have member := (mem_all_iff distinct phases).mpr arranged
    obtain ⟨ends, _⟩ := checks phases member
    obtain ⟨outcome, ran⟩ := Option.isSome_iff_exists.mp ends
    have same : declared phases = outcome := by
      rw [declared, ran, Option.getD_some]
    rw [same]
    exact returns_of_run ran
  have succeed : ∀ phases, phases.Perm [3, 1, 2] →
      ∃ run, declared phases = .ok run := by
    intro phases arranged
    have member := (mem_all_iff distinct phases).mpr arranged
    obtain ⟨_, ok⟩ := checks phases member
    cases returned : declared phases with
    | ok run => exact ⟨run, rfl⟩
    | error failure => simp [returned, Except.isOk, Except.toBool] at ok
  obtain ⟨best, found, _, largest, _⟩ :=
    (bestOrdering_is_maximum answers).1 succeed
  have searched : bestOrdering (outputOf declared) [3, 1, 2] =
      .ok ⟨[1, 2, 3], 3, 6⟩ := by
    decide +kernel
  have same := Except.ok.inj (found.symm.trans searched)
  exact ⟨answers, succeed, best, found, same, largest⟩

end Pipeline

end CellMachines
