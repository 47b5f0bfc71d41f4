import CellMachines.Proofs.Executor.Turn
import CellMachines.Pipeline
import Mathlib.Data.List.FinRange
import Mathlib.Order.WellFounded

/-!
# What a run that is over amounts to

Once everybody has ended, the verdict depends on how each executor ended and on
nothing else: on the first machine that failed by itself, else on the first one
that was interrupted, else on the reports of all.
-/

namespace CellMachines

namespace Pipeline

/-! ## Root causes -/

section RootCause

variable {results : List (Nat × Except Failure Report)} {index : Nat}
  {failure : Failure}

def failures (results : List (Nat × Except Failure Report)) :
    List (Nat × Failure) :=
  results.filterMap fun (index, result) =>
    match result with
    | .ok _ => none
    | .error failure => some (index, failure)

theorem mem_failures_iff :
    (index, failure) ∈ failures results ↔
      (index, .error failure) ∈ results := by
  simp only [failures, List.mem_filterMap, Prod.exists]
  constructor
  · rintro ⟨other, result, member, same⟩
    cases result with
    | ok => cases same
    | error => cases same; exact member
  · exact fun member => ⟨index, .error failure, member, rfl⟩

private theorem failures_eq_nil
    (sound : ∀ entry ∈ results, ∃ report, entry.2 = .ok report) :
    failures results = [] := by
  apply List.eq_nil_iff_forall_not_mem.mpr
  intro entry member
  obtain ⟨report, ok⟩ := sound _ (mem_failures_iff.mp member)
  cases ok

def blame (entry : Nat × Failure) : PipelineError :=
  .machine entry.1 entry.2

private theorem rootCause?_eq (results : List (Nat × Except Failure Report)) :
    rootCause? results =
      ((failures results).find? (fun entry => entry.2 ≠ .interrupted) <|>
        (failures results).head?).map blame := by
  unfold rootCause?
  extract_lets
  split
  next index failure first => exact (congrArg (Option.map blame) first).symm
  next nobody => exact (congrArg (Option.map blame) nobody).symm

theorem rootCause?_eq_none
    (sound : ∀ entry ∈ results, ∃ report, entry.2 = .ok report) :
    rootCause? results = none := by
  rw [rootCause?_eq, failures_eq_nil sound]
  rfl

theorem failures_eq_nil_of_rootCause? (harmless : rootCause? results = none) :
    failures results = [] := by
  rw [rootCause?_eq, Option.map_eq_none_iff] at harmless
  cases listed : failures results with
  | nil => rfl
  | cons entry later =>
      rw [listed] at harmless
      cases found :
          (entry :: later).find? (fun entry => entry.2 ≠ .interrupted) with
      | none => rw [found] at harmless; cases harmless
      | some first => rw [found] at harmless; cases harmless

theorem rootCause?_eq_machine {error : PipelineError}
    (cause : rootCause? results = some error) :
    ∃ index failure, error = .machine index failure := by
  rw [rootCause?_eq] at cause
  obtain ⟨entry, _, rfl⟩ := Option.map_eq_some_iff.mp cause
  exact ⟨entry.1, entry.2, rfl⟩

/-- A machine that failed by itself is named before any that was interrupted. -/
theorem rootCause?_own (member : (index, .error failure) ∈ results)
    (own : failure ≠ .interrupted) :
    ∃ first cause, (first, .error cause) ∈ results ∧ cause ≠ .interrupted ∧
      rootCause? results = some (.machine first cause) := by
  cases found :
      (failures results).find? (fun entry => entry.2 ≠ .interrupted) with
  | none =>
      have cascade :=
        List.find?_eq_none.mp found _ (mem_failures_iff.mpr member)
      exact absurd own (by simpa using cascade)
  | some entry =>
      refine ⟨entry.1, entry.2,
        mem_failures_iff.mp (List.mem_of_find?_eq_some found),
        by simpa using List.find?_some found, ?_⟩
      rw [rootCause?_eq, found]
      rfl

theorem rootCause?_first {earlier later : List (Nat × Except Failure Report)}
    (split : results = earlier ++ (index, .error failure) :: later)
    (own : failure ≠ .interrupted)
    (cascade : ∀ index other, (index, .error other) ∈ earlier →
      other = .interrupted) :
    rootCause? results = some (.machine index failure) := by
  have nobody : (failures earlier).find? (fun entry => entry.2 ≠ .interrupted) =
      none := by
    apply List.find?_eq_none.mpr
    intro entry member
    simpa using cascade _ _ (mem_failures_iff.mp member)
  have whole : failures results =
      failures earlier ++ (index, failure) :: failures later := by
    rw [split, failures, List.filterMap_append]
    rfl
  rw [rootCause?_eq, whole, List.find?_append, nobody, Option.none_or,
    List.find?_cons_of_pos (by simpa using own)]
  rfl

theorem rootCause?_interrupted
    {earlier later : List (Nat × Except Failure Report)}
    (split : results = earlier ++ (index, .error .interrupted) :: later)
    (sound : ∀ entry ∈ earlier, ∃ report, entry.2 = .ok report)
    (cascade : ∀ index failure, (index, .error failure) ∈ results →
      failure = .interrupted) :
    rootCause? results = some (.machine index .interrupted) := by
  have nobody :
      (failures results).find? (fun entry => entry.2 ≠ .interrupted) =
        none := by
    apply List.find?_eq_none.mpr
    intro entry member
    simpa using cascade _ _ (mem_failures_iff.mp member)
  have front : (failures results).head? = some (index, .interrupted) := by
    have silent := failures_eq_nil sound
    rw [failures] at silent
    rw [split, failures, List.filterMap_append, silent]
    rfl
  rw [rootCause?_eq, nobody, front]
  rfl

end RootCause

theorem exists_least {n : Nat} (holds : Fin n → Prop)
    (inhabited : ∃ index, holds index) :
    ∃ index, holds index ∧ ∀ earlier, earlier < index → ¬holds earlier := by
  obtain ⟨index, held, least⟩ :=
    wellFounded_lt.has_min {index | holds index} inhabited
  exact ⟨index, held, fun earlier less other => least earlier other less⟩

/-- What the reports of machines that all halted amount to: the last word of the
last machine. -/
def resultOf (topology : Topology) (reports : List Report) :
    Except PipelineError PipelineRun :=
  match reports.getLast?.bind Report.lastOutput with
  | some output => .ok { output, topology, reports }
  | none => .error .noOutput

variable {n : Nat} {progress : Progress n} {ends : Fin n → Except Failure Unit}

/-- The verdict names the seed only where the conductor gave up for it. -/
theorem joining_of_verdict_seed {index : Nat} {source : ChannelError}
    (blamed : verdict progress = .error (.seed index source)) :
    index = 0 ∧ progress.conductor = .joining (some source) := by
  unfold verdict at blamed
  split at blamed
  · rename_i standing
    cases blamed
    exact ⟨rfl, standing⟩
  · exfalso
    unfold collect at blamed
    cases cause : rootCause? progress.results with
    | some error =>
        obtain ⟨_, _, rfl⟩ := rootCause?_eq_machine cause
        simp only [cause] at blamed
        cases blamed
    | none =>
        simp only [cause] at blamed
        change resultOf progress.network.topology
          (progress.results.filterMap fun entry => entry.2.toOption) = _
          at blamed
        unfold resultOf at blamed
        split at blamed <;> cases blamed

namespace Progress

def resultsOf (progress : Progress n) (ends : Fin n → Except Failure Unit) :
    List (Nat × Except Failure Report) :=
  (List.finRange n).map fun index =>
    (index.val, (ends index).map fun () =>
      (progress.network.executor index).report index)

def reports (progress : Progress n) : List Report :=
  (List.finRange n).map fun index =>
    (progress.network.executor index).report index

theorem results_eq
    (ended : ∀ index, (progress.network.executor index).result? =
      some (ends index)) :
    progress.results = progress.resultsOf ends := by
  have indexed : progress.network.executors.toList.zipIdx =
      (List.finRange n).map fun index =>
        (progress.network.executor index, index.val) := by
    apply List.ext_getElem
    · simp
    · intro index below _
      simp [Network.executor]
      rfl
  rw [results, resultsOf, indexed, List.filterMap_map, ← List.filterMap_eq_map']
  apply List.filterMap_congr
  intro index _
  simp [ended]

/-- What comes of one machine, as `results` lists it. -/
def entry (progress : Progress n) (ends : Fin n → Except Failure Unit)
    (index : Fin n) : Nat × Except Failure Report :=
  (index.val, (ends index).map fun () =>
    (progress.network.executor index).report index)

/-- The results up to a given machine are those of the machines before it. -/
theorem exists_resultsOf_split (progress : Progress n)
    (ends : Fin n → Except Failure Unit) (index : Fin n) :
    ∃ earlier later,
      progress.resultsOf ends =
        earlier ++ progress.entry ends index :: later ∧
      ∀ result ∈ earlier, ∃ machine < index,
        result = progress.entry ends machine := by
  obtain ⟨before, after, split⟩ := List.append_of_mem (List.mem_finRange index)
  have increasing := List.pairwise_lt_finRange n
  rw [split, List.pairwise_append] at increasing
  refine ⟨before.map (progress.entry ends), after.map (progress.entry ends),
    ?_, ?_⟩
  · rw [resultsOf, split, List.map_append, List.map_cons]
    rfl
  · intro result member
    obtain ⟨machine, among, rfl⟩ := List.mem_map.mp member
    exact ⟨machine, increasing.2.2 machine among index (by simp), rfl⟩

theorem error_mem_resultsOf {index : Nat} {failure : Failure} :
    (index, .error failure) ∈ progress.resultsOf ends ↔
      ∃ machine : Fin n, machine.val = index ∧
        ends machine = .error failure := by
  simp only [resultsOf, List.mem_map, List.mem_finRange, true_and,
    Prod.mk.injEq]
  apply exists_congr
  intro machine
  apply and_congr_right
  intro _
  cases ends machine <;> simp [Except.map]

end Progress

section Verdict

variable (joins : progress.conductor = .joining none)
  (ended : ∀ index, (progress.network.executor index).result? =
    some (ends index))

include joins ended

private theorem verdict_of_rootCause {error : PipelineError}
    (cause : rootCause? (progress.resultsOf ends) = some error) :
    verdict progress = .error error := by
  rw [verdict, joins, Progress.results_eq ended]
  simp only [collect, cause]
  rfl

theorem verdict_of_ok (sound : ∀ index, ends index = .ok ()) :
    verdict progress = resultOf progress.network.topology progress.reports := by
  have whole : progress.resultsOf ends =
      (List.finRange n).map fun index =>
        (index.val, .ok ((progress.network.executor index).report index)) := by
    apply List.map_congr_left
    intro index _
    rw [sound]
    rfl
  have harmless : rootCause? (progress.resultsOf ends) = none := by
    apply rootCause?_eq_none
    intro entry member
    rw [whole] at member
    obtain ⟨index, _, rfl⟩ := List.mem_map.mp member
    exact ⟨_, rfl⟩
  have collected : collect progress.results = .ok progress.reports := by
    rw [Progress.results_eq ended, collect, harmless, whole, List.filterMap_map]
    apply congrArg Except.ok
    rw [Progress.reports, ← List.filterMap_eq_map']
    exact List.filterMap_congr fun _ _ => rfl
  rw [verdict, joins, resultOf]
  simp only [collected]
  show (match progress.reports.getLast?.bind Report.lastOutput with
    | some output => _
    | none => _) = _
  cases progress.reports.getLast?.bind Report.lastOutput <;> rfl

theorem verdict_of_failure {index : Fin n} {failure : Failure}
    (failed : ends index = .error failure) (own : failure ≠ .interrupted) :
    ∃ (first : Fin n) (cause : Failure), ends first = .error cause ∧
      cause ≠ .interrupted ∧
      verdict progress = .error (.machine first cause) := by
  obtain ⟨_, cause, member, own, named⟩ :=
    rootCause?_own (Progress.error_mem_resultsOf.mpr ⟨index, rfl, failed⟩) own
  obtain ⟨first, rfl, failed⟩ := Progress.error_mem_resultsOf.mp member
  exact ⟨first, cause, failed, own, verdict_of_rootCause joins ended named⟩

theorem verdict_of_interrupted {index : Fin n}
    (cut : ends index = .error .interrupted)
    (sound : ∀ earlier, earlier < index → ends earlier = .ok ())
    (cascade : ∀ index failure, ends index = .error failure →
      failure = .interrupted) :
    verdict progress = .error (.machine index .interrupted) := by
  obtain ⟨before, after, split, among⟩ :=
    progress.exists_resultsOf_split ends index
  have here : progress.entry ends index =
      (index.val, .error .interrupted) := by
    rw [Progress.entry, cut]
    rfl
  rw [here] at split
  apply verdict_of_rootCause joins ended
  apply rootCause?_interrupted split
  · intro result member
    obtain ⟨earlier, less, rfl⟩ := among result member
    exact ⟨_, by rw [Progress.entry, sound earlier less]; rfl⟩
  · intro other failure member
    obtain ⟨machine, _, failed⟩ := Progress.error_mem_resultsOf.mp member
    exact cascade machine failure failed

/-- Of the machines that failed by themselves the first one is named. -/
theorem verdict_of_first {index : Fin n} {failure : Failure}
    (failed : ends index = .error failure) (own : failure ≠ .interrupted)
    (cascade : ∀ earlier < index, ∀ other, ends earlier = .error other →
      other = .interrupted) :
    verdict progress = .error (.machine index failure) := by
  obtain ⟨before, after, split, among⟩ :=
    progress.exists_resultsOf_split ends index
  have here : progress.entry ends index = (index.val, .error failure) := by
    rw [Progress.entry, failed]
    rfl
  rw [here] at split
  apply verdict_of_rootCause joins ended
  apply rootCause?_first split own
  intro number other member
  obtain ⟨machine, less, same⟩ := among _ member
  apply cascade machine less
  rw [Progress.entry, Prod.mk.injEq] at same
  cases result : ends machine with
  | ok => simp [result, Except.map] at same
  | error cause =>
      simp only [result, Except.map, Except.error.injEq] at same
      rw [same.2]

theorem halted_of_verdict_ok {run : PipelineRun}
    (ok : verdict progress = .ok run) (index : Fin n) :
    ends index = .ok () := by
  cases failed : ends index with
  | ok => rfl
  | error failure =>
      have member : (index.val, failure) ∈ failures (progress.resultsOf ends) :=
        mem_failures_iff.mpr
          (Progress.error_mem_resultsOf.mpr ⟨index, rfl, failed⟩)
      cases cause : rootCause? (progress.resultsOf ends) with
      | none =>
          rw [failures_eq_nil_of_rootCause? cause] at member
          cases member
      | some error =>
          rw [verdict_of_rootCause joins ended cause] at ok
          cases ok

end Verdict

end Pipeline

end CellMachines
