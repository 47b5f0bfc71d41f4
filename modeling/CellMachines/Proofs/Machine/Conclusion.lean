import CellMachines.Proofs.Machine.Faults
import CellMachines.Proofs.Machine.Walk

/-!
# How machines end

A machine that ends by itself without halting has a fault of its own; to find no
input is no end of this kind.  A run on a tape is the executable form of a
conclusion: what it returns is what its walk ends with.
-/

namespace CellMachines

namespace Machine

variable {machine : Machine}

/-! ## Machines on their way -/

theorem failed_inputExhausted (running : machine.status.isTerminal = false) :
    machine.failed .inputExhausted =
      { machine with status := .awaitingInput } := by
  simp [failed, running]

theorem Completes.isTerminal {ins outs : List Word} {next : Machine}
    (completes : Completes machine ins outs next)
    (running : machine.status.isTerminal = false) :
    next.status.isTerminal = false := by
  cases completes with
  | input => rfl
  | store | output | jump | rebase => exact running

theorem Walk.isTerminal {first last : Machine} {taken emitted : List Word}
    (walk : Walk first taken emitted last)
    (running : first.status.isTerminal = false) :
    last.status.isTerminal = false := by
  induction walk with
  | refl => exact running
  | step _ completes induction => exact completes.isTerminal induction

theorem Stops.isFault {ins : List Word} {failure : Failure} {last : Machine}
    (stops : Stops machine ins (.error failure) last)
    (running : machine.status.isTerminal = false) : failure.isFault = true := by
  cases stops with
  | refuse asks => exact onlyFaults_request running _ asks
  | unstored _ refused | lost _ refused =>
      exact isFault_of_storeFailure? refused

/-! ## Runs on a tape -/

/-- A tape that takes in everything and has no end but that of its inputs. -/
structure IsPlain (tape : Tape) : Prop where
  dry : tape.dry = .inputExhausted
  room : tape.room = none

/-- What a step on a tape comes to: an instruction is completed, the machine
ends, or it finds no input. -/
inductive TapeStep (machine : Machine) (tape : Tape) : Prop where
  | completes {ins outs rest : List Word} {next : Machine} :
      Completes machine ins outs next → tape.waiting = ins ++ rest →
      machine.step Tape.surroundings tape =
        (.ok .proceeds, next,
          { tape with
            waiting := rest
            emitted := tape.emitted ++ outs.toArray }) →
      TapeStep machine tape
  | stops {ins rest : List Word} {result : Except Failure Unit}
      {last : Machine} :
      Stops machine ins result last → tape.waiting = ins ++ rest →
      machine.step Tape.surroundings tape =
        (result.map fun () => .halts, last, { tape with waiting := rest }) →
      TapeStep machine tape
  | starves {target : Nat} :
      machine.request = .ok (.input target) → tape.waiting = [] →
      machine.step Tape.surroundings tape =
        (.error .inputExhausted, machine.failed .inputExhausted, tape) →
      TapeStep machine tape

theorem tapeStep (machine : Machine) {tape : Tape} (plain : IsPlain tape) :
    TapeStep machine tape := by
  have untouched : tape.waiting = [] ++ tape.waiting := rfl
  cases asks : machine.request with
  | error failure =>
      apply TapeStep.stops (.refuse asks) untouched
      simp [step, asks, Except.map]
  | ok effect =>
      cases effect with
      | store target value =>
          cases refused : machine.storeFailure? target with
          | none =>
              apply TapeStep.completes (.store asks refused) untouched
              simp [step, asks, settle, refused]
          | some failure =>
              apply TapeStep.stops (.unstored asks refused) untouched
              simp [step, asks, settle, refused, Except.map]
      | input target =>
          cases waiting : tape.waiting with
          | nil =>
              apply TapeStep.starves asks waiting
              simp [step, asks, Tape.surroundings, Tape.take, waiting,
                plain.dry]
          | cons value rest =>
              cases refused : machine.storeFailure? target with
              | none =>
                  apply TapeStep.completes (.input asks refused) waiting
                  simp [step, asks, Tape.surroundings, Tape.take, waiting,
                    settle, storeFailure?_resumed, refused]
              | some failure =>
                  apply TapeStep.stops (.lost asks refused) waiting
                  simp [step, asks, Tape.surroundings, Tape.take, waiting,
                    settle, storeFailure?_resumed, refused, Except.map]
      | output value =>
          apply TapeStep.completes (.output asks) untouched
          simp [step, asks, Tape.surroundings, Tape.put, Tape.refusal?,
            plain.room]
      | jump target =>
          apply TapeStep.completes (.jump asks) untouched
          simp [step, asks]
      | rebase base =>
          apply TapeStep.completes (.rebase asks) untouched
          simp [step, asks]
      | halt =>
          apply TapeStep.stops (.halt asks) untouched
          simp [step, asks, Except.map]

private theorem concludes_of_run_from {first machine last : Machine}
    {inputs taken : List Word} {budget : Nat} {tape final : Tape}
    {result : Except Failure Unit} (plain : IsPlain tape)
    (walk : Walk first taken tape.emitted.toList machine)
    (split : inputs = taken ++ tape.waiting)
    (ran : run Tape.surroundings budget machine tape =
      some (result, last, final)) :
    Concludes first inputs result last final.emitted.toList := by
  induction budget generalizing machine tape taken with
  | zero => cases ran
  | succ budget induction =>
      cases tapeStep machine plain with
      | @completes ins outs rest next completes waiting stepped =>
          rw [run, stepped] at ran
          have further : Walk first (taken ++ ins)
              (tape.emitted ++ outs.toArray).toList next := by
            simpa using walk.step completes
          have still : IsPlain
              { tape with
                waiting := rest
                emitted := tape.emitted ++ outs.toArray } :=
            ⟨plain.dry, plain.room⟩
          apply induction still further
          · simp [split, waiting]
          · simpa using ran
      | @stops ins rest stopped next stops waiting stepped =>
          have within : taken ++ ins <+: inputs := by
            rw [split, waiting, ← List.append_assoc]
            exact List.prefix_append _ _
          rw [run, stepped] at ran
          cases stopped <;> cases ran <;> exact .stops walk stops within
      | starves asks dry stepped =>
          rw [run, stepped] at ran
          cases ran
          rw [dry, List.append_nil] at split
          subst split
          exact .starves walk asks

theorem concludes_of_run {first last : Machine} {inputs : List Word}
    {budget : Nat} {tape : Tape} {result : Except Failure Unit}
    (ran : run Tape.surroundings budget first { waiting := inputs } =
      some (result, last, tape)) :
    Concludes first inputs result last tape.emitted.toList :=
  concludes_of_run_from ⟨rfl, rfl⟩ .refl rfl ran

/-! ## Step limits -/

theorem Completes.steps_eq {ins outs : List Word} {next : Machine}
    (completes : Completes machine ins outs next) :
    next.steps = machine.steps + 1 ∧ next.stepLimit = machine.stepLimit := by
  cases completes <;> exact ⟨rfl, rfl⟩

theorem Completes.steps_lt {ins outs : List Word} {next : Machine} {limit : Nat}
    (completes : Completes machine ins outs next)
    (limited : machine.stepLimit = some limit) :
    machine.steps < limit := by
  apply Nat.lt_of_not_le
  intro reached
  have refused : ∃ failure, machine.request = .error failure := by
    unfold request
    split
    · exact ⟨_, rfl⟩
    · simp only [limited]
      rw [if_pos reached]
      exact ⟨_, rfl⟩
  obtain ⟨failure, refused⟩ := refused
  exact Stops.not_completes (.refuse refused) completes

/-- A run that comes to an end does so within any larger budget as well. -/
theorem run_of_le {σ : Type} {surroundings : Surroundings σ} {world : σ}
    {ending : Except Failure Unit × Machine × σ} {budget larger : Nat}
    (ran : run surroundings budget machine world = some ending)
    (within : budget ≤ larger) :
    run surroundings larger machine world = some ending := by
  induction budget generalizing larger machine world with
  | zero => cases ran
  | succ budget induction =>
      obtain ⟨larger, rfl⟩ : ∃ rest, larger = rest + 1 :=
        ⟨larger - 1, by omega⟩
      have within := Nat.le_of_succ_le_succ within
      unfold run at ran ⊢
      rcases stepped : machine.step surroundings world with
        ⟨failure | outcome, next, after⟩
      · rwa [stepped] at ran
      · cases outcome with
        | proceeds =>
            rw [stepped] at ran
            exact induction ran within
        | halts => rwa [stepped] at ran

/-- A machine with a step limit ends, whatever it is given. -/
theorem exists_run_of_stepLimit {limit budget : Nat} {tape : Tape}
    (plain : IsPlain tape) (limited : machine.stepLimit = some limit)
    (within : machine.steps ≤ limit) (enough : limit < machine.steps + budget) :
    ∃ result last final,
      run Tape.surroundings budget machine tape =
        some (result, last, final) := by
  induction budget generalizing machine tape with
  | zero => omega
  | succ budget induction =>
      cases tapeStep machine plain with
      | @completes _ _ _ next completes _ stepped =>
          obtain ⟨steps_eq, limit_eq⟩ := completes.steps_eq
          have below := completes.steps_lt limited
          rw [run, stepped]
          have within : next.steps ≤ limit := by omega
          have enough : limit < next.steps + budget := by omega
          exact induction ⟨plain.dry, plain.room⟩ (limit_eq.trans limited)
            within enough
      | @stops _ _ stopped _ _ _ stepped =>
          rw [run, stepped]
          cases stopped <;> exact ⟨_, _, _, rfl⟩
      | starves _ _ stepped =>
          rw [run, stepped]
          exact ⟨_, _, _, rfl⟩

end Machine

end CellMachines
