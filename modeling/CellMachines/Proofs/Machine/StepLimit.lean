import CellMachines.Proofs.Machine.Limits

/-!
# Runs with a step limit

A step limit cuts a run off and changes nothing else about it.  A run that ends
by itself before the limit is reached ends in the same way under the limit; any
other run, also one that would go on for ever, is stopped at the limit, where
the run without a limit would be after as many instructions.  An instruction
that halts is complete and counts, one that fails does not.
-/

namespace CellMachines

namespace Machine

variable {first machine last : Machine} {tape final : Tape} {count limit : Nat}
  {limits : Limits} {result : Except Failure Unit}

/-! ## Counting -/

/-- An end for which so many complete instructions are enough. -/
def EndsWithin (count : Nat) (result : Except Failure Unit) (last : Machine) :
    Prop :=
  match result with
  | .ok () => last.steps ≤ count
  | .error _ => last.steps < count

theorem Does.steps_of_ok {σ : Type} {surroundings : Surroundings σ}
    {next : Machine} {world left : σ} {outcome : Outcome}
    (does : Does surroundings machine world (.ok outcome) next left) :
    next.steps = machine.steps + 1 := by
  cases does <;> rfl

theorem steps_of_going
    (reached : after count first tape = (none, last, final)) :
    last.steps = first.steps + count := by
  induction count generalizing first tape with
  | zero =>
      cases reached
      rfl
  | succ count induction =>
      obtain ⟨outcome, next, rest, does⟩ := exists_does _ first tape
      rw [after_of_does does] at reached
      rcases outcome with failure | outcome
      · cases reached
      · cases outcome with
        | halts => cases reached
        | proceeds =>
            have counted := does.steps_of_ok
            have further := induction reached
            omega

/-- A run that has ended needs more instructions than none and no more than it
has had. -/
theorem endsWithin_of_ended
    (reached : after count first tape = (some result, last, final)) :
    EndsWithin (first.steps + count) result last ∧
      ¬EndsWithin first.steps result last := by
  induction count generalizing first tape with
  | zero => cases reached
  | succ count induction =>
      obtain ⟨outcome, next, rest, does⟩ := exists_does _ first tape
      rw [after_of_does does] at reached
      rcases outcome with failure | outcome
      · cases reached
        obtain ⟨status, rfl⟩ := does.exists_status
        simp [EndsWithin]
      · have counted := does.steps_of_ok
        cases outcome with
        | halts =>
            cases reached
            simp only [EndsWithin]
            omega
        | proceeds =>
            have further := induction reached
            rw [counted] at further
            cases result <;> simp only [EndsWithin] at further ⊢ <;> omega

/-! ## Cutting -/

/-- The same limits, but for the steps. -/
def withSteps (limits : Limits) (steps : Option Nat) : Limits :=
  { limits with steps }

theorem memory_under (same : machine.limits = withSteps limits none)
    (steps : Option Nat) :
    (machine.under (withSteps limits steps)).memory = machine.memory := by
  have cap : machine.memory.limit = limits.memory :=
    congrArg Limits.memory same
  have room : machine.memory.available = limits.available :=
    congrArg Limits.available same
  rw [under, withSteps, ← cap, ← room]

theorem request_of_limit (limited : machine.stepLimit = some limit)
    (running : machine.status.isTerminal = false) :
    machine.request =
      if limit ≤ machine.steps then .error (.stepLimitExceeded limit)
      else machine.effect := by
  simp [request, running, limited]

theorem request_of_no_limit (unlimited : machine.stepLimit = none)
    (running : machine.status.isTerminal = false) :
    machine.request = machine.effect := by
  simp [request, running, unlimited]

theorem stepLimit_under (machine : Machine) (limits : Limits) (limit : Nat) :
    (machine.under (withSteps limits (some limit))).stepLimit = some limit :=
  rfl

/-- Before the limit is reached, a machine does not notice it. -/
theorem isIndifferent_of_steps_lt
    (running : machine.status.isTerminal = false)
    (same : machine.limits = withSteps limits none)
    (below : machine.steps < limit) (between : Tape) :
    machine.IsIndifferent Tape.surroundings between
      (withSteps limits (some limit)) := by
  constructor
  · have bounded :=
      request_of_limit (stepLimit_under machine limits limit) running
    have unlimited := request_of_no_limit (congrArg Limits.steps same) running
    rw [bounded, unlimited]
    exact if_neg (Nat.not_le_of_lt below)
  · intro target _
    rw [storeFailure?, memory_under same]
    rfl

/-- At the limit nothing happens any more. -/
theorem does_of_steps_eq (running : machine.status.isTerminal = false)
    (reached : machine.steps = limit) (limits : Limits) (between : Tape) :
    Does Tape.surroundings (machine.under (withSteps limits (some limit)))
      between (.error (.stepLimitExceeded limit))
      (machine.under (withSteps limits (some limit))).faulted between := by
  have bounded :=
    request_of_limit (stepLimit_under machine limits limit) running
  have failed : (machine.under (withSteps limits (some limit))).failed
      (.stepLimitExceeded limit) = _ := failed_of_ne running nofun
  rw [← failed]
  exact .refuses (bounded.trans (if_pos (Nat.le_of_eq reached.symm)))

/-- A run ends as told, within so many complete instructions. -/
def Finishes (limit : Nat) (machine : Machine) (tape : Tape)
    (result : Except Failure Unit) (last : Machine) (final : Tape) : Prop :=
  EndsWithin limit result last ∧
    ∃ budget, run Tape.surroundings budget machine tape =
      some (result, last, final)

variable {program : Program}

theorem not_terminal_start (program : Program) (limits : Limits) :
    (start program limits).status.isTerminal = false := rfl

/-- As far as the limit, a run goes the same way with it and without it. -/
theorem after_within {ending : Option (Except Failure Unit)}
    (reached : after limit (start program (withSteps limits none)) tape =
      (ending, last, final)) :
    after limit (start program (withSteps limits (some limit))) tape =
      (ending, last.under (withSteps limits (some limit)), final) := by
  rw [← start_under program (withSteps limits none)]
  apply after_under ?_ reached
  intro done within machine between goes
  apply isIndifferent_of_steps_lt
  · exact isTerminal_of_going (not_terminal_start program _) goes
  · exact limits_of_going goes
  · have counted : machine.steps = 0 + done := steps_of_going goes
    omega

theorem finishes_of_ended {first : Machine} {tape : Tape}
    (fresh : first.steps = 0)
    (reached : after limit first tape = (some result, last, final)) :
    Finishes limit first tape result last final := by
  have within := (endsWithin_of_ended reached).1
  rw [fresh, Nat.zero_add] at within
  exact ⟨within, limit, run_eq_some_iff.mpr reached⟩

theorem not_finishes_of_going {between : Tape}
    (going : after limit first tape = (none, machine, between))
    (fresh : first.steps = 0) :
    ¬Finishes limit first tape result last final := by
  rintro ⟨within, budget, ran⟩
  have ended := run_of_le ran (Nat.le_add_left budget limit)
  rw [run_eq_some_iff, after_add going] at ended
  have beyond := (endsWithin_of_ended ended).2
  rw [steps_of_going going, fresh, Nat.zero_add] at beyond
  exact beyond within

theorem run_of_ended
    (ended : after limit (start program (withSteps limits none)) tape =
      (some result, last, final)) :
    run Tape.surroundings (limit + 1)
        (start program (withSteps limits (some limit))) tape =
      some (result, last.under (withSteps limits (some limit)), final) := by
  have cut := run_eq_some_iff.mpr (after_within ended)
  exact run_of_le cut (Nat.le_succ limit)

theorem run_of_going {between : Tape}
    (going : after limit (start program (withSteps limits none)) tape =
      (none, machine, between)) :
    run Tape.surroundings (limit + 1)
        (start program (withSteps limits (some limit))) tape =
      some (.error (.stepLimitExceeded limit),
        (machine.under (withSteps limits (some limit))).faulted, between) := by
  have running := isTerminal_of_going (not_terminal_start program _) going
  have counted : machine.steps = 0 + limit := steps_of_going going
  have does := does_of_steps_eq running (counted.trans (Nat.zero_add limit))
    limits between
  rw [run_eq_some_iff, after_add (after_within going), after_of_does does]

/-- A step limit lets a run that finishes within it finish as it does without a
limit.  Any other run goes on to the limit as it does without one and fails
there, with nothing changed but the status.  In either case the run is over
after one instruction more than the limit allows. -/
theorem stepLimit_cuts_run (program : Program) (limits : Limits) (tape : Tape)
    (limit : Nat) :
    (∃ ending,
      run Tape.surroundings (limit + 1)
          (start program (withSteps limits (some limit))) tape =
        some ending) ∧
    (∀ result last final,
      Finishes limit (start program (withSteps limits none)) tape result last
          final →
        run Tape.surroundings (limit + 1)
            (start program (withSteps limits (some limit))) tape =
          some (result, last.under (withSteps limits (some limit)), final)) ∧
    ((∀ result last final,
        ¬Finishes limit (start program (withSteps limits none)) tape result last
          final) →
      ∃ middle between,
        after limit (start program (withSteps limits none)) tape =
          (none, middle, between) ∧
        middle.steps = limit ∧
        run Tape.surroundings (limit + 1)
            (start program (withSteps limits (some limit))) tape =
          some (.error (.stepLimitExceeded limit),
            (middle.under (withSteps limits (some limit))).faulted,
            between)) := by
  rcases reached : after limit (start program (withSteps limits none)) tape with
    ⟨_ | result, middle, between⟩
  · refine ⟨⟨_, run_of_going reached⟩, ?_, ?_⟩
    · intro result last final finishes
      exact absurd finishes (not_finishes_of_going reached rfl)
    · intro _
      have counted : middle.steps = 0 + limit := steps_of_going reached
      exact ⟨middle, between, rfl, counted.trans (Nat.zero_add limit),
        run_of_going reached⟩
  · refine ⟨⟨_, run_of_ended reached⟩, ?_, ?_⟩
    · rintro other last final ⟨_, budget, ran⟩
      cases run_unique ran (run_eq_some_iff.mpr reached)
      exact run_of_ended reached
    · intro never
      exact absurd (finishes_of_ended rfl reached) (never result middle between)

/-- A program that jumps to itself. -/
def spinning : Program where
  cells := [1106, 0, 0]

/-- A program that puts out a seven and halts with its second instruction does
so under a limit of two, and one that goes on for ever is stopped by a limit of
three. -/
theorem stepLimit_cuts_run_spinning :
    ((run Tape.surroundings 3
          (start ⟨[104, 7, 99]⟩ (withSteps {} (some 2))) { waiting := [] }).map
        fun (result, last, final) =>
          (result, last.steps, last.status, final.emitted)) =
      some (.ok (), 2, .halted, #[7]) ∧
    ((run Tape.surroundings 4
          (start spinning (withSteps {} (some 3))) { waiting := [] }).map
        fun (result, last, _) => (result, last.steps, last.status)) =
      some (.error (.stepLimitExceeded 3), 3, .faulted) := by
  constructor
  · obtain ⟨_, ends, _⟩ :=
      stepLimit_cuts_run ⟨[104, 7, 99]⟩ {} { waiting := [] } 2
    rw [ends (.ok ()) _ _ (finishes_of_ended rfl rfl)]
    rfl
  · obtain ⟨_, _, cut⟩ := stepLimit_cuts_run spinning {} { waiting := [] } 3
    have going : after 3 (start spinning (withSteps {} none))
        { waiting := [] } =
        (none, { start spinning {} with steps := 3 }, { waiting := [] }) := rfl
    obtain ⟨middle, between, reached, counted, stopped⟩ := cut (by
      intro result last final
      exact not_finishes_of_going going rfl)
    rw [stopped]
    simp [faulted, under, counted]

end Machine

end CellMachines
