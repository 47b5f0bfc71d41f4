import CellMachines.Proofs.Machine.Deeds
import CellMachines.Proofs.Machine.Retracing

/-!
# Machines under other limits

The limits of a machine stay what they are, and the machine looks at them in two
places only: before an instruction, whether its steps are used up, and at a cell
to be written, whether the memory may grow that far.  Where the answer is the
same under other limits, the machine does the same under these.  A run under
other limits therefore goes the same way until it comes to a place where the
answer is another one.
-/

namespace CellMachines

namespace Machine

variable {σ : Type} {surroundings : Surroundings σ} {machine next : Machine}
  {world left : σ} {outcome : Except Failure Outcome} {other : Limits}

def limits (machine : Machine) : Limits where
  steps := machine.stepLimit
  memory := machine.memory.limit
  available := machine.memory.available

/-- The same machine with other limits. -/
def under (machine : Machine) (limits : Limits) : Machine :=
  { machine with
    stepLimit := limits.steps
    memory := { machine.memory with
      limit := limits.memory
      available := limits.available } }

theorem start_under (program : Program) (limits other : Limits) :
    (start program limits).under other = start program other := rfl

theorem failed_under (machine : Machine) (other : Limits) (failure : Failure) :
    (machine.under other).failed failure =
      (machine.failed failure).under other := by
  have same : (machine.under other).status = machine.status := rfl
  unfold failed
  rw [same]
  split
  · rfl
  · split <;> rfl

theorem request_under (same : other.steps = machine.stepLimit) :
    (machine.under other).request = machine.request := by
  have steps : (machine.under other).stepLimit = machine.stepLimit := same
  unfold request
  rw [steps]
  rfl

/-- No step changes the limits. -/
theorem Does.limits_eq
    (does : Does surroundings machine world outcome next left) :
    next.limits = machine.limits := by
  cases outcome with
  | error failure =>
      obtain ⟨status, rfl⟩ := does.exists_status
      rfl
  | ok outcome => cases does <;> rfl

/-! ## One instruction -/

/-- The cell that the instruction at hand gets to write.  An input instruction
gets to that only with a value. -/
def writes? (surroundings : Surroundings σ) (machine : Machine) (world : σ) :
    Option Nat :=
  match machine.request with
  | .ok (.store target _) => some target
  | .ok (.input target) =>
    match surroundings.take world with
    | (.ok _, _) => some target
    | (.error _, _) => none
  | _ => none

/-- An instruction that writes a value of its own leaves the surroundings as
they are, an input instruction takes one value. -/
def Spends (surroundings : Surroundings σ) (machine : Machine) (world : σ)
    (target : Nat) (left : σ) : Prop :=
  (∃ value, machine.request = .ok (.store target value)) ∧ left = world ∨
    machine.request = .ok (.input target) ∧
      ∃ value, surroundings.take world = (.ok value, left)

theorem exists_spends_of_writes? {target : Nat}
    (writes : machine.writes? surroundings world = some target) :
    ∃ left, machine.Spends surroundings world target left := by
  unfold writes? at writes
  split at writes
  · rename_i asks
    cases writes
    exact ⟨world, .inl ⟨⟨_, asks⟩, rfl⟩⟩
  · rename_i asks
    split at writes
    · rename_i taken
      cases writes
      exact ⟨_, .inr ⟨asks, _, taken⟩⟩
    · cases writes
  · cases writes

/-- The instruction at hand meets with the same answers under other limits. -/
structure IsIndifferent (surroundings : Surroundings σ) (machine : Machine)
    (world : σ) (other : Limits) : Prop where
  asks : (machine.under other).request = machine.request
  accepts : ∀ target, machine.writes? surroundings world = some target →
    (machine.under other).storeFailure? target = machine.storeFailure? target

theorem Does.under (does : Does surroundings machine world outcome next left)
    (indifferent : machine.IsIndifferent surroundings world other) :
    Does surroundings (machine.under other) world outcome (next.under other)
      left := by
  have same := indifferent.asks
  have accepts := indifferent.accepts
  cases does with
  | refuses asks =>
      rw [← failed_under]
      exact .refuses (same.trans asks)
  | @stores target _ asks accepted =>
      have again := accepts target (by simp [writes?, asks])
      exact .stores (same.trans asks) (again.trans accepted)
  | @overreaches target _ _ asks refused =>
      have again := accepts target (by simp [writes?, asks])
      rw [← failed_under]
      exact .overreaches (same.trans asks) (again.trans refused)
  | lacks asks taken =>
      rw [← failed_under]
      exact .lacks (same.trans asks) taken
  | @takes target _ _ asks taken accepted =>
      have again := accepts target (by simp [writes?, asks, taken])
      exact .takes (same.trans asks) taken (again.trans accepted)
  | @loses target _ _ _ asks taken refused =>
      have again := accepts target (by simp [writes?, asks, taken])
      rw [← failed_under]
      exact .loses (same.trans asks) taken (again.trans refused)
  | puts asks put => exact .puts (same.trans asks) put
  | withholds asks put =>
      rw [← failed_under]
      exact .withholds (same.trans asks) put
  | jumps asks => exact .jumps (same.trans asks)
  | rebases asks => exact .rebases (same.trans asks)
  | halts asks => exact .halts (same.trans asks)

/-! ## Runs -/

variable {first last : Machine} {tape final rest : Tape} {steps : Nat}
  {ending : Option (Except Failure Unit)}

theorem after_of_does
    (does : Does Tape.surroundings first tape outcome next rest)
    (steps : Nat) :
    after (steps + 1) first tape =
      match outcome with
      | .ok .proceeds => after steps next rest
      | .ok .halts => (some (.ok ()), next, rest)
      | .error failure => (some (.error failure), next, rest) := by
  rw [after, does.step_eq]
  rcases outcome with failure | outcome
  · rfl
  · cases outcome <;> rfl

theorem run_eq_some_iff {result : Except Failure Unit} :
    run Tape.surroundings steps first tape = some (result, last, final) ↔
      after steps first tape = (some result, last, final) := by
  rw [run_eq_after]
  rcases after steps first tape with ⟨_ | ending, other, left⟩ <;> simp

/-- What every completed instruction keeps holds of a run that still goes on. -/
theorem after_keeps (Holds : Machine → Prop)
    (keeps : ∀ {machine next : Machine} {tape rest : Tape},
      Does Tape.surroundings machine tape (.ok .proceeds) next rest →
      Holds machine → Holds next)
    (holds : Holds first)
    (reached : after steps first tape = (none, last, final)) : Holds last := by
  induction steps generalizing first tape with
  | zero =>
      cases reached
      exact holds
  | succ steps induction =>
      obtain ⟨outcome, next, rest, does⟩ := exists_does _ first tape
      rw [after_of_does does] at reached
      rcases outcome with failure | outcome
      · cases reached
      · cases outcome with
        | proceeds => exact induction (keeps does holds) reached
        | halts => cases reached

theorem isTerminal_of_going (running : first.status.isTerminal = false)
    (reached : after steps first tape = (none, last, final)) :
    last.status.isTerminal = false := by
  refine after_keeps (fun machine => machine.status.isTerminal = false) ?_
    running reached
  intro machine next tape rest does running
  cases does with
  | takes => rfl
  | stores | puts | jumps | rebases => exact running

theorem limits_of_going
    (reached : after steps first tape = (none, last, final)) :
    last.limits = first.limits := by
  refine after_keeps (fun machine => machine.limits = first.limits) ?_ rfl
    reached
  intro machine next tape rest does same
  exact does.limits_eq.trans same

/-- A run goes the same way under other limits if none of its instructions meets
with another answer. -/
theorem after_under
    (indifferent : ∀ done < steps, ∀ machine between,
      after done first tape = (none, machine, between) →
      machine.IsIndifferent Tape.surroundings between other)
    (reached : after steps first tape = (ending, last, final)) :
    after steps (first.under other) tape =
      (ending, last.under other, final) := by
  induction steps generalizing first tape with
  | zero =>
      cases reached
      rfl
  | succ steps induction =>
      obtain ⟨outcome, next, rest, does⟩ := exists_does _ first tape
      have here := indifferent 0 (Nat.succ_pos steps) first tape rfl
      rw [after_of_does does] at reached
      rw [after_of_does (does.under here)]
      rcases outcome with failure | outcome
      · cases reached
        rfl
      · cases outcome with
        | halts =>
            cases reached
            rfl
        | proceeds =>
            apply induction ?_ reached
            intro done within machine between goes
            apply indifferent (done + 1) (Nat.succ_lt_succ within)
            rw [after_of_does does]
            exact goes

end Machine

end CellMachines
