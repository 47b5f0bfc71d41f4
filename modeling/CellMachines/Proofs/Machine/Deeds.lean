import CellMachines.Proofs.Machine.Status

/-!
# What a step does

A step of a machine in any surroundings comes to one of a few deeds: it refuses,
it writes a cell with a value of its own or with an input, it puts out a value,
goes on elsewhere, or halts.  `Does` lists them with everything that has to be
the case for each, so that a fact about all steps is a look at every deed.  Most
deeds that fail do so before anything has happened; only an input is taken
before it turns out that it cannot be stored.
-/

namespace CellMachines

namespace Machine

variable {σ : Type} {surroundings : Surroundings σ} {machine next : Machine}
  {world left : σ} {outcome : Except Failure Outcome}

/-- What a step comes to, what becomes of the machine, and what is left of its
surroundings. -/
inductive Does (surroundings : Surroundings σ) (machine : Machine) (world : σ) :
    Except Failure Outcome → Machine → σ → Prop where
  | refuses {failure : Failure} :
      machine.request = .error failure →
      Does surroundings machine world (.error failure)
        (machine.failed failure) world
  | stores {target : Nat} {value : Word} :
      machine.request = .ok (.store target value) →
      machine.storeFailure? target = none →
      Does surroundings machine world (.ok .proceeds)
        (machine.stored target value 4) world
  | overreaches {target : Nat} {value : Word} {failure : Failure} :
      machine.request = .ok (.store target value) →
      machine.storeFailure? target = some failure →
      Does surroundings machine world (.error failure)
        (machine.failed failure) world
  | lacks {target : Nat} {failure : Failure} {left : σ} :
      machine.request = .ok (.input target) →
      surroundings.take world = (.error failure, left) →
      Does surroundings machine world (.error failure)
        (machine.failed failure) left
  | takes {target : Nat} {value : Word} {left : σ} :
      machine.request = .ok (.input target) →
      surroundings.take world = (.ok value, left) →
      machine.storeFailure? target = none →
      Does surroundings machine world (.ok .proceeds)
        (machine.resumed.stored target value 2) left
  | loses {target : Nat} {value : Word} {failure : Failure} {left : σ} :
      machine.request = .ok (.input target) →
      surroundings.take world = (.ok value, left) →
      machine.storeFailure? target = some failure →
      Does surroundings machine world (.error failure)
        (machine.resumed.failed failure) left
  | puts {value : Word} {left : σ} :
      machine.request = .ok (.output value) →
      surroundings.put value world = (.ok (), left) →
      Does surroundings machine world (.ok .proceeds) machine.sent left
  | withholds {value : Word} {failure : Failure} {left : σ} :
      machine.request = .ok (.output value) →
      surroundings.put value world = (.error failure, left) →
      Does surroundings machine world (.error failure)
        (machine.failed failure) left
  | jumps {target : Nat} :
      machine.request = .ok (.jump target) →
      Does surroundings machine world (.ok .proceeds)
        (machine.jumped target) world
  | rebases {base : Word} :
      machine.request = .ok (.rebase base) →
      Does surroundings machine world (.ok .proceeds)
        (machine.rebased base) world
  | halts :
      machine.request = .ok .halt →
      Does surroundings machine world (.ok .halts) machine.halted world

theorem Does.step_eq
    (does : Does surroundings machine world outcome next left) :
    machine.step surroundings world = (outcome, next, left) := by
  cases does with
  | refuses asks | jumps asks | rebases asks | halts asks => simp [step, asks]
  | stores asks accepted => simp [step, asks, settle, accepted]
  | overreaches asks refused => simp [step, asks, settle, refused]
  | lacks asks taken => simp [step, asks, taken]
  | takes asks taken accepted =>
      simp [step, asks, taken, settle, storeFailure?_resumed, accepted]
  | loses asks taken refused =>
      simp [step, asks, taken, settle, storeFailure?_resumed, refused]
  | puts asks put | withholds asks put => simp [step, asks, put]

theorem exists_does (surroundings : Surroundings σ) (machine : Machine)
    (world : σ) :
    ∃ outcome next left,
      Does surroundings machine world outcome next left := by
  cases asks : machine.request with
  | error failure => exact ⟨_, _, _, .refuses asks⟩
  | ok effect =>
      cases effect with
      | store target value =>
          cases refused : machine.storeFailure? target with
          | none => exact ⟨_, _, _, .stores asks refused⟩
          | some failure => exact ⟨_, _, _, .overreaches asks refused⟩
      | input target =>
          rcases taken : surroundings.take world with ⟨failure | value, left⟩
          · exact ⟨_, _, _, .lacks asks taken⟩
          · cases refused : machine.storeFailure? target with
            | none => exact ⟨_, _, _, .takes asks taken refused⟩
            | some failure => exact ⟨_, _, _, .loses asks taken refused⟩
      | output value =>
          rcases put : surroundings.put value world with ⟨failure | ⟨⟩, left⟩
          · exact ⟨_, _, _, .withholds asks put⟩
          · exact ⟨_, _, _, .puts asks put⟩
      | jump target => exact ⟨_, _, _, .jumps asks⟩
      | rebase base => exact ⟨_, _, _, .rebases asks⟩
      | halt => exact ⟨_, _, _, .halts asks⟩

theorem does_iff :
    Does surroundings machine world outcome next left ↔
      machine.step surroundings world = (outcome, next, left) := by
  constructor
  · exact Does.step_eq
  · intro stepped
    obtain ⟨_, _, _, does⟩ := exists_does surroundings machine world
    have same := does.step_eq
    rw [stepped] at same
    cases same
    exact does

theorem exists_status_failed (machine : Machine) (failure : Failure) :
    ∃ status, machine.failed failure = { machine with status } := by
  unfold failed
  split
  · exact ⟨machine.status, rfl⟩
  · split
    · exact ⟨.awaitingInput, rfl⟩
    · exact ⟨.faulted, rfl⟩

/-- The machine stopped where it is. -/
def faulted (machine : Machine) : Machine :=
  { machine with status := .faulted }

theorem failed_of_ne {failure : Failure}
    (running : machine.status.isTerminal = false)
    (other : failure ≠ .inputExhausted) :
    machine.failed failure = machine.faulted := by
  obtain ⟨status, same⟩ := exists_status_failed machine failure
  have ended := status_failed running other
  rw [same] at ended ⊢
  exact congrArg (fun status => { machine with status }) ended

/-- A step that fails changes nothing about the machine but its status. -/
theorem Does.exists_status {failure : Failure}
    (does : Does surroundings machine world (.error failure) next left) :
    ∃ status, next = { machine with status } := by
  cases does with
  | refuses | overreaches | lacks | withholds =>
      exact exists_status_failed machine failure
  | loses => exact exists_status_failed machine.resumed failure

/-- A step changes the memory by no more than one cell, and by none where the
memory refuses that. -/
theorem Does.memory_cases
    (does : Does surroundings machine world outcome next left) :
    next.memory = machine.memory ∨
      ∃ target value, machine.storeFailure? target = none ∧
        next.memory = machine.memory.set target value := by
  cases outcome with
  | error failure =>
      obtain ⟨status, rfl⟩ := does.exists_status
      exact .inl rfl
  | ok outcome =>
      cases does with
      | puts | jumps | rebases | halts => exact .inl rfl
      | stores _ accepted | takes _ _ accepted =>
          exact .inr ⟨_, _, accepted, rfl⟩

theorem Does.length_mono
    (does : Does surroundings machine world outcome next left) :
    machine.memory.length ≤ next.memory.length := by
  rcases does.memory_cases with same | ⟨target, value, _, same⟩
  · exact Nat.le_of_eq (congrArg Memory.length same.symm)
  · rw [same, Memory.length_set]
    exact Nat.le_max_left _ _

/-- Over a whole run the memory never gets shorter. -/
theorem length_mono_of_run {budget : Nat} {result : Except Failure Unit}
    {last : Machine} {final : σ}
    (ran : machine.run surroundings budget world = some (result, last, final)) :
    machine.memory.length ≤ last.memory.length := by
  induction budget generalizing machine world with
  | zero => cases ran
  | succ budget induction =>
      obtain ⟨outcome, next, left, does⟩ := exists_does surroundings machine world
      rw [run, does.step_eq] at ran
      rcases outcome with failure | _ | _
      · cases ran
        exact does.length_mono
      · exact Nat.le_trans does.length_mono (induction ran)
      · cases ran
        exact does.length_mono

end Machine

theorem Call.does {σ : Type} (call : Call σ) :
    Machine.Does call.surroundings call.machine call.world call.answer call.next
      call.left :=
  Machine.does_iff.mpr rfl

end CellMachines
