import CellMachines.Proofs.Machine.Deeds

/-!
# Steps that fail

A step that fails leaves the machine as it was, but for the status, and emits
nothing.  It consumes nothing either, with one exception: an input is taken
before it is stored, so it is lost when the memory then refuses the cell.  What
counts as consumed and emitted is for the surroundings to say (`Tally`); it is
enough that a take that fails consumes nothing and a put that fails emits
nothing.  A machine whose source has run dry can be stepped again as often as
one likes: until there is input, nothing changes any more.
-/

namespace CellMachines

/-- What has been consumed from surroundings and emitted to them, as far as that
can be told from their state. -/
structure Tally {σ : Type} (surroundings : Surroundings σ) (α β : Type) where
  consumed : σ → α
  emitted : σ → β
  consumed_failed {world left : σ} {failure : Failure} :
    surroundings.take world = (.error failure, left) →
      consumed left = consumed world
  emitted_take {world left : σ} {result : Except Failure Word} :
    surroundings.take world = (result, left) → emitted left = emitted world
  emitted_failed {world left : σ} {value : Word} {failure : Failure} :
    surroundings.put value world = (.error failure, left) →
      emitted left = emitted world
  consumed_put {world left : σ} {value : Word} {result : Except Failure Unit} :
    surroundings.put value world = (result, left) →
      consumed left = consumed world

/-- The queue and the record of a tape tell what has been consumed and
emitted. -/
def Tape.tally : Tally Tape.surroundings (List Word) (List Word) where
  consumed tape := tape.waiting
  emitted tape := tape.emitted.toList
  consumed_failed := by
    intro tape left failure taken
    simp only [surroundings, take] at taken
    split at taken <;> cases taken
    rfl
  emitted_take := by
    intro tape left result taken
    simp only [surroundings, take] at taken
    split at taken <;> cases taken <;> rfl
  emitted_failed := by
    intro tape left value failure withheld
    simp only [surroundings, put] at withheld
    split at withheld <;> cases withheld
    rfl
  consumed_put := by
    intro tape left value result withheld
    simp only [surroundings, put] at withheld
    split at withheld <;> cases withheld <;> rfl

namespace Memory

/-- A cell is refused for the limit or for want of memory, not for its
address. -/
theorem cases_of_writeRefusal? {memory : Memory} {index : Nat}
    {refusal : Refusal} (refused : memory.writeRefusal? index = some refusal) :
    (∃ limit, refusal = .beyondLimit index limit) ∨
      ∃ address, refusal = .unavailable address := by
  have unavailable {length : Nat}
      (refused : memory.lengthRefusal? length = some refusal) :
      ∃ address, refusal = .unavailable address := by
    unfold lengthRefusal? at refused
    split at refused <;> cases refused
    exact ⟨_, rfl⟩
  unfold writeRefusal? at refused
  split at refused
  · cases refused
  · split at refused
    · split at refused
      · cases refused
        exact .inl ⟨_, rfl⟩
      · exact .inr (unavailable refused)
    · exact .inr (unavailable refused)

end Memory

/-- The source of inputs is exhausted. -/
def Occasion.IsDry {σ : Type} (occasion : Occasion σ) : Prop :=
  (occasion.surroundings.take occasion.world).1 = .error .inputExhausted

namespace Machine

variable {σ α β : Type} {surroundings : Surroundings σ}
  {machine next : Machine} {world left : σ} {failure : Failure}
  {target : Nat}

/-! ## One step -/

/-- The machine takes an input for a cell that the memory then refuses, for its
limit or for want of memory. -/
def Loses (surroundings : Surroundings σ) (machine : Machine) (world : σ)
    (failure : Failure) (left : σ) : Prop :=
  ∃ target value,
    machine.request = .ok (.input target) ∧
      surroundings.take world = (.ok value, left) ∧
      machine.storeFailure? target = some failure ∧
      ((∃ limit, failure = .memoryLimitExceeded target limit) ∨
        ∃ address, failure = .allocationFailed address machine.ip)

theorem cases_of_storeFailure?
    (refused : machine.storeFailure? target = some failure) :
    (∃ limit, failure = .memoryLimitExceeded target limit) ∨
      ∃ address, failure = .allocationFailed address machine.ip := by
  obtain ⟨refusal, found, rfl⟩ := Option.map_eq_some_iff.mp refused
  rcases Memory.cases_of_writeRefusal? found with
    ⟨limit, rfl⟩ | ⟨address, rfl⟩
  · exact .inl ⟨limit, rfl⟩
  · exact .inr ⟨address, rfl⟩

theorem Does.emitted_eq (tally : Tally surroundings α β)
    (does : Does surroundings machine world (.error failure) next left) :
    tally.emitted left = tally.emitted world := by
  cases does with
  | refuses | overreaches => rfl
  | lacks _ taken | loses _ taken => exact tally.emitted_take taken
  | withholds _ put => exact tally.emitted_failed put

theorem Does.consumed_cases (tally : Tally surroundings α β)
    (does : Does surroundings machine world (.error failure) next left) :
    tally.consumed left = tally.consumed world ∨
      machine.Loses surroundings world failure left := by
  cases does with
  | refuses | overreaches => exact .inl rfl
  | lacks _ taken => exact .inl (tally.consumed_failed taken)
  | withholds _ put => exact .inl (tally.consumed_put put)
  | loses asks taken refused =>
      exact .inr ⟨_, _, asks, taken, refused, cases_of_storeFailure? refused⟩

/-! ## Dry sources -/

theorem does_of_dry (asks : machine.request = .ok (.input target))
    (dry : (surroundings.take world).1 = .error .inputExhausted) :
    Does surroundings machine world (.error .inputExhausted)
      { machine with status := .awaitingInput }
      (surroundings.take world).2 := by
  have running := (effect_of_request asks).1
  rw [← failed_inputExhausted running]
  exact .lacks asks (Prod.ext dry rfl)

/-- A machine that waits and gets nothing goes on waiting. -/
theorem calls_of_dry (waits : machine.status = .awaitingInput)
    (asks : machine.request = .ok (.input target))
    {occasions : List (Occasion σ)}
    (dry : ∀ occasion ∈ occasions, occasion.IsDry) :
    ∀ call ∈ machine.calls occasions,
      call.machine = machine ∧ call.answer = .error .inputExhausted ∧
        call.next = machine := by
  induction occasions with
  | nil => exact nofun
  | cons occasion later induction =>
      have does := does_of_dry asks (dry occasion List.mem_cons_self)
      have same : { machine with status := .awaitingInput } = machine := by
        rw [← waits]
      rw [same] at does
      have stepped : Call.result { occasion with machine } = _ := does.step_eq
      have answer : Call.answer { occasion with machine } =
          .error .inputExhausted := congrArg Prod.fst stepped
      have next : Call.next { occasion with machine } = machine :=
        congrArg (·.2.1) stepped
      intro call member
      rcases List.mem_cons.mp member with rfl | member
      · exact ⟨rfl, answer, next⟩
      · rw [next] at member
        apply induction ?_ call member
        intro occasion member
        exact dry occasion (List.mem_cons_of_mem _ member)

end Machine

namespace Call

variable {σ α β : Type} {call : Call σ} {failure : Failure}

theorem RunsDry.result_eq (dry : call.RunsDry) :
    call.answer = .error .inputExhausted ∧
      call.next = { call.machine with status := .awaitingInput } := by
  obtain ⟨⟨target, asks⟩, dry⟩ := dry
  have stepped : call.result = _ := (Machine.does_of_dry asks dry).step_eq
  exact ⟨congrArg Prod.fst stepped, congrArg (·.2.1) stepped⟩

theorem consumed_eq_of_dry (tally : Tally call.surroundings α β)
    (exhausted : call.answer = .error .inputExhausted) :
    tally.consumed call.left = tally.consumed call.world := by
  have does := call.does
  rw [exhausted] at does
  rcases does.consumed_cases tally with same | ⟨_, _, _, _, _, cause⟩
  · exact same
  · rcases cause with ⟨_, cause⟩ | ⟨_, cause⟩ <;> cases cause

/-- A step that fails changes nothing but the status of the machine, emits
nothing, and consumes nothing but an input that cannot be stored.  After a step
that finds its source exhausted, further ones fail in the same way as long as
they find an exhausted source, and change nothing at all. -/
theorem unchanged_of_error (call : Call σ)
    (tally : Tally call.surroundings α β) :
    (∀ failure, call.answer = .error failure →
      (∃ status, call.next = { call.machine with status }) ∧
      tally.emitted call.left = tally.emitted call.world ∧
      (tally.consumed call.left = tally.consumed call.world ∨
        call.machine.Loses call.surroundings call.world failure call.left)) ∧
    (call.RunsDry →
      call.answer = .error .inputExhausted ∧
      ∀ occasions : List (Occasion σ),
        (∀ occasion ∈ occasions, occasion.IsDry) →
        ∀ again ∈ call.next.calls occasions,
          again.answer = .error .inputExhausted ∧
          again.machine = call.next ∧ again.next = call.next ∧
          ∀ tally : Tally again.surroundings α β,
            tally.emitted again.left = tally.emitted again.world ∧
            tally.consumed again.left = tally.consumed again.world) := by
  constructor
  · intro failure failed
    have does := call.does
    rw [failed] at does
    exact ⟨does.exists_status, does.emitted_eq tally, does.consumed_cases tally⟩
  · intro dry
    obtain ⟨answer, next⟩ := dry.result_eq
    refine ⟨answer, ?_⟩
    intro occasions still again member
    obtain ⟨⟨target, asks⟩, _⟩ := dry
    have waits : call.next.status = .awaitingInput := by
      rw [next]
    have running := (Machine.effect_of_request asks).1
    have asking : call.next.request = .ok (.input target) := by
      have same : Status.awaitingInput.isTerminal =
        call.machine.status.isTerminal := running.symm
      rw [next, Machine.request_status same, asks]
    obtain ⟨same, exhausted, kept⟩ :=
      Machine.calls_of_dry waits asking still again member
    refine ⟨exhausted, same, kept, ?_⟩
    intro tally
    have does := again.does
    rw [exhausted] at does
    exact ⟨does.emitted_eq tally, again.consumed_eq_of_dry tally exhausted⟩

/-- A read into a cell that the memory has no room for. -/
def overreaching (waiting : List Word) : Call Tape where
  surroundings := Tape.surroundings
  world := { waiting }
  machine := Machine.start ⟨[3, 9]⟩ { memory := some 2 }

/-- The value read is lost where there is one, and where there is none the
machine waits for it again and again. -/
theorem unchanged_of_error_overreaching :
    ((overreaching [5, 6]).answer = .error (.memoryLimitExceeded 9 2) ∧
      (overreaching [5, 6]).left.waiting = [6] ∧
      (overreaching [5, 6]).left.emitted.toList = [] ∧
      (overreaching [5, 6]).machine.Loses Tape.surroundings
        (overreaching [5, 6]).world (.memoryLimitExceeded 9 2)
        (overreaching [5, 6]).left) ∧
    ∀ count, ∀ again ∈ (overreaching []).next.calls
        (List.replicate count (overreaching []).toOccasion),
      again.answer = .error .inputExhausted ∧
        again.next = (overreaching []).next := by
  constructor
  · have failed : (overreaching [5, 6]).answer =
        .error (.memoryLimitExceeded 9 2) := by
      decide +kernel
    obtain ⟨_, emitted, consumed⟩ :=
      ((overreaching [5, 6]).unchanged_of_error Tape.tally).1 _ failed
    refine ⟨failed, by decide +kernel, emitted, ?_⟩
    apply consumed.resolve_left
    decide +kernel
  · intro count again member
    have dry : (overreaching []).RunsDry := ⟨⟨9, by decide +kernel⟩, rfl⟩
    obtain ⟨_, waits⟩ := ((overreaching []).unchanged_of_error Tape.tally).2 dry
    obtain ⟨answer, _, next, _⟩ := waits _ (by
      intro occasion member
      rw [List.eq_of_mem_replicate member]
      rfl) again member
    exact ⟨answer, next⟩

end Call

end CellMachines
