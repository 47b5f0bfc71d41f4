import CellMachines.Proofs.Machine.Conclusion
import CellMachines.Proofs.Machine.Effects
import Mathlib.Data.List.Induction

/-!
# What the status of a machine tells

The status is to tell what happened last: that the machine has halted, that a
step has failed, that it waits for input, or nothing of that kind.  A machine is
stepped any number of times in any surroundings, which may change from one call
to the next, and what the calls came to is compared with the status
(`StatusTells`).  The two agree in everything, unless an output is refused with
the very failure that an exhausted input reports (`statusTells_iff`): a step
only looks at the failure, and the machine then seems to wait for input.
-/

namespace CellMachines

/-- The surroundings of a step, and the state they are in. -/
structure Occasion (σ : Type) where
  surroundings : Surroundings σ
  world : σ

/-- A step of a machine as it was then. -/
structure Call (σ : Type) extends Occasion σ where
  machine : Machine

namespace Call

variable {σ : Type} (call : Call σ)

def result : Except Failure Outcome × Machine × σ :=
  call.machine.step call.surroundings call.world

def answer : Except Failure Outcome :=
  call.result.1

def next : Machine :=
  call.result.2.1

def left : σ :=
  call.result.2.2

/-! ## What a call comes to -/

/-- The instruction at hand is an input, and its source is exhausted. -/
def RunsDry : Prop :=
  (∃ target, call.machine.request = .ok (.input target)) ∧
    (call.surroundings.take call.world).1 = .error .inputExhausted

/-- The instruction at hand is an output, and its value is refused. -/
def IsRefused (failure : Failure) : Prop :=
  ∃ value, call.machine.request = .ok (.output value) ∧
    (call.surroundings.put value call.world).1 = .error failure

def Halts : Prop :=
  call.answer = .ok .halts

def Proceeds : Prop :=
  call.answer = .ok .proceeds

/-- The call reports that the input is exhausted, as the source has said. -/
def Suspends : Prop :=
  call.answer = .error .inputExhausted ∧ call.RunsDry

/-- The call fails before the end of the machine, and for another reason than an
exhausted source. -/
def Fails : Prop :=
  call.machine.status.isTerminal = false ∧ ¬call.RunsDry ∧
    ∃ failure, call.answer = .error failure

/-- The status after the call is right as far as it depends on this call
alone. -/
structure IsSound : Prop where
  refused : ∀ failure, call.IsRefused failure → call.next.status = .faulted
  proceeds : call.Proceeds → call.next.status = .running
  ended : call.machine.status.isTerminal = true →
    call.result = (.error .notRunning, call.machine, call.world)

end Call

namespace Machine

variable {σ : Type} {first machine : Machine} {call : Call σ}
  {occasions : List (Occasion σ)} {occasion : Occasion σ}

/-- The steps of a machine on one occasion after the other. -/
def calls (machine : Machine) : List (Occasion σ) → List (Call σ)
  | [] => []
  | occasion :: later =>
    let call := { occasion with machine }
    call :: call.next.calls later

def stepped (machine : Machine) (occasions : List (Occasion σ)) : Machine :=
  occasions.foldl (fun machine occasion => Call.next { occasion with machine })
    machine

theorem calls_concat (machine : Machine) (occasions : List (Occasion σ))
    (occasion : Occasion σ) :
    machine.calls (occasions ++ [occasion]) =
      machine.calls occasions ++
        [{ occasion with machine := machine.stepped occasions }] := by
  induction occasions generalizing machine with
  | nil => rfl
  | cons head later induction =>
      rw [List.cons_append, calls, induction]
      rfl

theorem stepped_concat (machine : Machine) (occasions : List (Occasion σ))
    (occasion : Occasion σ) :
    machine.stepped (occasions ++ [occasion]) =
      Call.next { occasion with machine := machine.stepped occasions } := by
  simp [stepped]

/-- The cell at the instruction pointer is an input instruction. -/
def IsAtInput (machine : Machine) : Prop :=
  ∃ instruction,
    Instruction.decode (machine.memory.get machine.ip) machine.ip =
        .ok instruction ∧
      instruction.opcode = .input

/-- The status of the machine tells what the steps came to. -/
structure StatusTells (first : Machine) (occasions : List (Occasion σ)) :
    Prop where
  halted : (first.stepped occasions).status = .halted ↔
    ∃ call ∈ first.calls occasions, call.Halts
  faulted : (first.stepped occasions).status = .faulted ↔
    ∃ call ∈ first.calls occasions, call.Fails
  awaiting : (first.stepped occasions).status = .awaitingInput ↔
    ∃ call ∈ (first.calls occasions).getLast?, call.Suspends
  running : (first.stepped occasions).status = .running ↔
    (¬∃ call ∈ first.calls occasions, call.Halts) ∧
      (¬∃ call ∈ first.calls occasions, call.Fails) ∧
      ¬∃ call ∈ (first.calls occasions).getLast?, call.Suspends
  at_input : (first.stepped occasions).status = .awaitingInput →
    (first.stepped occasions).IsAtInput
  sound : ∀ call ∈ first.calls occasions, call.IsSound

/-! ## Waiting for input -/

theorem isAtInput_of_request {target : Nat}
    (asks : machine.request = .ok (.input target)) : machine.IsAtInput := by
  obtain ⟨instruction, decodes, causes⟩ := causes_of_request asks
  cases causes with
  | input opcode _ => exact ⟨instruction, decodes, opcode⟩

/-- A machine that waits for input does nothing else next. -/
def IsPoised (machine : Machine) : Prop :=
  machine.status = .awaitingInput →
    ∃ target, machine.request = .ok (.input target)

theorem request_status {status : Status}
    (same : status.isTerminal = machine.status.isTerminal) :
    request { machine with status } = machine.request := by
  unfold request
  rw [same]
  rfl

theorem status_failed (running : machine.status.isTerminal = false)
    {failure : Failure} (other : failure ≠ .inputExhausted) :
    (machine.failed failure).status = .faulted := by
  cases failure with
  | inputExhausted => exact absurd rfl other
  | _ => simp [failed, running]

theorem status_of_not_terminal (running : machine.status.isTerminal = false)
    (poised : machine.IsPoised)
    (other : ∀ target, machine.request ≠ .ok (.input target)) :
    machine.status = .running := by
  cases status : machine.status with
  | running => rfl
  | awaitingInput =>
      obtain ⟨target, asks⟩ := poised status
      exact absurd asks (other target)
  | halted | faulted =>
      rw [status] at running
      cases running

end Machine

namespace Call

variable {σ : Type} {call : Call σ} {failure : Failure}

/-- What a call comes to before the end of the machine. -/
inductive Comes (call : Call σ) : Prop where
  | halts : call.Halts → call.next.status = .halted → Comes call
  | proceeds : call.Proceeds → call.next.status = .running → Comes call
  | suspends {target : Nat} :
      call.Suspends → call.next.status = .awaitingInput →
      call.next.request = .ok (.input target) → Comes call
  | fails : call.Fails → call.next.status = .faulted → Comes call

private theorem comes_of_proceeds {after : Machine} {left : σ}
    (same : call.result = (.ok .proceeds, after, left))
    (running : after.status = .running) : call.Comes := by
  apply Comes.proceeds (congrArg Prod.fst same)
  rw [next, same]
  exact running

private theorem comes_of_fails {before : Machine} {left : σ}
    (running : call.machine.status.isTerminal = false)
    (supplied : ¬call.RunsDry) (other : failure ≠ .inputExhausted)
    (still : before.status.isTerminal = false)
    (same : call.result = (.error failure, before.failed failure, left)) :
    call.Comes := by
  apply Comes.fails ⟨running, supplied, failure, congrArg Prod.fst same⟩
  rw [next, same]
  exact Machine.status_failed still other

private theorem not_runsDry
    (other : ∀ target, call.machine.request ≠ .ok (.input target)) :
    ¬call.RunsDry := by
  rintro ⟨⟨target, asks⟩, _⟩
  exact other target asks

private theorem ne_inputExhausted (fault : failure.isFault = true) :
    failure ≠ .inputExhausted := by
  rintro rfl
  cases fault

private theorem comes_of_input {target : Nat}
    (asks : call.machine.request = .ok (.input target)) : call.Comes := by
  have running := (Machine.effect_of_request asks).1
  rcases takes : call.surroundings.take call.world with ⟨failure | value, left⟩
  · have same : call.result =
        (.error failure, call.machine.failed failure, left) := by
      simp [result, Machine.step, asks, takes]
    by_cases dry : failure = .inputExhausted
    · subst dry
      rw [Machine.failed_inputExhausted running] at same
      have waits : call.next =
          { call.machine with status := .awaitingInput } :=
        congrArg (·.2.1) same
      have again : call.next.request = call.machine.request := by
        rw [waits]
        exact Machine.request_status running.symm
      apply Comes.suspends
      · exact ⟨congrArg Prod.fst same, ⟨target, asks⟩, by rw [takes]⟩
      · rw [waits]
      · exact again.trans asks
    · apply comes_of_fails running ?_ dry running same
      rintro ⟨_, exhausted⟩
      rw [takes] at exhausted
      exact dry (Except.error.inj exhausted)
  · have supplied : ¬call.RunsDry := by
      rintro ⟨_, exhausted⟩
      rw [takes] at exhausted
      cases exhausted
    cases refused : call.machine.storeFailure? target with
    | none =>
        have same : call.result = (.ok .proceeds,
            call.machine.resumed.stored target value 2, left) := by
          simp [result, Machine.step, asks, takes, Machine.settle,
            Machine.storeFailure?_resumed, refused]
        exact comes_of_proceeds same rfl
    | some failure =>
        have fault := Machine.isFault_of_storeFailure? refused
        have same : call.result = (.error failure,
            call.machine.resumed.failed failure, left) := by
          simp [result, Machine.step, asks, takes, Machine.settle,
            Machine.storeFailure?_resumed, refused]
        exact comes_of_fails running supplied (ne_inputExhausted fault) rfl same

/-- Whatever a call comes to, the status tells it, when no output is refused as
if it were an input. -/
theorem comes (running : call.machine.status.isTerminal = false)
    (poised : call.machine.IsPoised)
    (distinct : ¬call.IsRefused .inputExhausted) : call.Comes := by
  have still := Machine.status_of_not_terminal running poised
  cases asks : call.machine.request with
  | error failure =>
      have fault := Machine.onlyFaults_request running _ asks
      have same : call.result =
          (.error failure, call.machine.failed failure, call.world) := by
        simp [result, Machine.step, asks]
      apply comes_of_fails running ?_ (ne_inputExhausted fault) running
        same
      exact not_runsDry (by simp [asks])
  | ok effect =>
      cases effect with
      | input target => exact comes_of_input asks
      | store target value =>
          cases refused : call.machine.storeFailure? target with
          | none =>
              have same : call.result = (.ok .proceeds,
                  call.machine.stored target value 4, call.world) := by
                simp [result, Machine.step, asks, Machine.settle, refused]
              exact comes_of_proceeds same (still (by simp [asks]))
          | some failure =>
              have fault := Machine.isFault_of_storeFailure? refused
              have same : call.result = (.error failure,
                  call.machine.failed failure, call.world) := by
                simp [result, Machine.step, asks, Machine.settle, refused]
              apply comes_of_fails running ?_ (ne_inputExhausted fault)
                running same
              exact not_runsDry (by simp [asks])
      | output value =>
          rcases puts : call.surroundings.put value call.world with
            ⟨failure | ⟨⟩, left⟩
          · have other : failure ≠ .inputExhausted := by
              rintro rfl
              exact distinct ⟨value, asks, by rw [puts]⟩
            have same : call.result =
                (.error failure, call.machine.failed failure, left) := by
              simp [result, Machine.step, asks, puts]
            apply comes_of_fails running ?_ other running same
            exact not_runsDry (by simp [asks])
          · have same : call.result =
                (.ok .proceeds, call.machine.sent, left) := by
              simp [result, Machine.step, asks, puts]
            exact comes_of_proceeds same (still (by simp [asks]))
      | jump target =>
          have same : call.result =
              (.ok .proceeds, call.machine.jumped target, call.world) := by
            simp [result, Machine.step, asks]
          exact comes_of_proceeds same (still (by simp [asks]))
      | rebase base =>
          have same : call.result =
              (.ok .proceeds, call.machine.rebased base, call.world) := by
            simp [result, Machine.step, asks]
          exact comes_of_proceeds same (still (by simp [asks]))
      | halt =>
          have same : call.result =
              (.ok .halts, call.machine.halted, call.world) := by
            simp [result, Machine.step, asks]
          apply Comes.halts (congrArg Prod.fst same)
          rw [next, same]
          rfl

/-- After its end a machine does nothing, and nothing is done to its
surroundings. -/
theorem ended (terminal : call.machine.status.isTerminal = true) :
    call.result = (.error .notRunning, call.machine, call.world) := by
  have refused : call.machine.request = .error .notRunning := by
    rw [Machine.request, if_pos terminal]
  simp [result, Machine.step, refused, Machine.failed, terminal]

/-- Before the end of the machine the status tells what the call came to. -/
theorem Comes.status_iff (comes : call.Comes)
    (running : call.machine.status.isTerminal = false) :
    (call.next.status = .halted ↔ call.Halts) ∧
      (call.next.status = .faulted ↔ call.Fails) ∧
      (call.next.status = .awaitingInput ↔ call.Suspends) ∧
      (call.next.status = .running ↔ call.Proceeds) := by
  cases comes with
  | halts halts status =>
      simp_all [Halts, Fails, Suspends, Proceeds]
  | proceeds proceeds status =>
      simp_all [Halts, Fails, Suspends, Proceeds]
  | suspends suspends status =>
      simp_all [Halts, Fails, Suspends, Proceeds]
  | fails fails status =>
      obtain ⟨_, supplied, failure, answer⟩ := fails
      simp_all [Halts, Fails, Suspends, Proceeds]

/-- A machine whose output is refused as if it were an input seems to wait. -/
theorem status_of_isRefused (refused : call.IsRefused .inputExhausted) :
    call.next.status = .awaitingInput := by
  obtain ⟨value, asks, puts⟩ := refused
  have running := (Machine.effect_of_request asks).1
  rcases outcome : call.surroundings.put value call.world with ⟨answer, left⟩
  rw [outcome] at puts
  obtain rfl : answer = .error .inputExhausted := puts
  have same : call.result =
      (.error .inputExhausted, call.machine.failed .inputExhausted, left) := by
    simp [result, Machine.step, asks, outcome]
  rw [next, same]
  exact congrArg Machine.status (Machine.failed_inputExhausted running)

theorem IsRefused.fails (refused : call.IsRefused failure) : call.Fails := by
  obtain ⟨value, asks, puts⟩ := refused
  refine ⟨(Machine.effect_of_request asks).1, ?_, failure, ?_⟩
  · apply not_runsDry
    simp [asks]
  · rcases outcome : call.surroundings.put value call.world with ⟨answer, left⟩
    rw [outcome] at puts
    obtain rfl : answer = .error failure := puts
    simp [answer, result, Machine.step, asks, outcome]

theorem status_next_iff (poised : call.machine.IsPoised)
    (distinct : ¬call.IsRefused .inputExhausted) :
    (call.next.status = .halted ↔
        call.machine.status = .halted ∨ call.Halts) ∧
      (call.next.status = .faulted ↔
        call.machine.status = .faulted ∨ call.Fails) ∧
      (call.next.status = .awaitingInput ↔ call.Suspends) := by
  cases terminal : call.machine.status.isTerminal with
  | true =>
      have ended := call.ended terminal
      have awake : call.machine.status ≠ .awaitingInput := by
        intro awaiting
        rw [awaiting] at terminal
        cases terminal
      simp [next, Halts, Fails, Suspends, answer, ended, terminal, awake]
  | false =>
      have comes := call.comes terminal poised distinct
      obtain ⟨halts, fails, suspends, _⟩ := comes.status_iff terminal
      have unhalted : call.machine.status ≠ .halted := by
        intro halted
        rw [halted] at terminal
        cases terminal
      have unfailed : call.machine.status ≠ .faulted := by
        intro faulted
        rw [faulted] at terminal
        cases terminal
      exact ⟨by simp [halts, unhalted], by simp [fails, unfailed], suspends⟩

theorem isPoised_next (poised : call.machine.IsPoised)
    (distinct : ¬call.IsRefused .inputExhausted) : call.next.IsPoised := by
  cases terminal : call.machine.status.isTerminal with
  | true =>
      rw [next, call.ended terminal]
      exact poised
  | false =>
      intro awaiting
      cases call.comes terminal poised distinct with
      | suspends _ _ asks => exact ⟨_, asks⟩
      | halts _ status | proceeds _ status | fails _ status =>
          rw [status] at awaiting
          cases awaiting

theorem isSound (poised : call.machine.IsPoised)
    (distinct : ¬call.IsRefused .inputExhausted) : call.IsSound := by
  refine ⟨?_, ?_, call.ended⟩
  · intro failure refused
    have fails := refused.fails
    have comes := call.comes fails.1 poised distinct
    exact (comes.status_iff fails.1).2.1.mpr fails
  · intro proceeds
    cases terminal : call.machine.status.isTerminal with
    | true =>
        rw [Proceeds, answer, call.ended terminal] at proceeds
        cases proceeds
    | false =>
        have comes := call.comes terminal poised distinct
        exact (comes.status_iff terminal).2.2.2.mpr proceeds

end Call

namespace Machine

variable {σ : Type} {first machine : Machine} {occasions : List (Occasion σ)}
  {occasion : Occasion σ} {call : Call σ}

/-! ## Histories -/

private theorem statusTells_of_iff
    (halted : (first.stepped occasions).status = .halted ↔
      ∃ call ∈ first.calls occasions, call.Halts)
    (faulted : (first.stepped occasions).status = .faulted ↔
      ∃ call ∈ first.calls occasions, call.Fails)
    (awaiting : (first.stepped occasions).status = .awaitingInput ↔
      ∃ call ∈ (first.calls occasions).getLast?, call.Suspends)
    (poised : (first.stepped occasions).IsPoised)
    (sound : ∀ call ∈ first.calls occasions, call.IsSound) :
    first.StatusTells occasions := by
  refine ⟨halted, faulted, awaiting, ?_, ?_, sound⟩
  · rw [← halted, ← faulted, ← awaiting]
    cases (first.stepped occasions).status <;> simp
  · intro waits
    obtain ⟨target, asks⟩ := poised waits
    exact isAtInput_of_request asks

/-- One more step, on an occasion where no output is refused as if it were an
input. -/
theorem StatusTells.concat (tells : first.StatusTells occasions)
    (poised : (first.stepped occasions).IsPoised)
    (same : call = { occasion with machine := first.stepped occasions })
    (distinct : ¬call.IsRefused .inputExhausted) :
    first.StatusTells (occasions ++ [occasion]) ∧ call.next.IsPoised := by
  have calls_eq : first.calls (occasions ++ [occasion]) =
      first.calls occasions ++ [call] := by
    rw [calls_concat, same]
  have stepped_eq : first.stepped (occasions ++ [occasion]) = call.next := by
    rw [stepped_concat, same]
  have found : call.machine = first.stepped occasions := by
    rw [same]
  rw [← found] at poised
  have sound := call.isSound poised distinct
  have still := call.isPoised_next poised distinct
  obtain ⟨halted, faulted, awaiting⟩ := call.status_next_iff poised distinct
  rw [found, tells.halted] at halted
  rw [found, tells.faulted] at faulted
  refine ⟨?_, still⟩
  apply statusTells_of_iff
  · rw [stepped_eq, calls_eq, halted]
    simp [or_and_right, exists_or]
  · rw [stepped_eq, calls_eq, faulted]
    simp [or_and_right, exists_or]
  · rw [stepped_eq, calls_eq, awaiting]
    simp
  · rwa [stepped_eq]
  · rw [calls_eq]
    intro other member
    rcases List.mem_append.mp member with earlier | last
    · exact tells.sound other earlier
    · rw [List.mem_singleton.mp last]
      exact sound

theorem statusTells_of_distinct (program : Program) (limits : Limits)
    (occasions : List (Occasion σ))
    (distinct : ∀ call ∈ (start program limits).calls occasions,
      ¬call.IsRefused .inputExhausted) :
    (start program limits).StatusTells occasions ∧
      ((start program limits).stepped occasions).IsPoised := by
  induction occasions using List.reverseRec with
  | nil =>
      refine ⟨?_, nofun⟩
      constructor <;> simp [stepped, calls, start]
  | append_singleton earlier occasion induction =>
      have calls_eq := (start program limits).calls_concat earlier occasion
      have before : ∀ call ∈ (start program limits).calls earlier,
          ¬call.IsRefused .inputExhausted := by
        intro call member
        apply distinct
        rw [calls_eq]
        exact List.mem_append_left _ member
      obtain ⟨tells, poised⟩ := induction before
      have last := distinct _ (by rw [calls_eq]; exact List.mem_concat_self)
      obtain ⟨tells, poised⟩ := tells.concat poised rfl last
      refine ⟨tells, ?_⟩
      rw [stepped_concat]
      exact poised

/-- The status tells what the steps came to, unless an output is refused as if
it were an input. -/
theorem statusTells_iff (program : Program) (limits : Limits)
    (occasions : List (Occasion σ)) :
    (start program limits).StatusTells occasions ↔
      ∀ call ∈ (start program limits).calls occasions,
        ¬call.IsRefused .inputExhausted := by
  constructor
  · intro tells call member refused
    have faulted := (tells.sound call member).refused _ refused
    rw [call.status_of_isRefused refused] at faulted
    cases faulted
  · intro distinct
    exact (statusTells_of_distinct program limits occasions distinct).1

/-- An occasion without input on which a put has the given result. -/
def without (room : Except Failure Unit) : Occasion Unit where
  surroundings := {
    take := fun _ => (.error .inputExhausted, ())
    put := fun _ _ => (room, ()) }
  world := ()

/-- An output that is refused as if it were an input leaves the machine waiting
for an input that it does not have, and it still seems to wait when the output
has been accepted. -/
theorem not_statusTells_announcing :
    ((start ⟨[104, 7, 99]⟩ {}).calls
        [without (.error .inputExhausted), without (.ok ())]).map
          (fun call => (call.answer.toOption, call.next.ip, call.next.status)) =
      [(none, 0, .awaitingInput), (some .proceeds, 2, .awaitingInput)] ∧
    ¬(start ⟨[104, 7, 99]⟩ {}).StatusTells
      [without (.error .inputExhausted)] ∧
    ¬(start ⟨[104, 7, 99]⟩ {}).StatusTells
      [without (.error .inputExhausted), without (.ok ())] := by
  refine ⟨by decide +kernel, ?_, ?_⟩
  · intro tells
    have waits := tells.awaiting.mp (by decide +kernel)
    obtain ⟨call, last, _, ⟨target, asks⟩, _⟩ := waits
    obtain rfl := Option.mem_some.mp last
    have puts : (start ⟨[104, 7, 99]⟩ {}).request = .ok (.output 7) := by
      decide +kernel
    cases puts.symm.trans asks
  · intro tells
    have waits := tells.awaiting.mp (by decide +kernel)
    obtain ⟨call, last, suspends, _⟩ := waits
    obtain rfl := Option.mem_some.mp last
    exact absurd suspends (by decide +kernel)

end Machine

end CellMachines
