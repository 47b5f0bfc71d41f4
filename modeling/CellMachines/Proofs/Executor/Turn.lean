import CellMachines.Executor
import CellMachines.Proofs.Machine.Conclusion

/-!
# Turns of an executor

An action of an executor has two sides: what it deals with the outside, and how
the executor goes on from there.  `Turn` relates the two for every kind of
action.  An executor is explained by the words it has taken (`Explained`): as
long as it is at work, its machine stands at the end of a walk that took these
words and put out what the executor has emitted, and once it is on its way out,
that walk is over for the reason the executor gives.
-/

namespace CellMachines

/-- What an action of an executor deals with the outside. -/
inductive Dealing where
  | quiet
  | receives (word : Word)
  /-- A take came to nothing. -/
  | starves
  | sends (word : Word)
  /-- A word that nobody is left to receive went out. -/
  | discards (word : Word)
  /-- A put came to nothing. -/
  | fails (error : ChannelError)
  | trips
  | closesOutput
  | closesInput

namespace Dealing

def received : Dealing → List Word
  | .receives word => [word]
  | _ => []

/-- The words that go out in a dealing, whether they reach anybody or not. -/
def emitted : Dealing → List Word
  | .sends word | .discards word => [word]
  | _ => []

end Dealing

namespace Executor

/-- How the executor is about to end, or has ended, if it is on its way out. -/
def outcome? (executor : Executor) : Option (Except Failure Unit) :=
  match executor.activity with
  | .checking | .executing => none
  | .failing failure => some (.error failure)
  | .closing result | .parting result | .ended result => some result

/-- Whether the executor still has its end of the link it writes. -/
def holdsOutput (executor : Executor) : Bool :=
  match executor.activity with
  | .parting _ | .ended _ => false
  | _ => true

theorem outcome?_of_result? {executor : Executor} {result : Except Failure Unit}
    (ended : executor.result? = some result) :
    executor.outcome? = some result := by
  unfold result? at ended
  unfold outcome?
  split at ended
  · rename_i activity
    rw [activity]
    exact ended
  · cases ended

theorem holdsOutput_of_hasEnded {executor : Executor}
    (ended : executor.hasEnded = true) : executor.holdsOutput = false := by
  unfold hasEnded result? at ended
  unfold holdsOutput
  split at ended
  · rename_i activity
    rw [activity]
  · cases ended

theorem outcome?_of_not_holdsOutput {executor : Executor}
    (gone : executor.holdsOutput = false) :
    ∃ result, executor.outcome? = some result := by
  unfold holdsOutput at gone
  unfold outcome?
  cases activity : executor.activity <;> simp_all

theorem hasEnded_of_outcome? {executor : Executor}
    (atWork : executor.outcome? = none) : executor.hasEnded = false := by
  cases ended : executor.hasEnded with
  | false => rfl
  | true =>
      have gone := holdsOutput_of_hasEnded ended
      obtain ⟨result, outcome⟩ := outcome?_of_not_holdsOutput gone
      rw [atWork] at outcome
      cases outcome

def leaving (result : Except Failure Unit) : Activity :=
  match result with
  | .ok () => .closing (.ok ())
  | .error .interrupted => .closing (.error .interrupted)
  | .error failure => .failing failure

theorem leaving_cases (result : Except Failure Unit) :
    leaving result = .closing result ∨
      ∃ failure,
        result = .error failure ∧ leaving result = .failing failure := by
  rcases result with failure | ⟨⟩
  · by_cases interrupted : failure = .interrupted
    · subst interrupted
      exact .inl rfl
    · refine .inr ⟨failure, rfl, ?_⟩
      cases failure <;> first | rfl | exact absurd rfl interrupted
  · exact .inl rfl

theorem leaving_ne_failing (result : Except Failure Unit) :
    leaving result ≠ .failing .interrupted := by
  rcases leaving_cases result with left | ⟨failure, rfl, left⟩
  · simp [left]
  · intro interrupted
    rw [left, Activity.failing.injEq] at interrupted
    subst interrupted
    cases left

@[simp] theorem outcome?_leaving (executor : Executor) (machine : Machine)
    (result : Except Failure Unit) :
    outcome? { executor with machine, activity := leaving result } =
      some result := by
  rcases leaving_cases result with left | ⟨_, rfl, left⟩ <;>
    simp [outcome?, left]

@[simp] theorem holdsOutput_leaving (executor : Executor) (machine : Machine)
    (result : Except Failure Unit) :
    holdsOutput { executor with machine, activity := leaving result } =
      true := by
  rcases leaving_cases result with left | ⟨_, _, left⟩ <;>
    simp [holdsOutput, left]

@[simp] theorem hasEnded_leaving (executor : Executor) (machine : Machine)
    (result : Except Failure Unit) :
    hasEnded { executor with machine, activity := leaving result } =
      false := by
  rcases leaving_cases result with left | ⟨_, _, left⟩ <;>
    simp [hasEnded, result?, left]

/-- What makes an executor that is at work end with the given result, by what it
deals with the outside then. -/
inductive Leaves (executor : Executor) (tripped : Bool)
    (result : Except Failure Unit) : Dealing → Prop where
  | cancelled :
      tripped = true → result = .error .interrupted →
      Leaves executor tripped result .quiet
  | stopped {dealing : Dealing} {ins : List Word} {last : Machine} :
      executor.machine.Stops ins result last →
      Leaves executor tripped result dealing
  | starved {target : Nat} :
      executor.machine.request = .ok (.input target) →
      result = .error .interrupted → Leaves executor tripped result .starves
  | failed {error : ChannelError} :
      result = .error error.failure →
      Leaves executor tripped result (.fails error)

/-- The actions of an executor, with what they deal with the outside. -/
inductive Turn (executor : Executor) (tripped : Bool) :
    Dealing → Executor → Prop where
  | look :
      executor.activity = .checking →
      Turn executor tripped .quiet (executor.looked tripped)
  | complete {next : Machine} :
      executor.activity = .executing → executor.machine.Completes [] [] next →
      Turn executor tripped .quiet
        { executor with machine := next, activity := .checking }
  | stop {result : Except Failure Unit} {last : Machine} :
      executor.activity = .executing → executor.machine.Stops [] result last →
      Turn executor tripped .quiet
        { executor with machine := last, activity := leaving result }
  | receive {word : Word} {next : Machine} :
      executor.activity = .executing →
      executor.machine.Completes [word] [] next →
      Turn executor tripped (.receives word)
        { executor with machine := next, activity := .checking }
  | spoil {word : Word} {result : Except Failure Unit} {last : Machine} :
      executor.activity = .executing →
      executor.machine.Stops [word] result last →
      Turn executor tripped (.receives word)
        { executor with machine := last, activity := leaving result }
  | starve {target : Nat} :
      executor.activity = .executing →
      executor.machine.request = .ok (.input target) →
      Turn executor tripped .starves
        { executor with
          machine := executor.machine.failed .interrupted
          activity := .closing (.error .interrupted) }
  | send {word : Word} {next : Machine} :
      executor.activity = .executing →
      executor.machine.Completes [] [word] next →
      Turn executor tripped (.sends word)
        { machine := next
          emitted := executor.emitted.push word
          activity := .checking }
  | discard {word : Word} {next : Machine} :
      executor.activity = .executing →
      executor.machine.Completes [] [word] next →
      Turn executor tripped (.discards word)
        { machine := next
          emitted := executor.emitted.push word
          activity := .checking }
  | fail {word : Word} {error : ChannelError} :
      executor.activity = .executing →
      executor.machine.request = .ok (.output word) →
      Turn executor tripped (.fails error)
        { executor with
          machine := executor.machine.failed error.failure
          activity := leaving (.error error.failure) }
  | trip {failure : Failure} :
      executor.activity = .failing failure →
      Turn executor tripped .trips
        { executor with activity := .closing (.error failure) }
  | closeOutput {result : Except Failure Unit} :
      executor.activity = .closing result →
      Turn executor tripped .closesOutput
        { executor with activity := .parting result }
  | closeInput {result : Except Failure Unit} :
      executor.activity = .parting result →
      Turn executor tripped .closesInput
        { executor with activity := .ended result }

variable {executor next : Executor} {tripped : Bool} {dealing : Dealing}

/-! ## The executable actions -/

theorem activity_of_intent (executor : Executor) :
    match executor.intent with
    | .look => executor.activity = .checking
    | .work => executor.activity = .executing
    | .take => executor.activity = .executing ∧
        ∃ target, executor.machine.request = .ok (.input target)
    | .put word => executor.activity = .executing ∧
        executor.machine.request = .ok (.output word)
    | .trip => ∃ failure, executor.activity = .failing failure
    | .dropOutput => ∃ result, executor.activity = .closing result
    | .dropInput => ∃ result, executor.activity = .parting result
    | .rest => ∃ result, executor.activity = .ended result := by
  unfold intent
  cases activity : executor.activity with
  | executing =>
      cases asks : executor.machine.request with
      | error failure => rfl
      | ok effect => cases effect <;> simp
  | checking => rfl
  | failing failure => exact ⟨failure, rfl⟩
  | closing result | parting result | ended result => exact ⟨result, rfl⟩

theorem turn_worked (busy : executor.activity = .executing)
    (works : executor.intent = .work) :
    executor.Turn tripped .quiet executor.worked := by
  simp only [intent, busy] at works
  cases asks : executor.machine.request with
  | error failure =>
      have turn : executor.Turn tripped .quiet _ := .stop busy (.refuse asks)
      cases failure <;>
        simpa [worked, execute, Machine.step, asks, leaving] using turn
  | ok effect =>
      cases effect with
      | store target value =>
          cases refused : executor.machine.storeFailure? target with
          | none =>
              have turn : executor.Turn tripped .quiet _ :=
                .complete busy (.store asks refused)
              simpa [worked, execute, Machine.step, asks, Machine.settle,
                refused] using turn
          | some failure =>
              have turn : executor.Turn tripped .quiet _ :=
                .stop busy (.unstored asks refused)
              cases failure <;>
                simpa [worked, execute, Machine.step, asks, Machine.settle,
                  refused, leaving] using turn
      | jump target =>
          have turn : executor.Turn tripped .quiet _ :=
            .complete busy (.jump asks)
          simpa [worked, execute, Machine.step, asks] using turn
      | rebase base =>
          have turn : executor.Turn tripped .quiet _ :=
            .complete busy (.rebase asks)
          simpa [worked, execute, Machine.step, asks] using turn
      | halt =>
          have turn : executor.Turn tripped .quiet _ := .stop busy (.halt asks)
          simpa [worked, execute, Machine.step, asks, leaving] using turn
      | input target | output value => simp [asks] at works

private theorem took_ok (executor : Executor) (word : Word) :
    executor.took (.ok word) =
      executor.execute (answering (.ok word) (.error .notRunning)) :=
  rfl

private theorem took_error (executor : Executor) (error : ChannelError) :
    executor.took (.error error) =
      executor.execute
        (answering (.error error.failure) (.error .notRunning)) :=
  rfl

theorem turn_took {target : Nat} {word : Word}
    (busy : executor.activity = .executing)
    (asks : executor.machine.request = .ok (.input target)) :
    executor.Turn tripped (.receives word) (executor.took (.ok word)) := by
  cases refused : executor.machine.storeFailure? target with
  | none =>
      have turn : executor.Turn tripped (.receives word) _ :=
        .receive busy (.input asks refused)
      simpa [took_ok, execute, answering, Machine.step, asks, Machine.settle,
        Machine.storeFailure?_resumed, refused] using turn
  | some failure =>
      have turn : executor.Turn tripped (.receives word) _ :=
        .spoil busy (.lost asks refused)
      cases failure <;>
        simpa [took_ok, execute, answering, Machine.step, asks, Machine.settle,
          Machine.storeFailure?_resumed, refused, leaving] using turn

theorem turn_took_error {target : Nat} {error : ChannelError}
    (busy : executor.activity = .executing)
    (asks : executor.machine.request = .ok (.input target))
    (interrupted : error.failure = .interrupted) :
    executor.Turn tripped .starves (executor.took (.error error)) := by
  have turn : executor.Turn tripped .starves _ := .starve busy asks
  simpa [took_error, execute, answering, Machine.step, asks, interrupted]
    using turn

private theorem execute_sent {word : Word}
    (asks : executor.machine.request = .ok (.output word)) :
    executor.execute (answering (.error .notRunning) (.ok ())) =
      { executor with
        machine := executor.machine.sent
        activity := .checking } := by
  simp [execute, answering, Machine.step, asks]

theorem turn_gave {word : Word} (busy : executor.activity = .executing)
    (asks : executor.machine.request = .ok (.output word)) :
    executor.Turn tripped (.sends word)
      (executor.gave word (.ok ()) tripped) := by
  have turn : executor.Turn tripped (.sends word) _ := .send busy (.output asks)
  simpa [gave, delivery, execute_sent asks] using turn

theorem turn_gave_closed {word : Word} (busy : executor.activity = .executing)
    (asks : executor.machine.request = .ok (.output word))
    (quiet : tripped = false) :
    executor.Turn tripped (.discards word)
      (executor.gave word (.error .closed) tripped) := by
  subst quiet
  have turn : executor.Turn false (.discards word) _ :=
    .discard busy (.output asks)
  simpa [gave, delivery, execute_sent asks] using turn

theorem turn_gave_error {word : Word} {error : ChannelError}
    (busy : executor.activity = .executing)
    (asks : executor.machine.request = .ok (.output word))
    (open_or_tripped : error ≠ .closed ∨ tripped = true) :
    executor.Turn tripped (.fails error)
      (executor.gave word (.error error) tripped) := by
  have turn : executor.Turn tripped (.fails error) _ := .fail busy asks
  have undelivered : delivery (.error error) tripped = .error error := by
    cases error <;> simp_all [delivery]
  cases error <;>
    simpa [gave, undelivered, execute, answering, Machine.step, asks,
      ChannelError.failure, leaving] using turn

/-! ## What a turn leaves alone -/

namespace Turn

theorem not_ended (turn : executor.Turn tripped dealing next) :
    executor.hasEnded = false := by
  cases turn with
  | look standing | complete standing | stop standing | receive standing
  | spoil standing | starve standing | send standing | discard standing
  | fail standing | trip standing | closeOutput standing
  | closeInput standing =>
      simp [hasEnded, result?, standing]

theorem holdsOutput_eq (turn : executor.Turn tripped dealing next)
    (keeps : dealing ≠ .closesOutput) :
    next.holdsOutput = executor.holdsOutput := by
  cases turn with
  | look idle => cases tripped <;> simp [holdsOutput, looked, idle]
  | stop busy | spoil busy | fail busy =>
      rw [holdsOutput_leaving]
      simp [holdsOutput, busy]
  | complete busy | receive busy | starve busy | send busy | discard busy =>
      simp [holdsOutput, busy]
  | trip failing => simp [holdsOutput, failing]
  | closeOutput => exact absurd rfl keeps
  | closeInput parting => simp [holdsOutput, parting]

theorem hasEnded_eq (turn : executor.Turn tripped dealing next)
    (keeps : dealing ≠ .closesInput) : next.hasEnded = executor.hasEnded := by
  cases turn with
  | look idle => cases tripped <;> simp [hasEnded, result?, looked, idle]
  | stop busy | spoil busy | fail busy =>
      rw [hasEnded_leaving]
      simp [hasEnded, result?, busy]
  | complete busy | receive busy | starve busy | send busy | discard busy =>
      simp [hasEnded, result?, busy]
  | trip failing => simp [hasEnded, result?, failing]
  | closeOutput closing => simp [hasEnded, result?, closing]
  | closeInput => exact absurd rfl keeps

theorem emitted_eq (turn : executor.Turn tripped dealing next) :
    next.emitted.toList = executor.emitted.toList ++ dealing.emitted := by
  cases turn with
  | send | discard => simp [Dealing.emitted]
  | _ => simp [Dealing.emitted, looked]

theorem activity_ne_failing (turn : executor.Turn tripped dealing next) :
    next.activity ≠ .failing .interrupted := by
  cases turn with
  | look idle => cases tripped <;> simp [looked]
  | stop | spoil | fail => exact leaving_ne_failing _
  | _ => simp

/-- Whoever is on the way out does not turn back. -/
theorem outcome?_eq_some (turn : executor.Turn tripped dealing next)
    {result : Except Failure Unit} (outcome : executor.outcome? = some result) :
    next.outcome? = some result ∧ next.machine = executor.machine ∧
      dealing.received = [] ∧ dealing.emitted = [] := by
  cases turn with
  | look idle => simp [outcome?, idle] at outcome
  | complete busy | stop busy | receive busy | spoil busy | starve busy
  | send busy | discard busy | fail busy => simp [outcome?, busy] at outcome
  | trip leaving | closeOutput leaving | closeInput leaving =>
      simp only [outcome?, leaving] at outcome
      exact ⟨outcome, rfl, rfl, rfl⟩

theorem outcome?_eq_none (turn : executor.Turn tripped dealing next)
    (atWork : next.outcome? = none) : executor.outcome? = none := by
  cases outcome : executor.outcome? with
  | none => rfl
  | some result =>
      rw [(turn.outcome?_eq_some outcome).1] at atWork
      cases atWork

theorem leaves (turn : executor.Turn tripped dealing next)
    (atWork : executor.outcome? = none) {result : Except Failure Unit}
    (outcome : next.outcome? = some result) :
    executor.Leaves tripped result dealing := by
  cases turn with
  | look =>
      cases tripped with
      | false => simp [outcome?, looked] at outcome
      | true =>
          simp only [outcome?, looked, if_true, Option.some.injEq] at outcome
          exact .cancelled rfl outcome.symm
  | stop _ stops | spoil _ stops =>
      rw [outcome?_leaving, Option.some.injEq] at outcome
      exact .stopped (outcome ▸ stops)
  | starve _ asks =>
      simp only [outcome?, Option.some.injEq] at outcome
      exact .starved asks outcome.symm
  | fail =>
      rw [outcome?_leaving, Option.some.injEq] at outcome
      exact .failed outcome.symm
  | trip leaving | closeOutput leaving | closeInput leaving =>
      simp [outcome?, leaving] at atWork
  | complete | receive | send | discard => simp [outcome?] at outcome

end Turn

/-! ## Accounts -/

/-- What brought an executor to its end: its own machine, or a link that let it
down. -/
inductive Ending (first : Machine) (taken emitted : List Word) :
    Except Failure Unit → Machine → Prop where
  | stopped {before ins : List Word} {machine last : Machine}
      {result : Except Failure Unit} :
      first.Walk before emitted machine → machine.Stops ins result last →
      before ++ ins = taken → Ending first taken emitted result last
  | cut {machine last : Machine} {failure : Failure} :
      first.Walk taken emitted machine →
      (failure = .interrupted ∨
        ∃ capacity, failure = .channelOverflow capacity) →
      Ending first taken emitted (.error failure) last

/-- An executor is explained by the words it has taken. -/
structure Explained (first : Machine) (taken : List Word)
    (executor : Executor) : Prop where
  underway : executor.outcome? = none →
    first.Walk taken executor.emitted.toList executor.machine
  outcome : ∀ result, executor.outcome? = some result →
    Ending first taken executor.emitted.toList result executor.machine

variable {first : Machine} {taken : List Word}

theorem explained_start (program : Program) (limits : Limits) :
    Explained (Machine.start program limits) [] (start program limits) where
  underway _ := .refl
  outcome _ outcome := by simp [outcome?, start] at outcome

private theorem explained_underway {machine : Machine} {emitted : Array Word}
    (walk : first.Walk taken emitted.toList machine) :
    Explained first taken { machine, emitted, activity := .checking } where
  underway _ := walk
  outcome _ outcome := by simp [outcome?] at outcome

private theorem explained_leaving {machine : Machine}
    {result : Except Failure Unit}
    (ending : Ending first taken executor.emitted.toList result machine) :
    Explained first taken
      { executor with machine, activity := leaving result } where
  underway atWork := by simp at atWork
  outcome other outcome := by
    rw [outcome?_leaving, Option.some.injEq] at outcome
    exact outcome ▸ ending

theorem Turn.explained (turn : executor.Turn tripped dealing next)
    (explained : Explained first taken executor) :
    Explained first (taken ++ dealing.received) next := by
  cases outcome : executor.outcome? with
  | some result =>
      obtain ⟨stays, sameMachine, nothingIn, nothingOut⟩ :=
        turn.outcome?_eq_some outcome
      have sameEmitted := turn.emitted_eq
      rw [nothingOut, List.append_nil] at sameEmitted
      rw [nothingIn, List.append_nil]
      constructor
      · intro atWork
        simp [stays] at atWork
      · intro other otherOutcome
        rw [sameEmitted, sameMachine]
        apply explained.outcome other
        rw [outcome, ← stays, otherOutcome]
  | none =>
      have walk := explained.underway outcome
      cases turn with
      | look idle =>
          cases tripped with
          | false =>
              constructor
              · intro _atWork
                simpa [looked, Dealing.received] using walk
              · intro _ outcome
                simp [outcome?, looked] at outcome
          | true =>
              have ending : Ending first taken executor.emitted.toList
                  (.error .interrupted) executor.machine :=
                .cut walk (.inl rfl)
              simpa [looked, Dealing.received, leaving]
                using explained_leaving ending
      | complete _ completes | receive _ completes | send _ completes
      | discard _ completes =>
          apply explained_underway
          simpa [Dealing.received] using walk.step completes
      | stop _ stops | spoil _ stops =>
          exact explained_leaving (.stopped walk stops rfl)
      | starve =>
          simpa [Dealing.received, leaving]
            using explained_leaving (.cut walk (.inl rfl))
      | @fail _ error =>
          have cut : error.failure = .interrupted ∨
              ∃ capacity, error.failure = .channelOverflow capacity := by
            cases error <;> simp [ChannelError.failure]
          simpa [Dealing.received] using explained_leaving (.cut walk cut)
      | trip leaving | closeOutput leaving | closeInput leaving =>
          simp [outcome?, leaving] at outcome

end Executor

end CellMachines
