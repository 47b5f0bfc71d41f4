import CellMachines.Proofs.Remote.Progress
import CellMachines.Proofs.Remote.Replay

/-!
# Exchanges and time

An exchange puts all its values before it takes a response, while the executor
goes on in its own time.  All ways to take turns that succeed give the same
responses, and all that fail give the same error.  Whether an exchange succeeds
is a matter of time exactly if the machine ends by itself on a beginning of the
values and has put out enough by then (`EndsEarly`): a client that is quick gets
the responses, and one that is late finds the executor gone and fails.
-/

namespace CellMachines

open Network

/-- A run on fewer values comes to an end of its own, and has put out as many
words as there are responses to wait for. -/
def Program.EndsEarly (program : Program) (limits : Limits)
    (values : List Word) (responses : Nat) : Prop :=
  ∃ front value later steps result machine tape,
    values = front ++ value :: later ∧
    Machine.run Tape.surroundings steps (Machine.start program limits)
        { waiting := front } = some (result, machine, tape) ∧
    result ≠ .error .inputExhausted ∧ responses ≤ tape.emitted.size

namespace Session

variable {session last : Session} {budget responses : Nat}
  {values received : List Word} {program : Program} {limits : Limits}
  {leads : List (List Bool)} {answer : Except RemoteError (List Word)}

/-- Some way to take turns with the executor makes an exchange on a new session
return this answer. -/
def MayAnswer (program : Program) (limits : Limits) (values : List Word)
    (responses : Nat) (answer : Except RemoteError (List Word)) : Prop :=
  ∃ budget leads last,
    (exchange budget values responses).run (start program limits leads) =
      some (answer, last)

/-! ## What an exchange comes to -/

/-- An exchange gets the first outputs of a walk on the values, or the machine
has ended on those that were put: before the last of them, or with too few
outputs. -/
inductive ComesTo (first : Machine) (values : List Word) (responses : Nat) :
    Except RemoteError (List Word) → Prop where
  | replies {taken emitted received : List Word} {machine : Machine} :
      first.Walk taken emitted machine → taken <+: values →
      received <+: emitted → received.length = responses →
      ComesTo first values responses (.ok received)
  | ends {given outputs : List Word} {result : Except Failure Unit}
      {last : Machine} :
      first.Concludes given result last outputs →
      result ≠ .error .inputExhausted → given <+: values →
      (given = values → outputs.length < responses) →
      ComesTo first values responses (.error (.ofEnd result))

theorem given_pushes (values : List Word) :
    (values.map Operation.push).flatMap Operation.given = values := by
  induction values with
  | nil => rfl
  | cons value later induction =>
      rw [List.map_cons, List.flatMap_cons, induction]
      rfl

theorem count_pushes (values : List Word) :
    (values.map Operation.push).count .receive = 0 := by
  apply List.count_eq_zero.mpr
  simp

theorem given_exchange (values : List Word) (responses : Nat) :
    (Request.exchange values responses).operations.flatMap Operation.given =
      values := by
  rw [Request.operations, List.flatMap_append, given_pushes]
  simp [Operation.given]

theorem count_exchange (values : List Word) (responses : Nat) :
    (Request.exchange values responses).operations.count .receive =
      responses := by
  rw [Request.operations, List.count_append, count_pushes,
    List.count_replicate_self, Nat.zero_add]

theorem comesTo_of_run
    (ran : (exchange budget values responses).run
      (start program limits leads) = some (answer, last)) :
    ComesTo (Machine.start program limits) values responses answer := by
  have live := isLive_start program limits leads
  have relays := relays_start program limits leads
  have given := given_exchange values responses
  have count := count_exchange values responses
  have performs : Performs budget (exchange budget values responses)
      (Request.exchange values responses).operations :=
    performs_exchange budget values responses
  generalize (Request.exchange values responses).operations =
    operations at performs given count
  rw [performs] at ran
  obtain ⟨⟨record, final⟩, performed, same⟩ := Option.map_eq_some_iff.mp ran
  cases same
  rcases perform_cases performed with ⟨sound, pushed, length⟩ |
    ⟨before, operation, later, between, error, rfl, earlier, fails, failed⟩
  · obtain ⟨_, relays⟩ := live.perform_ok relays performed sound
    rw [List.nil_append, List.nil_append, pushed, given] at relays
    obtain ⟨taken, machine, walk, within⟩ := relays.exists_walk
    rw [Record.answer, sound]
    exact .replies walk within relays.received_prefix (length.trans count)
  · have put : record.pushed = before.flatMap Operation.given :=
      (perform_sound earlier rfl).1
    have got : record.received.length = before.count .receive :=
      (perform_sound earlier rfl).2
    obtain ⟨live, relays⟩ := live.perform_ok relays earlier rfl
    rw [List.nil_append, List.nil_append] at relays
    obtain ⟨spent, relays, ⟨result, ended, rfl⟩, all⟩ :=
      live.call_error relays fails
    rw [List.flatMap_append, List.flatMap_cons, ← put] at given
    rw [List.count_append, ← got] at count
    have outcome := Executor.outcome?_of_result? ended
    rw [Record.answer, failed]
    apply ComesTo.ends (relays.concludes outcome (spent.own ended))
    · intro dry
      subst dry
      cases relays.isFault rfl outcome (by decide)
    · exact ⟨_, given⟩
    · intro through
      have nothing : operation.given = [] := by
        rw [← through] at given
        have rest := List.append_right_eq_self.mp given
        exact (List.append_eq_nil_iff.mp rest).1
      cases operation with
      | push => cases nothing
      | receive =>
          have drained : record.received = last.executor.emitted.toList :=
            all rfl
          rw [executor] at drained
          rw [← drained, ← count, List.count_cons_self]
          omega

/-! ## The same in all ways to take turns -/

section ComesTo

variable {first : Machine} {error other : RemoteError} {replies : List Word}

theorem ComesTo.ok_unique
    (left : ComesTo first values responses (.ok received))
    (right : ComesTo first values responses (.ok replies)) :
    received = replies := by
  cases left with
  | replies walk within early length =>
      cases right with
      | replies otherWalk otherWithin otherEarly otherLength =>
          have same : received.length = replies.length :=
            length.trans otherLength.symm
          -- both are beginnings of what the longer walk has put out
          rcases walk.compare otherWalk within otherWithin with
            ⟨_, emitted, _, _, rfl⟩ | ⟨_, emitted, _, _, rfl⟩
          · have longer := early.trans (List.prefix_append _ emitted)
            exact (List.prefix_of_prefix_length_le longer otherEarly
              (Nat.le_of_eq same)).eq_of_length same
          · have longer := otherEarly.trans (List.prefix_append _ emitted)
            exact (List.prefix_of_prefix_length_le early longer
              (Nat.le_of_eq same)).eq_of_length same

theorem ComesTo.error_unique
    (left : ComesTo first values responses (.error error))
    (right : ComesTo first values responses (.error other)) :
    error = other := by
  cases left with
  | ends concludes own within =>
      cases right with
      | ends otherConcludes otherOwn otherWithin =>
          have left := concludes.extend own within
          have right := otherConcludes.extend otherOwn otherWithin
          rw [(left.unique right).1]

/-- If an exchange can fail although it can succeed, the machine ends early. -/
theorem ComesTo.endsEarly
    (left : ComesTo (Machine.start program limits) values responses
      (.ok received))
    (right : ComesTo (Machine.start program limits) values responses
      (.error error)) :
    program.EndsEarly limits values responses := by
  cases left with
  | replies walk taken early length =>
      cases right with
      | @ends given _ _ _ concludes own within late =>
          have whole := concludes.extend own within
          have emitted := whole.emitted_prefix_outputs walk taken
          have enough := (early.trans emitted).length_le
          rw [length] at enough
          obtain ⟨rest, rfl⟩ := within
          cases rest with
          | nil =>
              rw [List.append_nil] at late
              exact absurd (late rfl) (Nat.not_lt.mpr enough)
          | cons value later =>
              obtain ⟨steps, tape, ran, rfl⟩ := concludes.exists_run
              exact ⟨given, value, later, steps, _, _, tape, rfl, ran, own,
                by simpa using enough⟩

end ComesTo

/-! ## Quick clients and late ones -/

/-- A client that puts all its values at once. -/
theorem exists_fed {steps : Nat} {result : Except Failure Unit}
    {machine : Machine} {tape : Tape}
    (ran : Machine.run Tape.surroundings steps (Machine.start program limits)
      { waiting := values } = some (result, machine, tape))
    (own : result ≠ .error .inputExhausted) (budget : Nat)
    (leads : List (List Bool)) :
    ∃ record session,
      perform budget (values.map .push)
          (start program limits (List.replicate values.length [] ++ leads)) =
        some (record, session) ∧
      record.error? = none ∧ session.network.IsRead ∧ session.leads = leads ∧
      session.Finishes program limits values [] steps tape.emitted.toList := by
  have live := isLive_start program limits
    (List.replicate values.length [] ++ leads)
  have relays := relays_start program limits
    (List.replicate values.length [] ++ leads)
  obtain ⟨record, session, performed, sound, read, idle⟩ :=
    exists_pushes live rfl rfl rfl
  obtain ⟨put, got⟩ := perform_sound performed sound
  rw [given_pushes] at put
  rw [count_pushes] at got
  obtain ⟨live, relays⟩ := live.perform_ok relays performed sound
  rw [put, List.eq_nil_of_length_eq_zero got] at relays
  exact ⟨record, session, performed, sound, read, idle, live, relays,
    result, machine, tape, ran, own, rfl⟩

theorem mayAnswer_of_perform {record : Record}
    (performed : perform budget (Request.exchange values responses).operations
      (start program limits leads) = some (record, last)) :
    MayAnswer program limits values responses record.answer := by
  refine ⟨budget, leads, last, ?_⟩
  rw [performs_exchange]
  rw [Request.operations] at performed
  rw [performed]
  rfl

theorem exists_ok_of_endsEarly
    (early : program.EndsEarly limits values responses) :
    ∃ replies, MayAnswer program limits values responses (.ok replies) := by
  obtain ⟨front, value, later, _, result, _, tape, split, ran, own, enough⟩ :=
    early
  have within : front <+: values := ⟨_, split.symm⟩
  obtain ⟨steps, whole, ran, emitted⟩ :=
    ((Machine.concludes_of_run ran).extend own within).exists_run
  let budget := 2 * steps + 6
  obtain ⟨record, session, puts, sound, _, _, finishes⟩ :=
    exists_fed ran own budget []
  have left : ([] : List Word).length + responses ≤
      whole.emitted.toList.length := by
    simpa [emitted] using enough
  obtain ⟨replies, last, takes, fine⟩ :=
    finishes.exists_receives left (Nat.le_refl _)
  have answer := mayAnswer_of_perform (perform_append puts sound takes)
  rw [Record.answer, fine] at answer
  exact ⟨_, answer⟩

theorem exists_error_of_endsEarly
    (early : program.EndsEarly limits values responses) :
    ∃ error, MayAnswer program limits values responses (.error error) := by
  obtain ⟨front, value, later, steps, result, _, tape, rfl, ran, own, _⟩ :=
    early
  obtain ⟨record, session, puts, sound, read, late, finishes⟩ :=
    exists_fed ran own 4 [List.replicate (2 * steps + 6) false]
  obtain ⟨error, last, fails⟩ : ∃ error last,
      (push 4 value).run session = some (.error error, last) :=
    finishes.exists_push_error read late (by omega) (Nat.le_refl 4)
  have called : ((Operation.push value).call 4).run session =
      some (.error error, last) := call_push_error.mpr fails
  have refused : perform 4 (.push value :: (later.map .push ++
      List.replicate responses .receive)) session =
      some (⟨[], [], some error⟩, last) := by
    rw [perform, called]
    rfl
  have whole := perform_append puts sound refused
  have same : (Request.exchange (front ++ value :: later)
      responses).operations = front.map .push ++ .push value ::
        (later.map .push ++ List.replicate responses .receive) := by
    simp [Request.operations]
  rw [← same] at whole
  exact ⟨error, mayAnswer_of_perform whole⟩

/-- Two exchanges of the same values that both succeed get the same responses,
and two that both fail fail with the same error, however the client and the
executor take turns.  That all of them have the same answer is so exactly if the
machine does not come to an end of its own on fewer values after it has put out
enough. -/
theorem exchange_determined_iff (program : Program) (limits : Limits)
    (values : List Word) (responses : Nat) :
    (∀ left right, MayAnswer program limits values responses (.ok left) →
      MayAnswer program limits values responses (.ok right) → left = right) ∧
    (∀ left right, MayAnswer program limits values responses (.error left) →
      MayAnswer program limits values responses (.error right) →
      left = right) ∧
    ((∀ answer other, MayAnswer program limits values responses answer →
      MayAnswer program limits values responses other → answer = other) ↔
        ¬program.EndsEarly limits values responses) := by
  have comes : ∀ {answer},
      MayAnswer program limits values responses answer →
      ComesTo (Machine.start program limits) values responses answer :=
    fun ⟨_, _, _, ran⟩ => comesTo_of_run ran
  refine ⟨?_, ?_, ?_, ?_⟩
  · intro left right one another
    exact (comes one).ok_unique (comes another)
  · intro left right one another
    exact (comes one).error_unique (comes another)
  · intro determined early
    obtain ⟨replies, quick⟩ := exists_ok_of_endsEarly early
    obtain ⟨error, late⟩ := exists_error_of_endsEarly early
    cases determined _ _ quick late
  · intro lasting answer other one another
    cases answer with
    | ok received =>
        cases other with
        | ok replies =>
            rw [(comes one).ok_unique (comes another)]
        | error error =>
            exact absurd ((comes one).endsEarly (comes another)) lasting
    | error error =>
        cases other with
        | ok replies =>
            exact absurd ((comes another).endsEarly (comes one)) lasting
        | error other =>
            rw [(comes one).error_unique (comes another)]

/-- A machine that puts out a single word whatever it is given answers for one
response in more than one way, and for two it always fails. -/
theorem exchange_determined_iff_announcing :
    (¬∀ answer other, MayAnswer announcing {} [1] 1 answer →
      MayAnswer announcing {} [1] 1 other → answer = other) ∧
    ∀ answer other, MayAnswer announcing {} [1] 2 answer →
      MayAnswer announcing {} [1] 2 other → answer = other := by
  have goes : (Machine.run Tape.surroundings 2 (Machine.start announcing {})
      { waiting := [] }).map
        (fun ending => (ending.1, ending.2.2.emitted)) =
          some (.ok (), #[7]) := by
    decide +kernel
  obtain ⟨⟨result, machine, tape⟩, ran, same⟩ := Option.map_eq_some_iff.mp goes
  obtain ⟨rfl, emitted⟩ : result = .ok () ∧ tape.emitted = #[7] :=
    Prod.mk.inj same
  constructor
  · intro determined
    apply (exchange_determined_iff announcing {} [1] 1).2.2.mp determined
    refine ⟨[], 1, [], 2, _, machine, tape, rfl, ran, ?_, by simp [emitted]⟩
    intro dry
    cases dry
  · apply (exchange_determined_iff announcing {} [1] 2).2.2.mpr
    rintro ⟨front, value, later, _, _, _, _, split, other, _, enough⟩
    obtain rfl : front = [] := by
      cases front with
      | nil => rfl
      | cons => simp at split
    cases Machine.run_unique ran other
    simp [emitted] at enough

/-- The same exchange succeeds when its value is put before the executor has
halted, and fails when it is put after that. -/
theorem exchange_overtaken :
    MayAnswer announcing {} [1] 1 (.ok [7]) ∧
      MayAnswer announcing {} [1] 1 (.error .stopped) := by
  have quick : ((exchange 8 [1] 1).run (start announcing {} [])).map Prod.fst =
      some (.ok [7]) := by
    rfl
  have late : ((exchange 8 [1] 1).run
      (start announcing {} [List.replicate 8 false])).map Prod.fst =
        some (.error .stopped) := by
    rfl
  obtain ⟨⟨_, quickLast⟩, quickRan, rfl⟩ := Option.map_eq_some_iff.mp quick
  obtain ⟨⟨_, lateLast⟩, lateRan, rfl⟩ := Option.map_eq_some_iff.mp late
  exact ⟨⟨8, _, quickLast, quickRan⟩, 8, _, lateLast, lateRan⟩

end Session

end CellMachines
