import CellMachines.Proofs.Executor.Bench

/-!
# Executors agree with plain runs

On the bench an executor does what its machine does when it runs by itself on
the list of inputs.  It ends if and only if that run does, and with the same
result, except that where the run finds its inputs exhausted the executor finds
its input link closed, which is an interruption.  With an unbounded output link
this is so whatever the consumer does, and with a fail-fast link from which
nobody takes, the link is a record that has room for as many words as its
capacity.
-/

namespace CellMachines

/-- The execution of a program whose record of outputs has room for a given
number of them. -/
def Program.executeWithin (program : Program) (room : Option Nat)
    (inputs : List Word) (limits : Limits) (budget : Nat) :
    Option (Except Failure Execution) :=
  (Machine.run Tape.surroundings budget (Machine.start program limits)
    { waiting := inputs, room }).map
    fun (result, machine, tape) =>
      result.map fun () =>
        { outputs := tape.emitted.toList
          memory := machine.memory.cells.toList
          steps := machine.steps }

theorem Program.executeWithin_none (program : Program) :
    program.executeWithin none = program.execute := rfl

/-- For an executor the end of the inputs is an interruption. -/
def interruptedIfDry {α : Type} : Except Failure α → Except Failure α
  | .error .inputExhausted => .error .interrupted
  | other => other

theorem interruptedIfDry_map {α β : Type} (change : α → β)
    (result : Except Failure α) :
    interruptedIfDry (result.map change) =
      (interruptedIfDry result).map change := by
  cases result with
  | ok => rfl
  | error failure => cases failure <;> rfl

/-- What an executor reports of an execution. -/
def Execution.report (execution : Execution) (index : Nat) : Report where
  index
  steps := execution.steps
  emitted := execution.outputs.length
  lastOutput := execution.outputs.getLast?
  memory := execution.memory

/-- A machine has done no more than a run on what it has been given, and more,
that is over. -/
theorem Network.Tallies.steps_le {program : Program} {limits : Limits}
    {ledger : Ledger} {network : Network 1} {inputs : List Word}
    {room : Option Nat} {budget : Nat}
    {ending : Except Failure Unit × Machine × Tape}
    (tallies : network.Tallies (Machine.start program limits) ledger)
    (given : ledger.given <+: inputs)
    (admits : Tape.Admits { waiting := inputs, room }
      (network.executor sole).emitted.toList.length)
    (ran : Machine.run Tape.surroundings budget (Machine.start program limits)
      { waiting := inputs, room } = some ending) :
    (network.executor sole).machine.steps ≤ budget := by
  have within : ∀ {taken : List Word} {machine : Machine},
      (Machine.start program limits).Walk taken
        (network.executor sole).emitted.toList machine →
      taken <+: inputs → machine.steps < budget := by
    intro taken machine walk ⟨rest, whole⟩
    have bound := walk.steps_lt whole.symm admits ran
    simpa [Machine.start] using bound
  have taken := tallies.taken_prefix.trans given
  cases outcome : (network.executor sole).outcome? with
  | none =>
      have walk := tallies.explained.underway outcome
      exact Nat.le_of_lt (within walk taken)
  | some result =>
      cases tallies.cause result outcome with
      | @stopped before ins _ _ walk stops split =>
          have before_taken : before <+: ledger.taken := ⟨ins, split⟩
          have bound := within walk (before_taken.trans taken)
          exact Nat.le_trans stops.steps_le.2 bound
      | starved walk _ failed =>
          have bound := within walk given
          rw [failed, Machine.steps_failed]
          exact Nat.le_of_lt bound
      | overflowed walk _ failed =>
          have bound := within walk taken
          rw [failed, Machine.steps_failed]
          exact Nat.le_of_lt bound

namespace Bench

open Network

/-- The output link takes what a record with the given room takes. -/
inductive Takes (bench : Bench) : Option Nat → Prop where
  | unbounded : bench.outlet.policy = .unbounded → Takes bench none
  | failFast {capacity : Nat} :
      bench.outlet.policy = .failFast capacity → bench.outlet.receivers ≠ 0 →
      bench.ledger.got = [] → Takes bench (some capacity)

variable {program : Program} {limits : Limits} {inputs : List Word}
  {intake policy : Policy} {bench last : Bench} {room : Option Nat}
  {result : Except Failure Unit}

namespace Sound

variable {first : Machine} (sound : Sound first inputs intake policy bench)
include sound

theorem admits (takes : bench.Takes room) :
    Tape.Admits { waiting := inputs, room }
      bench.executor.emitted.toList.length := by
  cases takes with
  | unbounded => exact Tape.admits_of_room rfl _
  | @failFast capacity limited attended untaken =>
      intro limit same
      cases same
      have emitted := sound.tallies.got_append attended
      rw [sound.tallies.sent_eq attended, untaken, List.nil_append] at emitted
      have bound := sound.tallies.fits _ _ _ limited
      rw [Bench.executor, ← emitted, Channel.length_contents]
      simpa using bound

theorem given_prefix : bench.ledger.given <+: inputs :=
  ⟨_, sound.inputs_eq⟩

theorem senders_eq_zero_iff :
    bench.intake.senders = 0 ↔ bench.supplying = false := by
  rw [sound.senders]
  cases bench.supplying <;> simp

theorem given_eq (unsupplied : bench.intake.senders = 0) :
    bench.ledger.given = inputs := by
  have through := sound.senders_eq_zero_iff.mp unsupplied
  have whole := sound.inputs_eq
  rwa [sound.exhausted through, List.append_nil] at whole

end Sound

theorem interruptedIfDry_of_stops {machine last : Machine} {ins : List Word}
    (running : machine.status.isTerminal = false)
    (stops : machine.Stops ins result last) :
    interruptedIfDry result = result := by
  cases result with
  | ok => rfl
  | error failure =>
      have fault := stops.isFault running
      cases failure <;> first | rfl | cases fault

/-- Once the executor is on its way out, the run is over as well. -/
theorem Sound.exists_run
    (sound : Sound (Machine.start program limits) inputs intake policy bench)
    (takes : bench.Takes room)
    (outcome : bench.executor.outcome? = some result) :
    ∃ budget ending machine final,
      Machine.run Tape.surroundings budget (Machine.start program limits)
        { waiting := inputs, room } = some (ending, machine, final) ∧
      final.emitted.toList = bench.executor.emitted.toList ∧
      interruptedIfDry ending = result ∧
      (ending = .ok () → machine = bench.executor.machine) := by
  have admits := sound.admits takes
  cases sound.tallies.cause result outcome with
  | stopped walk stops split =>
      obtain ⟨rest, whole⟩ :=
        sound.tallies.taken_prefix.trans sound.given_prefix
      rw [← split] at whole
      obtain ⟨budget, ran⟩ :=
        walk.exists_run_of_stops stops whole.symm admits
      have running := walk.isTerminal rfl
      refine ⟨budget, _, _, _, ran, ?_, ?_, ?_⟩
      · simp [Bench.executor]
      · exact interruptedIfDry_of_stops running stops
      · exact fun _ => rfl
  | starved walk asks _ unsupplied =>
      have given := sound.given_eq unsupplied
      obtain ⟨budget, ran⟩ :=
        walk.exists_run_of_starves asks given.symm admits
      refine ⟨budget, _, _, _, ran, ?_, rfl, ?_⟩
      · simp [Bench.executor]
      · intro halted
        cases halted
  | overflowed walk asks _ bounded early count =>
      cases takes with
      | unbounded all =>
          rw [Bench.outlet, bounded] at all
          cases all
      | failFast limited _ untaken =>
          rw [Bench.outlet, bounded] at limited
          cases limited
          rw [untaken, List.prefix_nil] at early
          subst early
          obtain ⟨rest, whole⟩ :=
            sound.tallies.taken_prefix.trans sound.given_prefix
          rw [List.length_nil, Nat.zero_add] at count
          subst count
          let tape : Tape := {
            waiting := inputs
            room := some (bench.network.executor sole).emitted.toList.length }
          have full : tape.room = some (tape.emitted.size +
              (bench.network.executor sole).emitted.toList.length) :=
            congrArg some (Nat.zero_add _).symm
          obtain ⟨budget, ran⟩ :=
            walk.exists_run_of_overflows asks whole.symm full
          refine ⟨budget, _, _, _, ran, ?_, ?_, ?_⟩
          · simp [Bench.executor, tape]
          · simp [interruptedIfDry, tape]
          · intro halted
            cases halted

/-! ## Coming to rest -/

theorem isSome_supply (supplying : bench.supplying = true)
    (read : bench.intake.receivers ≠ 0)
    (accepts : bench.intake.policy.hasRoom bench.intake.length = true) :
    bench.supply.isSome = true := by
  rw [supply, if_pos supplying]
  cases bench.pending with
  | nil => rfl
  | cons word pending => simp [Channel.offer, read, accepts]

/-- An executor that cannot act has ended, unless the supplier has words or the
end of the link for it. -/
theorem Sound.hasEnded_of_execute {first : Machine} {heed : Bool}
    (sound : Sound first inputs intake policy bench)
    (takes : bench.Takes room)
    (stuck : bench.step (.execute heed) = none)
    (through : bench.supplying = false ∨
      intake.hasRoom 0 = true ∧ bench.step .supply = none) :
    bench.executor.hasEnded = true := by
  have stopped := Option.map_eq_none_iff.mp stuck
  cases idle_of_advance stopped with
  | ended ended => exact ended
  | hungry _ atWork empty supplied =>
      exfalso
      rcases through with finished | ⟨accepts, unmoved⟩
      · exact supplied (sound.senders_eq_zero_iff.mpr finished)
      · have read : bench.intake.receivers ≠ 0 := by
          intro unread
          have going := Executor.hasEnded_of_outcome? atWork
          rw [sound.tallies.reading unread] at going
          cases going
        have length : bench.intake.length = 0 := by
          rw [← Channel.length_contents, Bench.intake, empty, List.length_nil]
        have supplying : bench.supplying = true := by
          simpa using mt sound.senders_eq_zero_iff.mpr supplied
        rw [← sound.intake_policy, ← length] at accepts
        have moves := isSome_supply supplying read accepts
        rw [show bench.supply = none from unmoved] at moves
        cases moves
  | stuffed _ _ _ _ cancellable =>
      rw [sound.tallies.chain] at cancellable
      cases takes with
      | unbounded all =>
          rw [Bench.outlet] at all
          rw [all] at cancellable
          cases cancellable
      | failFast limited =>
          rw [Bench.outlet] at limited
          rw [limited] at cancellable
          cases cancellable

/-! ## Agreement -/

/-- The executor does what a run of its program does. -/
structure Agrees (run : Nat → Option (Except Failure Execution)) (index : Nat)
    (moves : List Move) (bench : Bench) : Prop where
  /-- What the executor ends with, the run ends with. -/
  ended : ∀ ending, bench.network.report? sole index = some ending →
    ∃ budget outcome, run budget = some outcome ∧
      ending = (interruptedIfDry outcome).map (·.report index) ∧
      ∀ execution, outcome = .ok execution →
        bench.ledger.got <+: bench.ledger.sent ∧
          bench.ledger.sent <+: execution.outputs ∧
          (bench.outlet.receivers ≠ 0 →
            bench.ledger.got ++ bench.outlet.contents = bench.ledger.sent ∧
              bench.ledger.sent = execution.outputs)
  /-- The token tells the failures that are none of the surroundings. -/
  alarm : ∀ ending, bench.network.report? sole index = some ending →
    (bench.network.tripped = true ↔
      ∃ failure, ending = .error failure ∧ failure ≠ .interrupted)
  /-- Where the run ends, the executor acts only so many times. -/
  bounded : ∀ budget outcome, run budget = some outcome →
    moves.countP Move.isExecute ≤ 2 * budget + 5
  /-- Where the run ends, the executor does not come to rest before its end,
  unless it has to wait for the supplier. -/
  rest : ∀ budget outcome heed, run budget = some outcome →
    bench.step (.execute heed) = none →
    bench.supplying = false ∨
      bench.intake.policy.hasRoom 0 = true ∧ bench.step .supply = none →
    bench.network.report? sole index =
      some ((interruptedIfDry outcome).map (·.report index))

theorem report_eq (executor : Executor) (index : Nat) :
    Execution.report
        { outputs := executor.emitted.toList
          memory := executor.machine.memory.cells.toList
          steps := executor.machine.steps } index =
      executor.report index := by
  simp [Execution.report, Executor.report]

/-- An executor that has ended reports what a run of its machine gives. -/
theorem Sound.exists_execution
    (sound : Sound (Machine.start program limits) inputs intake policy bench)
    (takes : bench.Takes room) (index : Nat)
    (ended : bench.executor.result? = some result) :
    ∃ budget outcome,
      program.executeWithin room inputs limits budget = some outcome ∧
      bench.network.report? sole index =
        some ((interruptedIfDry outcome).map (·.report index)) ∧
      ∀ execution, outcome = .ok execution →
        execution.outputs = bench.executor.emitted.toList := by
  have outcome := Executor.outcome?_of_result? ended
  obtain ⟨budget, ending, machine, final, ran, emitted, rfl, same⟩ :=
    sound.exists_run takes outcome
  refine ⟨budget, _, by rw [Program.executeWithin, ran]; rfl, ?_, ?_⟩
  · have reported : bench.network.report? sole index =
        some ((interruptedIfDry ending).map fun () =>
          bench.executor.report index) := by
      rw [Network.report?]
      rw [Bench.executor] at ended ⊢
      rw [ended]
      rfl
    rw [reported, interruptedIfDry_map]
    cases ending with
    | ok =>
        rw [← report_eq, ← emitted, ← same rfl]
        rfl
    | error failure => cases failure <;> rfl
  · intro execution finished
    cases ending with
    | ok =>
        cases finished
        exact emitted
    | error => cases finished

theorem Sound.agrees {moves : List Move}
    (sound : Sound (Machine.start program limits) inputs intake policy bench)
    (takes : bench.Takes room) (index : Nat)
    (followed : follow moves (start program limits inputs intake policy) =
      some bench) :
    Agrees (program.executeWithin room inputs limits) index moves bench where
  ended ending reported := by
    obtain ⟨result, ended, _⟩ := Option.map_eq_some_iff.mp reported
    obtain ⟨budget, outcome, ran, report, outputs⟩ :=
      sound.exists_execution takes index ended
    rw [reported] at report
    refine ⟨budget, outcome, ran, Option.some.inj report, ?_⟩
    intro execution finished
    rw [outputs execution finished]
    refine ⟨sound.tallies.got_prefix, sound.tallies.sent_prefix, ?_⟩
    intro attended
    exact ⟨sound.tallies.got_append attended, sound.tallies.sent_eq attended⟩
  alarm ending reported := by
    obtain ⟨result, ended, rfl⟩ := Option.map_eq_some_iff.mp reported
    rw [sound.alarm]
    apply (Executor.hasAlarmed_iff_of_result? ended).trans
    cases result <;> simp [Except.map]
  bounded budget outcome executed := by
    obtain ⟨ending, ran, _⟩ := Option.map_eq_some_iff.mp executed
    have steps : bench.executor.machine.steps ≤ budget :=
      sound.tallies.steps_le sound.given_prefix (sound.admits takes) ran
    have aged := bench.executor.age_le
    have counted := countP_isExecute_le followed
    omega
  rest budget outcome heed executed stuck through := by
    rw [sound.intake_policy] at through
    have ended := sound.hasEnded_of_execute takes stuck through
    obtain ⟨result, ended⟩ := Option.isSome_iff_exists.mp ended
    obtain ⟨other, otherOutcome, ran, report, _⟩ :=
      sound.exists_execution takes index ended
    obtain ⟨left, leftRan, rfl⟩ := Option.map_eq_some_iff.mp ran
    obtain ⟨right, rightRan, rfl⟩ := Option.map_eq_some_iff.mp executed
    rw [Machine.run_unique rightRan leftRan]
    exact report

theorem Takes.change {capacity : Nat} {move : Move}
    (takes : bench.Takes (some capacity)) (idle : move.isConsumer = false)
    (change : bench.Change move last) : last.Takes (some capacity) := by
  have elsewhere : outputLink .chain sole ≠ inputLink sole := by decide
  cases takes with
  | failFast limited attended untaken =>
      cases change with
      | @execute heed network advances =>
          obtain ⟨dealing, between, _, deals, same⟩ :=
            Advances.exists_turn ⟨heed, advances⟩
          rw [same]
          have kept : (between.link (outputLink .chain sole)).receivers =
              bench.outlet.receivers := deals.receivers_last
          apply Takes.failFast
          · exact (deals.policy_eq _).trans limited
          · exact fun gone => attended (kept.symm.trans gone)
          · exact untaken
      | supply | finish =>
          apply Takes.failFast
          · simpa [Bench.outlet, elsewhere] using limited
          · simpa [Bench.outlet, elsewhere] using attended
          · exact untaken
      | consume | abandon => cases idle

/-- As long as the consumer does nothing, a fail-fast link is a record of
limited room. -/
theorem takes_of_follow {capacity : Nat} {moves : List Move}
    (unattended : ∀ move ∈ moves, move.isConsumer = false)
    (followed : follow moves
      (start program limits inputs intake (.failFast capacity)) = some bench) :
    bench.Takes (some capacity) := by
  apply follow_keeps ?_ ?_ followed
  · intro bench takes move member after change
    exact takes.change (unattended move member) change
  · exact .failFast rfl Nat.one_ne_zero rfl

/-- An executor agrees with the plain run of its program on the inputs of its
supplier, whatever the three on the bench do in whatever order: over an
unbounded link with the run that takes all outputs, however much the consumer
takes and whenever it leaves, and over a fail-fast link from which nobody takes
with the run whose record has room for the capacity. -/
theorem agrees_of_follow {moves : List Move} (index : Nat)
    (followed : follow moves (start program limits inputs intake policy) =
      some bench) :
    (policy = .unbounded →
      Agrees (program.execute inputs limits) index moves bench) ∧
    ∀ capacity, policy = .failFast capacity →
      (∀ move ∈ moves, move.isConsumer = false) →
      Agrees (program.executeWithin (some capacity) inputs limits) index moves
        bench := by
  have sound := sound_of_follow followed
  constructor
  · rintro rfl
    rw [← Program.executeWithin_none]
    exact sound.agrees (.unbounded sound.outlet_policy) index followed
  · rintro capacity rfl unattended
    have takes := takes_of_follow unattended followed
    exact sound.agrees takes index followed

/-- A program that puts out its only input twice. -/
def repeating : Program :=
  ⟨[3, 9, 4, 9, 4, 9, 99]⟩

/-- The consumer takes the first word and leaves before the second one; or it
does nothing, and there is room for one word only. -/
theorem agrees_of_follow_repeating :
    (∃ (bench : Bench) (budget : Nat) (execution : Execution),
      bench.network.report? sole 0 = some (.ok (execution.report 0)) ∧
        repeating.execute [6] {} budget = some (.ok execution) ∧
        bench.ledger.got = [6] ∧ bench.ledger.sent <+: execution.outputs) ∧
    ∃ (bench : Bench) (budget : Nat),
      bench.network.report? sole 0 = some (.error (.channelOverflow 1)) ∧
        repeating.executeWithin (some 1) [6] {} budget =
          some (.error (.channelOverflow 1)) := by
  constructor
  · let moves : List Move :=
      .supply :: List.replicate 4 (.execute false) ++
        [.consume, .abandon, .supply] ++ List.replicate 6 (.execute false)
    have checks : (follow moves
        (start repeating {} [6] .unbounded .unbounded)).any (fun bench =>
          (bench.network.report? sole 0).any Except.isOk &&
            bench.ledger.got = [6]) = true := by
      decide +kernel
    obtain ⟨bench, followed, checks⟩ := (Option.any_eq_true _ _).mp checks
    simp only [Bool.and_eq_true, decide_eq_true_eq] at checks
    obtain ⟨ended, got⟩ := checks
    obtain ⟨ending, reported, halted⟩ := (Option.any_eq_true _ _).mp ended
    have agrees := (agrees_of_follow 0 followed).1 rfl
    obtain ⟨budget, outcome, ran, rfl, outputs⟩ := agrees.ended ending reported
    cases outcome with
    | ok execution =>
        obtain ⟨_, delivered, _⟩ := outputs execution rfl
        exact ⟨bench, budget, execution, reported, ran, got, delivered⟩
    | error failure => cases failure <;> cases halted
  · let moves : List Move :=
      [.supply, .supply] ++ List.replicate 9 (.execute false)
    have checks : (follow moves
        (start repeating {} [6] .unbounded (.failFast 1))).any (fun bench =>
          bench.network.report? sole 0 =
            some (.error (.channelOverflow 1))) = true := by
      decide +kernel
    obtain ⟨bench, followed, checks⟩ := (Option.any_eq_true _ _).mp checks
    have reported := of_decide_eq_true checks
    have agrees := (agrees_of_follow 0 followed).2 1 rfl (by decide)
    obtain ⟨budget, outcome, ran, report, _⟩ := agrees.ended _ reported
    cases outcome with
    | ok execution => cases report
    | error failure =>
        cases failure <;> cases report
        exact ⟨bench, budget, reported, ran⟩

end Bench

end CellMachines
