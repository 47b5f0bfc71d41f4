import CellMachines.Proofs.Machine.Retracing
import CellMachines.Proofs.Network.Ledger

/-!
# Executors on the bench

On the bench an executor runs alone with two others.  A supplier puts words on
its input link and lets go of that after the last one, and a consumer may take
words from its output link and may let go of that at any moment.  Nobody else
trips the token.  Whatever the three do in whatever order, the ledger accounts
for it (`Sound`); and as every action of the executor lets it grow older
(`age`), there are only so many of them until its machine has done a given
number of instructions.
-/

namespace CellMachines

namespace Executor

variable {executor next : Executor} {tripped : Bool} {dealing : Dealing}

/-! ## Age -/

/-- Twice the instructions of its machine, and how far the executor is with the
one under way or with leaving. -/
def age (executor : Executor) : Nat :=
  2 * executor.machine.steps +
    match executor.activity with
    | .checking => 0
    | .executing => 1
    | .failing _ => 2
    | .closing _ => 3
    | .parting _ => 4
    | .ended _ => 5

theorem age_le (executor : Executor) :
    executor.age ≤ 2 * executor.machine.steps + 5 := by
  unfold age
  split <;> omega

theorem age_of_executing (busy : executor.activity = .executing) :
    executor.age = 2 * executor.machine.steps + 1 := by
  rw [age, busy]

theorem age_leaving (executor : Executor) (machine : Machine)
    (result : Except Failure Unit) :
    2 * machine.steps + 2 ≤
      age { executor with machine, activity := leaving result } := by
  unfold age
  rcases leaving_cases result with left | ⟨_, _, left⟩ <;> simp [left]

theorem Turn.age_lt (turn : executor.Turn tripped dealing next) :
    executor.age < next.age := by
  cases turn with
  | look idle => cases tripped <;> simp [age, looked, idle]
  | complete busy completes | receive busy completes | send busy completes
  | discard busy completes =>
      have counted := completes.steps_eq.1
      rw [age_of_executing busy]
      simp only [age]
      omega
  | @stop result last busy stops | @spoil _ result last busy stops =>
      have counted := stops.steps_le
      have older := executor.age_leaving last result
      rw [age_of_executing busy]
      omega
  | starve busy =>
      rw [age_of_executing busy]
      simp only [age, Machine.steps_failed]
      omega
  | @fail _ error busy =>
      have older := executor.age_leaving
        (executor.machine.failed error.failure) (.error error.failure)
      rw [Machine.steps_failed] at older
      rw [age_of_executing busy]
      omega
  | trip leaving | closeOutput leaving | closeInput leaving =>
      simp [age, leaving]

/-! ## The alarm -/

/-- Whether the executor has tripped the token because its machine failed by
itself. -/
def hasAlarmed (executor : Executor) : Bool :=
  match executor.activity with
  | .closing (.error failure) | .parting (.error failure)
  | .ended (.error failure) => failure ≠ .interrupted
  | _ => false

theorem hasAlarmed_leaving (executor : Executor) (machine : Machine)
    (result : Except Failure Unit) :
    hasAlarmed { executor with machine, activity := leaving result } =
      false := by
  rcases result with failure | ⟨⟩
  · cases failure <;> rfl
  · rfl

theorem Turn.hasAlarmed_eq (turn : executor.Turn tripped dealing next)
    (silent : dealing ≠ .trips) : next.hasAlarmed = executor.hasAlarmed := by
  cases turn with
  | look idle => cases tripped <;> simp [hasAlarmed, looked, idle]
  | stop busy | spoil busy | fail busy =>
      rw [hasAlarmed_leaving]
      simp [hasAlarmed, busy]
  | complete busy | receive busy | starve busy | send busy | discard busy =>
      simp [hasAlarmed, busy]
  | trip => exact absurd rfl silent
  | @closeOutput result leaving | @closeInput result leaving =>
      simp only [hasAlarmed, leaving]
      cases result <;> rfl

theorem Turn.hasAlarmed_of_trips (turn : executor.Turn tripped .trips next)
    (own : executor.activity ≠ .failing .interrupted) :
    next.hasAlarmed = true := by
  cases turn with
  | @trip failure failing =>
      have alarming : failure ≠ .interrupted := by
        intro interrupted
        exact own (interrupted ▸ failing)
      simp [hasAlarmed, alarming]

theorem hasAlarmed_iff_of_result? {result : Except Failure Unit}
    (ended : executor.result? = some result) :
    executor.hasAlarmed = true ↔
      ∃ failure, result = .error failure ∧ failure ≠ .interrupted := by
  unfold result? at ended
  split at ended
  · rename_i activity
    cases ended
    cases result with
    | ok => simp [hasAlarmed, activity]
    | error failure => simp [hasAlarmed, activity]
  · cases ended

end Executor

/-- An executor with its supplier and its consumer. -/
structure Bench where
  network : Network 1
  ledger : Ledger
  /-- The words that the supplier has yet to put on the input link. -/
  pending : List Word
  /-- Whether the supplier still holds its end of the input link. -/
  supplying : Bool

namespace Bench

open Network

/-- An action of one of the three. -/
inductive Move where
  | execute (heed : Bool)
  /-- The supplier puts its next word or, after the last one, lets go. -/
  | supply
  | consume
  /-- The consumer lets go of the output link. -/
  | abandon
  deriving DecidableEq, Repr

def Move.isExecute : Move → Bool
  | .execute _ => true
  | _ => false

def Move.isConsumer : Move → Bool
  | .consume | .abandon => true
  | _ => false

/-- All three are about to begin, with all inputs pending. -/
def start (program : Program) (limits : Limits) (inputs : List Word)
    (intake policy : Policy) : Bench where
  network := {
    topology := .chain
    executors := Vector.replicate 1 (Executor.start program limits)
    links := (Vector.replicate 1 (Channel.create intake 1 1)).push
      (Channel.create policy 1 1)
    tripped := false }
  ledger := .empty
  pending := inputs
  supplying := true

def executor (bench : Bench) : Executor :=
  bench.network.executor sole

def intake (bench : Bench) : Channel :=
  bench.network.link (inputLink sole)

def outlet (bench : Bench) : Channel :=
  bench.network.link (outputLink .chain sole)

/-! ## Moves -/

def execute (bench : Bench) (heed : Bool) : Option Bench :=
  (bench.network.advance sole heed).map fun network =>
    { bench with
      network
      ledger := bench.ledger.after (bench.network.event? sole heed) }

def supply (bench : Bench) : Option Bench :=
  if bench.supplying then
    match bench.pending with
    | [] =>
      some { bench with
        network := bench.network.updateLink (inputLink sole) Channel.dropSender
        supplying := false }
    | word :: pending =>
      match bench.intake.offer word with
      | .done (.ok ()) link =>
        some { bench with
          network := bench.network.updateLink (inputLink sole) fun _ => link
          ledger := bench.ledger.give word
          pending }
      | _ => none
  else none

def consume (bench : Bench) : Option Bench :=
  if bench.outlet.receivers = 0 then none
  else
    match bench.outlet.poll with
    | .done (.ok word) link =>
      some { bench with
        network :=
          bench.network.updateLink (outputLink .chain sole) fun _ => link
        ledger := bench.ledger.get word }
    | _ => none

def abandon (bench : Bench) : Option Bench :=
  if bench.outlet.receivers = 0 then none
  else
    some { bench with
      network := bench.network.updateLink (outputLink .chain sole)
        Channel.dropReceiver }

def step (bench : Bench) : Move → Option Bench
  | .execute heed => bench.execute heed
  | .supply => bench.supply
  | .consume => bench.consume
  | .abandon => bench.abandon

/-- The bench after some moves, if each of them was possible. -/
def follow : List Move → Bench → Option Bench
  | [], bench => some bench
  | move :: later, bench => (bench.step move).bind (follow later)

variable {bench after last : Bench} {heed : Bool} {move : Move}
  {moves : List Move}

/-- What one move can do. -/
inductive Change (bench : Bench) : Move → Bench → Prop where
  | execute {heed : Bool} {network : Network 1} :
      bench.network.advance sole heed = some network →
      Change bench (.execute heed)
        { bench with
          network
          ledger := bench.ledger.after (bench.network.event? sole heed) }
  | supply {word : Word} {pending : List Word} :
      bench.supplying = true → bench.pending = word :: pending →
      bench.intake.policy.hasRoom bench.intake.length = true →
      Change bench .supply
        { bench with
          network := bench.network.updateLink (inputLink sole) fun _ =>
            bench.intake.push word
          ledger := bench.ledger.give word
          pending }
  | finish :
      bench.supplying = true → bench.pending = [] →
      Change bench .supply
        { bench with
          network :=
            bench.network.updateLink (inputLink sole) Channel.dropSender
          supplying := false }
  | consume {word : Word} {rest : Queue Word} :
      bench.outlet.receivers ≠ 0 →
      bench.outlet.buffer.pop? = some (word, rest) →
      Change bench .consume
        { bench with
          network := bench.network.updateLink (outputLink .chain sole) fun _ =>
            { bench.outlet with buffer := rest }
          ledger := bench.ledger.get word }
  | abandon :
      bench.outlet.receivers ≠ 0 →
      Change bench .abandon
        { bench with
          network := bench.network.updateLink (outputLink .chain sole)
            Channel.dropReceiver }

private theorem change_of_supply (stepped : bench.supply = some after) :
    bench.Change .supply after := by
  unfold Bench.supply at stepped
  split at stepped
  · split at stepped
    · cases stepped
      exact .finish ‹_› ‹_›
    · split at stepped
      · cases stepped
        obtain ⟨_, room, rfl⟩ := Channel.offer_ok ‹_›
        exact .supply ‹_› ‹_› room
      · cases stepped
  · cases stepped

private theorem change_of_consume (stepped : bench.consume = some after) :
    bench.Change .consume after := by
  unfold Bench.consume at stepped
  split at stepped
  · cases stepped
  · split at stepped
    · cases stepped
      obtain ⟨rest, popped, rfl⟩ := Channel.poll_ok ‹_›
      exact .consume ‹_› popped
    · cases stepped

theorem change_of_step (stepped : bench.step move = some after) :
    bench.Change move after := by
  cases move with
  | execute heed =>
      obtain ⟨network, advances, rfl⟩ := Option.map_eq_some_iff.mp stepped
      exact .execute advances
  | supply => exact change_of_supply stepped
  | consume => exact change_of_consume stepped
  | abandon =>
      simp only [step, Bench.abandon] at stepped
      split at stepped
      · cases stepped
      · cases stepped
        exact .abandon ‹_›

/-- Whatever every change keeps holds after all moves. -/
theorem follow_keeps {holds : Bench → Prop}
    (keeps : ∀ bench, holds bench → ∀ move ∈ moves, ∀ after,
      bench.Change move after → holds after)
    (before : holds bench) (followed : follow moves bench = some last) :
    holds last := by
  induction moves generalizing bench with
  | nil =>
      cases followed
      exact before
  | cons move later induction =>
      obtain ⟨after, stepped, followed⟩ := Option.bind_eq_some_iff.mp followed
      apply induction ?_ ?_ followed
      · intro bench holds move member
        exact keeps bench holds move (List.mem_cons_of_mem _ member)
      · apply keeps bench before move List.mem_cons_self
        exact change_of_step stepped

/-! ## Accounts -/

/-- The ledger of the bench is in order, and the token is tripped exactly if the
executor has done it. -/
structure Sound (first : Machine) (inputs : List Word) (intake policy : Policy)
    (bench : Bench) : Prop where
  tallies : bench.network.Tallies first bench.ledger
  inputs_eq : bench.ledger.given ++ bench.pending = inputs
  senders : bench.intake.senders = if bench.supplying then 1 else 0
  exhausted : bench.supplying = false → bench.pending = []
  receivers : bench.outlet.receivers ≤ 1
  intake_policy : bench.intake.policy = intake
  outlet_policy : bench.outlet.policy = policy
  alarm : bench.network.tripped = bench.executor.hasAlarmed
  own : bench.executor.activity ≠ .failing .interrupted

variable {first : Machine} {inputs : List Word} {intake policy : Policy}

theorem sound_start (program : Program) (limits : Limits) (inputs : List Word)
    (intake policy : Policy) :
    Sound (Machine.start program limits) inputs intake policy
      (start program limits inputs intake policy) where
  tallies := by
    refine tallies_start rfl rfl ?_ Nat.one_ne_zero rfl
    intro link
    match link with
    | 0 | 1 => rfl
  inputs_eq := rfl
  senders := rfl
  exhausted := nofun
  receivers := Nat.le_refl _
  intake_policy := rfl
  outlet_policy := rfl
  alarm := rfl
  own := nofun

namespace Sound

variable (sound : Sound first inputs intake policy bench)
include sound

private theorem execute {network : Network 1}
    (advances : bench.network.advance sole heed = some network) :
    Sound first inputs intake policy
      { bench with
        network
        ledger := bench.ledger.after (bench.network.event? sole heed) } := by
  have tallies := sound.tallies.advance advances
  obtain ⟨dealing, between, turn, deals, same⟩ :=
    Advances.exists_turn ⟨heed, advances⟩
  generalize network.executor sole = next at turn same
  subst same
  constructor
  · exact tallies
  · exact sound.inputs_eq
  · have kept := deals.senders_inputLink sound.tallies.chain
    exact kept.trans sound.senders
  · exact sound.exhausted
  · have kept : (between.link (outputLink .chain sole)).receivers =
        bench.outlet.receivers := deals.receivers_last
    exact Nat.le_trans (Nat.le_of_eq kept) sound.receivers
  · exact (deals.policy_eq _).trans sound.intake_policy
  · exact (deals.policy_eq _).trans sound.outlet_policy
  · rw [executor, executor_acted, tripped_updateExecutor]
    by_cases trips : dealing = .trips
    · subst trips
      rw [turn.hasAlarmed_of_trips sound.own]
      cases deals
      rfl
    · rw [turn.hasAlarmed_eq trips, deals.tripped_eq trips]
      exact sound.alarm
  · rw [executor, executor_acted]
    exact turn.activity_ne_failing

theorem change (change : bench.Change move after) :
    Sound first inputs intake policy after := by
  have elsewhere : outputLink .chain sole ≠ inputLink sole := by decide
  cases change with
  | execute advances => exact sound.execute advances
  | @supply word pending supplying split room =>
      have senders := sound.senders
      rw [supplying, if_pos rfl] at senders
      have supplied : bench.intake.senders ≠ 0 := by simp [senders]
      constructor
      · exact sound.tallies.give supplied room
      · rw [← sound.inputs_eq, split, Ledger.give, List.append_assoc]
        rfl
      · simpa [Bench.intake, Channel.push] using sound.senders
      · simp [supplying]
      · simpa [Bench.outlet, elsewhere] using sound.receivers
      · simpa [Bench.intake, Channel.push] using sound.intake_policy
      · simpa [Bench.outlet, elsewhere] using sound.outlet_policy
      · exact sound.alarm
      · exact sound.own
  | finish supplying split =>
      have senders := sound.senders
      rw [supplying, if_pos rfl] at senders
      constructor
      · exact sound.tallies.closeInput
      · exact sound.inputs_eq
      · rw [Bench.intake] at senders
        simp [Bench.intake, Channel.dropSender, senders]
      · exact fun _ => split
      · simpa [Bench.outlet, elsewhere] using sound.receivers
      · simpa [Bench.intake, Channel.dropSender] using sound.intake_policy
      · simpa [Bench.outlet, elsewhere] using sound.outlet_policy
      · exact sound.alarm
      · exact sound.own
  | consume attended popped =>
      constructor
      · exact sound.tallies.get attended popped
      · exact sound.inputs_eq
      · simpa [Bench.intake, elsewhere.symm] using sound.senders
      · exact sound.exhausted
      · simpa [Bench.outlet] using sound.receivers
      · simpa [Bench.intake, elsewhere.symm] using sound.intake_policy
      · simpa [Bench.outlet] using sound.outlet_policy
      · exact sound.alarm
      · exact sound.own
  | abandon attended =>
      constructor
      · exact sound.tallies.closeOutput sound.receivers
      · exact sound.inputs_eq
      · simpa [Bench.intake, elsewhere.symm] using sound.senders
      · exact sound.exhausted
      · have receivers := sound.receivers
        rw [Bench.outlet, link_updateLink, if_pos rfl,
          Channel.receivers_dropReceiver]
        exact Nat.le_trans (Nat.sub_le _ _) receivers
      · simpa [Bench.intake, elsewhere.symm] using sound.intake_policy
      · simpa [Bench.outlet, Channel.policy_dropReceiver]
          using sound.outlet_policy
      · exact sound.alarm
      · exact sound.own

end Sound

theorem sound_of_follow {program : Program} {limits : Limits}
    (followed : follow moves (start program limits inputs intake policy) =
      some last) :
    Sound (Machine.start program limits) inputs intake policy last := by
  apply follow_keeps ?_ ?_ followed
  · intro bench sound move _ after change
    exact sound.change change
  · exact sound_start program limits inputs intake policy

/-! ## Time -/

theorem Change.age_le (change : bench.Change move after) :
    bench.executor.age + (if move.isExecute then 1 else 0) ≤
      after.executor.age := by
  cases change with
  | @execute heed network advances =>
      obtain ⟨_, _, turn, _⟩ := Advances.exists_turn ⟨heed, advances⟩
      exact turn.age_lt
  | _ => exact Nat.le_refl _

/-- The executor has not acted more often than it has grown older. -/
theorem countP_isExecute_le (followed : follow moves bench = some last) :
    bench.executor.age + moves.countP Move.isExecute ≤ last.executor.age := by
  induction moves generalizing bench with
  | nil =>
      cases followed
      exact Nat.le_refl _
  | cons move later induction =>
      obtain ⟨after, stepped, followed⟩ := Option.bind_eq_some_iff.mp followed
      have older := (change_of_step stepped).age_le
      have rest := induction followed
      rw [List.countP_cons]
      omega

end Bench

end CellMachines
