import CellMachines.Machine

/-!
# Running a machine

The surroundings of a machine are a state of any kind together with a way to
take an input from it and a way to put an output to it.  Each of the two may
change the state and may fail, with any failure at all.  `step` executes one
instruction in such surroundings and `run` goes on until the machine halts or
something fails.  A program need not end, so a run has a budget of instructions,
and a run that is still going when the budget is spent has no result.
-/

namespace CellMachines

/-- A way to take an input from a state of the surroundings, and one to put an
output to it. -/
structure Surroundings (σ : Type) where
  take : σ → Except Failure Word × σ
  put : Word → σ → Except Failure Unit × σ

/-- Whether a machine goes on after an instruction that it has completed. -/
inductive Outcome where
  | proceeds | halts
  deriving DecidableEq, Repr

namespace Machine

/-- Writes a value that the instruction at hand computed or took, unless the
memory refuses. -/
def settle (machine : Machine) (target : Nat) (value : Word) (width : Nat) :
    Except Failure Outcome × Machine :=
  match machine.storeFailure? target with
  | some failure => (.error failure, machine.failed failure)
  | none => (.ok .proceeds, machine.stored target value width)

/-- Executes the instruction at hand.  Where that fails the machine keeps its
place, but an input that it had got by then is lost. -/
def step {σ : Type} (surroundings : Surroundings σ) (machine : Machine)
    (world : σ) : Except Failure Outcome × Machine × σ :=
  match machine.request with
  | .error failure => (.error failure, machine.failed failure, world)
  | .ok (.store target value) =>
    let (outcome, machine) := machine.settle target value 4
    (outcome, machine, world)
  | .ok (.input target) =>
    match surroundings.take world with
    | (.error failure, world) => (.error failure, machine.failed failure, world)
    | (.ok value, world) =>
      let (outcome, machine) := machine.resumed.settle target value 2
      (outcome, machine, world)
  | .ok (.output value) =>
    match surroundings.put value world with
    | (.error failure, world) => (.error failure, machine.failed failure, world)
    | (.ok (), world) => (.ok .proceeds, machine.sent, world)
  | .ok (.jump target) => (.ok .proceeds, machine.jumped target, world)
  | .ok (.rebase base) => (.ok .proceeds, machine.rebased base, world)
  | .ok .halt => (.ok .halts, machine.halted, world)

/-- Executes instructions until one halts or fails, but no more than the budget
allows. -/
def run {σ : Type} (surroundings : Surroundings σ) (budget : Nat)
    (machine : Machine) (world : σ) :
    Option (Except Failure Unit × Machine × σ) :=
  match budget with
  | 0 => none
  | budget + 1 =>
    match machine.step surroundings world with
    | (.ok .proceeds, machine, world) => run surroundings budget machine world
    | (.ok .halts, machine, world) => some (.ok (), machine, world)
    | (.error failure, machine, world) => some (.error failure, machine, world)

end Machine

/-! ## Tapes -/

/-- Surroundings with a queue of inputs and a record of outputs.  The record may
have room for a given number of values only. -/
structure Tape where
  waiting : List Word
  /-- The failure of a take from the empty queue. -/
  dry : Failure := .inputExhausted
  emitted : Array Word := #[]
  room : Option Nat := none

namespace Tape

def take (tape : Tape) : Except Failure Word × Tape :=
  match tape.waiting with
  | [] => (.error tape.dry, tape)
  | value :: waiting => (.ok value, { tape with waiting })

/-- Why the record takes no further value. -/
def refusal? (tape : Tape) : Option Failure :=
  match tape.room with
  | some room =>
    if room ≤ tape.emitted.size then some (.channelOverflow room) else none
  | none => none

def put (value : Word) (tape : Tape) : Except Failure Unit × Tape :=
  match tape.refusal? with
  | some failure => (.error failure, tape)
  | none => (.ok (), { tape with emitted := tape.emitted.push value })

/-- More values at the end of the queue. -/
def feed (tape : Tape) (values : List Word) : Tape :=
  { tape with waiting := tape.waiting ++ values }

def surroundings : Surroundings Tape where
  take := take
  put := put

end Tape

/-! ## Programs -/

/-- What a program has done by the time it halts. -/
structure Execution where
  outputs : List Word
  memory : List Word
  steps : Nat
  deriving DecidableEq, Repr

/-- More instructions than any run completes in a lifetime. -/
def ample : Nat := 4611686018427387904

namespace Program

/-- Runs a program on a fixed list of inputs, with as much room for its outputs
as it needs. -/
def execute (program : Program) (inputs : List Word) (limits : Limits)
    (budget : Nat) : Option (Except Failure Execution) :=
  (Machine.run Tape.surroundings budget (Machine.start program limits)
    { waiting := inputs }).map
    fun (result, machine, tape) =>
      result.map fun () =>
        { outputs := tape.emitted.toList
          memory := machine.memory.cells.toList
          steps := machine.steps }

end Program

end CellMachines
