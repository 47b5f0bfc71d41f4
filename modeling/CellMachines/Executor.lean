import CellMachines.Channel
import CellMachines.Machine.Run

/-!
# Executors

An executor drives one machine whose input and output are channels.  It is
described by the single actions it performs on things that it shares with
others: it looks at the cancel token before every instruction, takes and puts
words, trips the token once its machine has failed by itself, and lets go of its
two channel ends when it leaves, in that order.  Between these actions it
touches nothing but its own machine, so any interleaving of several executors is
an interleaving of these actions.

`intent` names the action that comes next, and one function for each kind of
action tells how the executor goes on from its result.
-/

namespace CellMachines

/-- What a machine did by the time it halted. -/
structure Report where
  index : Nat
  steps : Nat
  /-- The number of words put out. -/
  emitted : Nat
  lastOutput : Option Word
  memory : List Word
  deriving DecidableEq, Repr

/-- Where an executor stands between two actions. -/
inductive Activity where
  /-- Before an instruction, about to look at the token. -/
  | checking
  /-- The token was not tripped when it looked; the instruction is under way. -/
  | executing
  /-- The machine failed by itself; the token is to be tripped. -/
  | failing (failure : Failure)
  /-- Done, and about to let go of the output end. -/
  | closing (result : Except Failure Unit)
  /-- The output end is gone; about to let go of the input end. -/
  | parting (result : Except Failure Unit)
  | ended (result : Except Failure Unit)

/-- A machine between two channels, with what has gone out for it and the place
where its executor stands. -/
structure Executor where
  machine : Machine
  /-- The words that went out, also those that nobody was left to receive. -/
  emitted : Array Word
  activity : Activity

/-- The action that an executor performs next on what it shares with others. -/
inductive Intent where
  | look
  /-- Execute an instruction that needs neither input nor output. -/
  | work
  | take
  | put (value : Word)
  | trip
  | dropOutput
  | dropInput
  | rest
  deriving DecidableEq, Repr

namespace Executor

/-- A fresh machine.  The token is looked at even before its first instruction.
-/
def start (program : Program) (limits : Limits) : Executor where
  machine := Machine.start program limits
  emitted := #[]
  activity := .checking

/-- The action that comes next.  An instruction that fails before it asks for a
word or offers one touches nothing that is shared, so it is mere work. -/
def intent (executor : Executor) : Intent :=
  match executor.activity with
  | .checking => .look
  | .executing =>
    match executor.machine.request with
    | .ok (.input _) => .take
    | .ok (.output value) => .put value
    | _ => .work
  | .failing _ => .trip
  | .closing _ => .dropOutput
  | .parting _ => .dropInput
  | .ended _ => .rest

/-- A tripped token ends the executor in the place of its next instruction. -/
def looked (executor : Executor) (tripped : Bool) : Executor :=
  { executor with
    activity := if tripped then .closing (.error .interrupted) else .executing }

/-- Executes the instruction under way with the given answers from outside. -/
def execute (executor : Executor) (surroundings : Surroundings Unit) :
    Executor :=
  let (outcome, machine, ()) := executor.machine.step surroundings ()
  { executor with
    machine
    activity :=
      match outcome with
      | .ok .proceeds => .checking
      | .ok .halts => .closing (.ok ())
      | .error .interrupted => .closing (.error .interrupted)
      | .error failure => .failing failure }

/-- Surroundings that answer a take with `word` and a put with `room`. -/
def answering (word : Except Failure Word) (room : Except Failure Unit) :
    Surroundings Unit where
  take _ := (word, ())
  put _ _ := (room, ())

/-- No channel takes part, so nothing depends on what it would have answered. -/
def worked (executor : Executor) : Executor :=
  executor.execute (answering (.error .notRunning) (.error .notRunning))

/-- The instruction goes on with the word that was taken.  The error of a take
is a failure of the machine, and a closed channel interrupts it. -/
def took (executor : Executor) (result : Except ChannelError Word) : Executor :=
  executor.execute
    (answering (result.mapError ChannelError.failure) (.error .notRunning))

/-- What a put amounts to for the machine.  A closed channel means that its
consumer has ended: nobody can read the word any more, so it is dropped and the
machine goes on, unless the token has been tripped. -/
def delivery (result : Except ChannelError Unit) (tripped : Bool) :
    Except ChannelError Unit :=
  match result with
  | .error .closed => if tripped then .error .closed else .ok ()
  | other => other

/-- A word that is dropped for want of a consumer counts among those put out
like any other. -/
def gave (executor : Executor) (value : Word)
    (result : Except ChannelError Unit) (tripped : Bool) : Executor :=
  match delivery result tripped with
  | .ok () =>
    let after := executor.execute (answering (.error .notRunning) (.ok ()))
    { after with emitted := after.emitted.push value }
  | .error error =>
    executor.execute (answering (.error .notRunning) (.error error.failure))

/-- Once the token is tripped the failure of the machine is the result, and
nothing is left but to leave. -/
def announced (executor : Executor) : Executor :=
  match executor.activity with
  | .failing failure => { executor with activity := .closing (.error failure) }
  | _ => executor

/-- The output end is gone, and the input end goes next. -/
def closedOutput (executor : Executor) : Executor :=
  match executor.activity with
  | .closing result => { executor with activity := .parting result }
  | _ => executor

/-- With the input end gone as well, the executor has ended. -/
def closedInput (executor : Executor) : Executor :=
  match executor.activity with
  | .parting result => { executor with activity := .ended result }
  | _ => executor

/-- How the executor ended.  That shows only when both its channel ends are
gone. -/
def result? (executor : Executor) : Option (Except Failure Unit) :=
  match executor.activity with
  | .ended result => some result
  | _ => none

def hasEnded (executor : Executor) : Bool :=
  executor.result?.isSome

/-- What there is to tell of the machine that has the given index. -/
def report (executor : Executor) (index : Nat) : Report where
  index
  steps := executor.machine.steps
  emitted := executor.emitted.size
  lastOutput := executor.emitted.back?
  memory := executor.machine.memory.cells.toList

end Executor

/-- Why an executor has no report to give. -/
inductive ExecutorError where
  | machine (failure : Failure)
  | panicked (message : String)
  deriving DecidableEq, Repr

namespace ExecutorError

/-- Whether the error only tells that something else has stopped. -/
def isCascade : ExecutorError → Bool
  | .machine .interrupted => true
  | _ => false

def message : ExecutorError → String
  | .machine failure => failure.message
  | .panicked message => s!"executor panicked: {message}"

end ExecutorError

end CellMachines
