import CellMachines.Network

/-!
# Remote machines

A remote machine is a single executor between two unbounded links, whose other
ends belong to a client.  The client puts inputs and takes outputs while the
executor runs.  When a put is refused or no output can come any more, the
executor has ended: the client then joins it once and learns why.  Closing the
session lets go of the input link first, cancels an executor that is still
running, and joins it.

`Session` is a configuration of the two.  A call of the client consists of a few
actions of its own, and the executor may perform any number of actions before
each of them, which `leads` counts out.  Apart from those the executor performs
only what the client has to wait for, so every interleaving of the two is that
of some leads.
-/

namespace CellMachines

/-- Why a call of the client fails. -/
inductive RemoteError where
  | stopped
  | machine (failure : Failure)
  | panicked (message : String)
  | spawn (message : String)
  deriving DecidableEq, Repr

def RemoteError.message : RemoteError → String
  | .stopped => "machine stopped before responding"
  | .machine failure => s!"machine failed: {failure.message}"
  | .panicked message => s!"machine executor panicked: {message}"
  | .spawn message => s!"failed to spawn executor thread: {message}"

/-- How a session ended that was shut down. -/
inductive Termination where
  | halted (report : Report)
  | cancelled
  deriving DecidableEq, Repr

/-- A client and the executor of its machine, with all that the executor will do
on its own account. -/
structure Session where
  network : Network 1
  /-- Whether the client still holds its end of the input link. -/
  inputOpen : Bool
  /-- Whether the executor has yet to be joined. -/
  attached : Bool
  /-- What the executor does before each of the next actions of the client, an
  entry for every action of its own: whether it heeds the cancel token where it
  could do otherwise. -/
  leads : List (List Bool)

namespace Session

/-- The executor has not acted yet, and both its links are empty. -/
def start (program : Program) (limits : Limits) (leads : List (List Bool)) :
    Session where
  network := {
    topology := .chain
    executors := Vector.replicate 1 (Executor.start program limits)
    links := Vector.replicate 2 (Channel.create .unbounded 1 1)
    tripped := false }
  inputOpen := true
  attached := true
  leads

def inputLink : Fin 2 :=
  Network.inputLink Network.sole

def outputLink : Fin 2 :=
  Network.outputLink .chain Network.sole

/-! ## Single actions -/

/-- One action of the executor.  There is none when it has ended or has to wait.
-/
def advance (session : Session) (heed : Bool) : Option Session :=
  (session.network.advance Network.sole heed).map fun network =>
    { session with network }

/-- Lets the executor do what it does before the next action of the client, as
far as it need not wait. -/
def lead (session : Session) : Session :=
  match session.leads with
  | [] => session
  | choices :: leads =>
    choices.foldl (fun session heed => (session.advance heed).getD session)
      { session with leads }

/-- Puts a word on the input link and tells whether that has worked.  It has not
when the client has let go of the link before, or the executor has. -/
def offer (session : Session) (value : Word) : Bool × Session :=
  if session.inputOpen then
    match (session.network.link inputLink).offer value with
    | .done (.ok ()) link =>
      (true, { session with
        network := session.network.updateLink inputLink fun _ => link })
    | _ => (false, session)
  else (false, session)

/-- What a take from the output link comes to.  There is no result as long as
the link is empty and the executor holds its end. -/
def poll (session : Session) : Option (Except ChannelError Word × Session) :=
  match (session.network.link outputLink).poll with
  | .done result link =>
    some (result, { session with
      network := session.network.updateLink outputLink fun _ => link })
  | .waits => none

/-- Lets go of the input link, unless that has been done. -/
def dropInput (session : Session) : Session :=
  if session.inputOpen then
    { session with
      network := session.network.updateLink inputLink Channel.dropSender
      inputOpen := false }
  else session

def hasEnded (session : Session) : Bool :=
  (session.network.executor Network.sole).hasEnded

/-- Trips the cancel token.  An executor that has ended is past looking at it,
so for that nothing is done. -/
def cancelUnlessEnded (session : Session) : Session :=
  if session.hasEnded then session
  else { session with network := session.network.trip }

/-- What the executor has to report, or how it failed, once it has ended. -/
def result? (session : Session) : Option (Except Failure Report) :=
  session.network.report? Network.sole 0

/-- Whether the client finds that the executor is through: it has ended or been
joined. -/
def isFinished (session : Session) : Bool :=
  !session.attached || session.hasEnded

/-! ## Calls -/

/-- Lets the executor act until a condition holds.  There is no result when the
executor comes to rest before, or when the budget of actions is spent. -/
def await (condition : Session → Bool) (budget : Nat) (session : Session) :
    Option Session :=
  if condition session then some session
  else
    match budget with
    | 0 => none
    | budget + 1 =>
      match session.advance false with
      | none => none
      | some session => await condition budget session

/-- A call of the client, which can fail and which may never return. -/
abbrev Call := ExceptT RemoteError (StateT Session Option)

/-- One action of the client, after those that the executor performs before it.
-/
def act {α : Type} (action : Session → α × Session) : Call α :=
  modifyGet fun session => action session.lead

/-- Waits for a condition.  The call never returns when the executor comes to
rest or the budget is spent before it holds. -/
def awaitThat (budget : Nat) (condition : Session → Bool) : Call Unit := do
  match (← get).lead.await condition budget with
  | some session => set session
  | none => ExceptT.lift (StateT.lift none)

/-- Lets go of the input link and joins the executor, cancelling it if it has
not ended.  Yields its result, unless it was joined before. -/
def close (budget : Nat) : Call (Option (Except Failure Report)) := do
  act fun session => ((), session.dropInput)
  if (← get).attached then
    act fun session => ((), session.cancelUnlessEnded)
    awaitThat budget hasEnded
    let result := (← get).result?
    modify fun session => { session with attached := false }
    return result
  else return none

/-- What a result says when the session was not expected to end. -/
def stopReason : Option (Except Failure Report) → RemoteError
  | some (.error .interrupted) => .stopped
  | some (.error failure) => .machine failure
  | _ => .stopped

/-- What a result says when the session was shut down. -/
def termination :
    Option (Except Failure Report) → Except RemoteError Termination
  | some (.ok report) => .ok (.halted report)
  | some (.error .interrupted) => .ok .cancelled
  | some (.error failure) => .error (.machine failure)
  | none => .ok .cancelled

/-- Fails because the executor is gone, with the reason why. -/
def stop {α : Type} (budget : Nat) : Call α := do
  throw (stopReason (← close budget))

/-- Puts an input.  It is refused only when the executor is gone, and the call
fails then with the reason for that. -/
def push (budget : Nat) (value : Word) : Call Unit := do
  unless ← act (offer · value) do stop budget

/-- Waits for the next output, or fails with the reason why none will come. -/
def receive (budget : Nat) : Call Word := do
  awaitThat budget fun session => session.poll.isSome
  match (← get).poll with
  | some (.ok value, session) =>
    set session
    return value
  | _ => stop budget

/-- Puts one input and waits for one output, whatever this may be an answer to.
-/
def send (budget : Nat) (value : Word) : Call Word := do
  push budget value
  receive budget

/-- Puts every input only when an output has come for the one before it. -/
def sendAll (budget : Nat) (values : List Word) : Call (List Word) :=
  values.mapM (send budget)

/-- Puts all inputs before it waits for the first of the outputs. -/
def exchange (budget : Nat) (values : List Word) (responses : Nat) :
    Call (List Word) := do
  values.forM (push budget)
  (List.replicate responses ()).mapM fun () => receive budget

/-- Closes the session and tells how the machine ended. -/
def shutDown (budget : Nat) : Call Termination := do
  match termination (← close budget) with
  | .ok ending => return ending
  | .error error => throw error

end Session

end CellMachines
