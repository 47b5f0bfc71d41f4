import CellMachines.Channel

/-!
# Exchanges

An exchange is a channel together with the operations on it that have begun and
wait.  A put that waits holds a sender and its word, a take that waits holds a
receiver, and each gets its result from whatever lets it go on: a word, room,
the end of the other side, or the cancel token, if it listens to that.  Puts and
takes are served in the order in which they began.  A channel of capacity zero
never buffers anything, so there a word only ever passes from a put to a take
that wait for each other.

Takes wait only on an empty buffer and puts only on a full one, so the two never
wait at once.
-/

namespace CellMachines

/-- The result of an operation that had begun earlier. -/
inductive Reply where
  | put (result : Except ChannelError Unit)
  | take (result : Except ChannelError Word)

/-- A put that has to wait for room, and the word it offers. -/
structure WaitingPut where
  ticket : Nat
  value : Word
  /-- Whether it goes on waiting when the cancel token is tripped. -/
  patient : Bool
  deriving DecidableEq, Repr

/-- A take that has to wait for a word. -/
structure WaitingTake where
  ticket : Nat
  patient : Bool
  deriving DecidableEq, Repr

/-- A channel with those who wait on it, and the results of those who waited. -/
structure Exchange where
  channel : Channel
  cancelled : Bool
  /-- The senders and receivers at hand, those of waiting operations not
  counted. -/
  senders : Nat
  receivers : Nat
  waitingPuts : List WaitingPut
  waitingTakes : List WaitingTake
  /-- The number of operations begun so far; each is known by the number begun
  before it. -/
  begun : Nat
  /-- The number of operations whose results have been asked for. -/
  joined : Nat
  replies : List (Nat × Reply)

namespace Exchange

def create (policy : Policy) : Exchange where
  channel := .create policy 1 1
  cancelled := false
  senders := 1
  receivers := 1
  waitingPuts := []
  waitingTakes := []
  begun := 0
  joined := 0
  replies := []

/-! ## Operations that stop waiting -/

/-- Adds the result of the operation with a ticket. -/
def reply (exchange : Exchange) (ticket : Nat) (reply : Reply) : Exchange :=
  { exchange with replies := exchange.replies ++ [(ticket, reply)] }

/-- Ends the waiting of some takes without a word. -/
def failTakes (exchange : Exchange) (error : ChannelError)
    (fails : WaitingTake → Bool) : Exchange :=
  let failing := exchange.waitingTakes.filter fails
  { exchange with
    channel :=
      failing.foldl (fun channel _ => channel.dropReceiver) exchange.channel
    waitingTakes := exchange.waitingTakes.filter fun waiting => !fails waiting
    replies := exchange.replies ++
      failing.map fun waiting => (waiting.ticket, .take (.error error)) }

/-- Ends the waiting of some puts without room. -/
def failPuts (exchange : Exchange) (error : ChannelError)
    (fails : WaitingPut → Bool) : Exchange :=
  let failing := exchange.waitingPuts.filter fails
  { exchange with
    channel :=
      failing.foldl (fun channel _ => channel.dropSender) exchange.channel
    waitingPuts := exchange.waitingPuts.filter fun waiting => !fails waiting
    replies := exchange.replies ++
      failing.map fun waiting => (waiting.ticket, .put (.error error)) }

/-- Ends the waiting for a side that is gone. -/
def settle (exchange : Exchange) : Exchange :=
  let exchange :=
    if exchange.channel.senders = 0 then
      exchange.failTakes .closed fun _ => true
    else exchange
  if exchange.channel.receivers = 0 then
    exchange.failPuts .closed fun _ => true
  else exchange

/-! ## Puts and takes -/

/-- Attempts a put; no result means that it has to wait. -/
def put (exchange : Exchange) (value : Word) :
    Option (Except ChannelError Unit) × Exchange :=
  match exchange.waitingTakes with
  | waiting :: waitingTakes =>
    let exchange := exchange.reply waiting.ticket (.take (.ok value))
    (some (.ok ()),
      { exchange with
        waitingTakes
        channel := exchange.channel.dropReceiver })
  | [] =>
    match exchange.channel.offer value with
    | .done result channel => (some result, { exchange with channel })
    | .waits => (none, exchange)

/-- Attempts a take; no result means that it has to wait. -/
def take (exchange : Exchange) : Option (Except ChannelError Word) × Exchange :=
  match exchange.channel.poll, exchange.waitingPuts with
  | .done (.ok value) channel, waiting :: waitingPuts =>
    let exchange := exchange.reply waiting.ticket (.put (.ok ()))
    (some (.ok value),
      { exchange with
        waitingPuts
        channel := (channel.push waiting.value).dropSender })
  | .waits, waiting :: waitingPuts =>
    let exchange := exchange.reply waiting.ticket (.put (.ok ()))
    (some (.ok waiting.value),
      { exchange with
        waitingPuts
        channel := exchange.channel.dropSender })
  | .done result channel, _ => (some result, { exchange with channel })
  | .waits, [] => (none, exchange)

/-- The result of an attempt by someone who listens to the cancel token.  When
the attempt can be decided as well, `heed` tells whether the tripped token comes
first. -/
def orCancelled {α : Type} (exchange : Exchange) (heed : Bool)
    (attempt : Option (Except ChannelError α) × Exchange) :
    Option (Except ChannelError α) × Exchange :=
  if exchange.cancelled && (heed || attempt.1.isNone) then
    (some (.error .cancelled), exchange)
  else attempt

/-- Puts listen to the token only where the policy may let them wait. -/
def putOrCancel (exchange : Exchange) (value : Word) (heed : Bool := false) :
    Option (Except ChannelError Unit) × Exchange :=
  if exchange.channel.policy.isCancellable then
    exchange.orCancelled heed (exchange.put value)
  else exchange.put value

/-- Takes listen to the token under every policy. -/
def takeOrCancel (exchange : Exchange) (heed : Bool := false) :
    Option (Except ChannelError Word) × Exchange :=
  exchange.orCancelled heed exchange.take

/-- A put by someone who listens to the token unless patient. -/
def attemptPut (exchange : Exchange) (value : Word) (patient heed : Bool) :
    Option (Except ChannelError Unit) × Exchange :=
  if patient then exchange.put value else exchange.putOrCancel value heed

/-- A take by someone who listens to the token unless patient. -/
def attemptTake (exchange : Exchange) (patient heed : Bool) :
    Option (Except ChannelError Word) × Exchange :=
  if patient then exchange.take else exchange.takeOrCancel heed

/-- At most `count` words taken without waiting, and those taken before. -/
def drainInto (taken : List Word) : Nat → Exchange → List Word × Exchange
  | 0, exchange => (taken.reverse, exchange)
  | count + 1, exchange =>
    match exchange.take with
    | (some (.ok value), exchange) => drainInto (value :: taken) count exchange
    | (_, exchange) => (taken.reverse, exchange)

/-- Everything that can be taken without waiting. -/
def drain (exchange : Exchange) : List Word × Exchange :=
  drainInto [] (exchange.channel.length + exchange.waitingPuts.length) exchange

/-! ## Operations that may wait in the background -/

/-- Begins a put on a sender of its own, which is gone again as soon as the put
is over. -/
def beginPut (exchange : Exchange) (value : Word) (patient : Bool := false)
    (heed : Bool := false) : Exchange :=
  let ticket := exchange.begun
  match exchange.attemptPut value patient heed with
  | (some result, exchange) =>
    { exchange.reply ticket (.put result) with begun := ticket + 1 }
  | (none, exchange) =>
    { exchange with
      begun := ticket + 1
      channel := exchange.channel.addSender
      waitingPuts := exchange.waitingPuts ++ [{ ticket, value, patient }] }

/-- Begins a take on a receiver of its own, which is gone again as soon as the
take is over. -/
def beginTake (exchange : Exchange) (patient : Bool := false)
    (heed : Bool := false) : Exchange :=
  let ticket := exchange.begun
  match exchange.attemptTake patient heed with
  | (some result, exchange) =>
    { exchange.reply ticket (.take result) with begun := ticket + 1 }
  | (none, exchange) =>
    { exchange with
      begun := ticket + 1
      channel := exchange.channel.addReceiver
      waitingTakes := exchange.waitingTakes ++ [{ ticket, patient }] }

/-- The result of the oldest operation that was begun and not asked for yet,
once it has one. -/
def join (exchange : Exchange) : Option Reply × Exchange :=
  match exchange.replies.find? fun entry => entry.1 = exchange.joined with
  | some (_, reply) =>
    (some reply, { exchange with joined := exchange.joined + 1 })
  | none => (none, exchange)

/-- Trips the cancel token.  Those who wait and do not listen to it go on
waiting. -/
def cancel (exchange : Exchange) : Exchange :=
  let exchange := exchange.failTakes .cancelled fun waiting => !waiting.patient
  let exchange := exchange.failPuts .cancelled fun waiting => !waiting.patient
  { exchange with cancelled := true }

/-! ## Handles -/

def cloneSender (exchange : Exchange) : Exchange :=
  { exchange with
    channel := exchange.channel.addSender
    senders := exchange.senders + 1 }

/-- When the last sender goes, no take that waits can get a word any more. -/
def dropSender (exchange : Exchange) : Exchange :=
  settle
    { exchange with
      channel := exchange.channel.dropSender
      senders := exchange.senders - 1 }

def cloneReceiver (exchange : Exchange) : Exchange :=
  { exchange with
    channel := exchange.channel.addReceiver
    receivers := exchange.receivers + 1 }

/-- When the last receiver goes, no put that waits can get rid of its word. -/
def dropReceiver (exchange : Exchange) : Exchange :=
  settle
    { exchange with
      channel := exchange.channel.dropReceiver
      receivers := exchange.receivers - 1 }

/-! ## Descriptions -/

def senderSummary (exchange : Exchange) : String :=
  let policy := exchange.channel.policy.summary
  s!"Sender \x7b policy: {policy}, len: {Text.natText exchange.channel.length} \x7d"

def receiverSummary (exchange : Exchange) : String :=
  s!"Receiver \x7b len: {Text.natText exchange.channel.length} \x7d"

def tokenSummary (exchange : Exchange) : String :=
  if exchange.cancelled then "CancelToken(true)" else "CancelToken(false)"

end Exchange

end CellMachines
