import CellMachines.Channel.Exchange
import Mathlib.Logic.Function.Basic

/-!
# Histories of an exchange

What the users of an exchange do, in any order: puts and takes of every kind,
on their own or on another thread, drains, joins, the cancel token, and what
becomes of the handles.  Whoever holds no handle does nothing.  A put or a take
that cannot be decided and is not on another thread would keep its caller for
ever, so nothing comes of it, as nothing comes of a take that does not wait and
finds no word; the one on another thread waits and is completed by whatever lets
it go on.  A history keeps the completions that its actions have brought, which
is all that the users get to see of the words.
-/

namespace CellMachines

/-- How a put or a take is made. -/
structure Manner where
  /-- On another thread, with a handle of its own. -/
  background : Bool
  /-- Whether it does not listen to the cancel token. -/
  patient : Bool
  /-- Whether the tripped token comes first when something else is ready. -/
  heed : Bool
  deriving DecidableEq, Repr

/-- Who put or took: the action at a position, or the operation with a
ticket. -/
inductive Caller where
  | now (position : Nat)
  | begun (ticket : Nat)
  deriving DecidableEq, Repr

/-- What a put, a take or a drain has come to, and who made it. -/
inductive Completion where
  | put (caller : Caller) (value : Word) (result : Except ChannelError Unit)
  | take (caller : Caller) (result : Except ChannelError Word)
  | drain (caller : Caller) (values : List Word)

namespace Completion

def caller : Completion → Caller
  | .put caller _ _ | .take caller _ | .drain caller _ => caller

/-- The word of a put that has succeeded. -/
def accepted : Completion → List Word
  | .put _ value (.ok ()) => [value]
  | _ => []

/-- The words that a take or a drain has brought. -/
def handedOut : Completion → List Word
  | .take _ (.ok value) => [value]
  | .drain _ values => values
  | _ => []

/-- The reply to an operation that had begun, when its words are as offered. -/
def ofReply (offers : Nat → Word) : Nat × Reply → Completion
  | (ticket, .put result) => .put (.begun ticket) (offers ticket) result
  | (ticket, .take result) => .take (.begun ticket) result

end Completion

namespace Exchange

/-- What one of the users does. -/
inductive Action where
  | put (value : Word) (manner : Manner)
  | take (manner : Manner)
  | drain
  | join
  | cancel
  | cloneSender
  | dropSender
  | cloneReceiver
  | dropReceiver
  /-- Those who wait change their order, so anyone may be served next. -/
  | reorder (puts : List WaitingPut) (takes : List WaitingTake)

/-- An action as the one at a position, with its own completion if it has
one. -/
def act (exchange : Exchange) (position : Nat) :
    Action → List Completion × Exchange
  | .put value manner =>
    if exchange.senders = 0 then ([], exchange)
    else if manner.background then
      ([], exchange.beginPut value manner.patient manner.heed)
    else
      match exchange.attemptPut value manner.patient manner.heed with
      | (some result, after) => ([.put (.now position) value result], after)
      | (none, after) => ([], after)
  | .take manner =>
    if exchange.receivers = 0 then ([], exchange)
    else if manner.background then
      ([], exchange.beginTake manner.patient manner.heed)
    else
      match exchange.attemptTake manner.patient manner.heed with
      | (some result, after) => ([.take (.now position) result], after)
      | (none, after) => ([], after)
  | .drain =>
    if exchange.receivers = 0 then ([], exchange)
    else
      let (values, after) := exchange.drain
      ([.drain (.now position) values], after)
  | .join => ([], exchange.join.2)
  | .cancel => ([], exchange.cancel)
  | .cloneSender =>
    ([], if exchange.senders = 0 then exchange else exchange.cloneSender)
  | .dropSender =>
    ([], if exchange.senders = 0 then exchange else exchange.dropSender)
  | .cloneReceiver =>
    ([], if exchange.receivers = 0 then exchange else exchange.cloneReceiver)
  | .dropReceiver =>
    ([], if exchange.receivers = 0 then exchange else exchange.dropReceiver)
  | .reorder puts takes =>
    if puts.Perm exchange.waitingPuts ∧ takes.Perm exchange.waitingTakes then
      ([], { exchange with waitingPuts := puts, waitingTakes := takes })
    else ([], exchange)

/-- An exchange with all that its users have seen of it so far. -/
structure History where
  exchange : Exchange
  /-- The words that the begun puts offer, by their tickets. -/
  offers : Nat → Word
  /-- In the order in which they came about. -/
  completions : List Completion
  /-- The number of actions. -/
  length : Nat

namespace History

def start (policy : Policy) : History where
  exchange := .create policy
  offers _ := 0
  completions := []
  length := 0

/-- The offers with that of the put that an action begins. -/
def offersAfter (history : History) : Action → Nat → Word
  | .put value ⟨true, _, _⟩ =>
    Function.update history.offers history.exchange.begun value
  | _ => history.offers

/-- The replies that an action brings to others come before its own completion.
-/
def after (history : History) (action : Action) : History :=
  let (own, exchange) := history.exchange.act history.length action
  let offers := history.offersAfter action
  let replies := exchange.replies.drop history.exchange.replies.length
  { exchange
    offers
    completions :=
      history.completions ++ (replies.map (Completion.ofReply offers) ++ own)
    length := history.length + 1 }

def afterAll (history : History) (actions : List Action) : History :=
  actions.foldl after history

def accepted (history : History) : List Word :=
  history.completions.flatMap Completion.accepted

def handedOut (history : History) : List Word :=
  history.completions.flatMap Completion.handedOut

end History

end Exchange

end CellMachines
