import CellMachines.Failure
import CellMachines.Queue

/-!
# Channels

A channel carries words in order from its senders to its receivers.  Its policy
says how many it buffers and what a put does when there is no room: fail or
wait.  A channel is open for puts as long as a receiver is left, and open for
takes as long as a sender is left or something is buffered.  When the last
receiver goes, an unbounded channel discards what it buffers; a bounded one
keeps it, out of reach.

`offer` and `poll` are single attempts at a put and a take.  An attempt that can
be decided now yields its result, and an attempt that cannot says so and changes
nothing, so waiting is nothing but an attempt made again later.
-/

namespace CellMachines

open Text

/-- What a put does when a bounded channel has no room. -/
inductive OnFull where
  | fail | block
  deriving DecidableEq, Repr

/-- How many words a channel buffers, and what becomes of a put beyond that. -/
inductive Policy where
  | unbounded
  | bounded (capacity : Nat) (onFull : OnFull)
  deriving DecidableEq, Repr

namespace Policy

/-- A put that finds no room fails at once. -/
def failFast (capacity : Nat) : Policy := .bounded capacity .fail

/-- A put that finds no room waits until there is some. -/
def backpressure (capacity : Nat) : Policy := .bounded capacity .block

def summary : Policy → String
  | .unbounded => "Unbounded"
  | .bounded capacity .fail =>
    s!"Bounded \x7b capacity: {natText capacity}, on_full: Fail \x7d"
  | .bounded capacity .block =>
    s!"Bounded \x7b capacity: {natText capacity}, on_full: Block \x7d"

/-- Whether a channel that buffers `count` words has room for one more. -/
def hasRoom (policy : Policy) (count : Nat) : Bool :=
  match policy with
  | .unbounded => true
  | .bounded capacity _ => count < capacity

/-- Whether a put that waits for room gives up when it is cancelled.  Under the
other policies no put ever waits. -/
def isCancellable : Policy → Bool
  | .bounded _ .block => true
  | _ => false

end Policy

/-- Why a put or a take came to nothing. -/
inductive ChannelError where
  | full (capacity : Nat)
  | closed
  | cancelled
  deriving DecidableEq, Repr

namespace ChannelError

def message : ChannelError → String
  | .full capacity => s!"channel is full (capacity {natText capacity})"
  | .closed => "channel is closed"
  | .cancelled => "cancelled while waiting on channel"

/-- What a machine makes of the error at one of its ends. -/
def failure : ChannelError → Failure
  | .full capacity => .channelOverflow capacity
  | .closed | .cancelled => .interrupted

end ChannelError

/-- A buffer with its policy, and how many ends are held on either side of it.
-/
structure Channel where
  policy : Policy
  buffer : Queue Word
  senders : Nat
  receivers : Nat

/-- The outcome of a single attempt at an operation on a channel. -/
inductive Attempt (α : Type) where
  | done (result : Except ChannelError α) (channel : Channel)
  | waits

namespace Channel

def create (policy : Policy) (senders receivers : Nat) : Channel where
  policy
  buffer := .empty
  senders
  receivers

/-- The words that are buffered, oldest first. -/
def contents (channel : Channel) : List Word :=
  channel.buffer.toList

def length (channel : Channel) : Nat :=
  channel.buffer.length

/-- Buffers one more word, without regard to the policy. -/
def push (channel : Channel) (value : Word) : Channel :=
  { channel with buffer := channel.buffer.push value }

/-- An attempt at a put.  When no receiver is left it fails even where there is
room, and the policy is looked at only where there is none. -/
def offer (channel : Channel) (value : Word) : Attempt Unit :=
  if channel.receivers = 0 then .done (.error .closed) channel
  else if channel.policy.hasRoom channel.length then
    .done (.ok ()) (channel.push value)
  else
    match channel.policy with
    | .bounded capacity .fail => .done (.error (.full capacity)) channel
    | _ => .waits

/-- An attempt at a take.  What is buffered can still be taken when no sender is
left. -/
def poll (channel : Channel) : Attempt Word :=
  match channel.buffer.pop? with
  | some (value, buffer) => .done (.ok value) { channel with buffer }
  | none =>
    if channel.senders = 0 then .done (.error .closed) channel else .waits

/-- An attempt by someone who also listens to a cancel token.  A tripped token
ends a wait.  When the attempt can be decided as well, either may come first:
`heed` tells whether the token does. -/
def orCancelled {α : Type} (channel : Channel) (tripped heed : Bool)
    (attempt : Attempt α) : Attempt α :=
  match attempt with
  | .waits => if tripped then .done (.error .cancelled) channel else .waits
  | .done result after =>
    if tripped && heed then .done (.error .cancelled) channel
    else .done result after

/-- Puts listen to the token only where the policy may let them wait. -/
def offerOrCancel (channel : Channel) (value : Word) (tripped heed : Bool) :
    Attempt Unit :=
  if channel.policy.isCancellable then
    channel.orCancelled tripped heed (channel.offer value)
  else channel.offer value

/-- Takes listen to the token under every policy. -/
def pollOrCancel (channel : Channel) (tripped heed : Bool) : Attempt Word :=
  channel.orCancelled tripped heed channel.poll

/-- Takes all that is buffered, and waits for nothing. -/
def drain (channel : Channel) : List Word × Channel :=
  (channel.contents, { channel with buffer := .empty })

def addSender (channel : Channel) : Channel :=
  { channel with senders := channel.senders + 1 }

def addReceiver (channel : Channel) : Channel :=
  { channel with receivers := channel.receivers + 1 }

/-- One sender less.  What is buffered stays for the receivers, also after the
last one. -/
def dropSender (channel : Channel) : Channel :=
  { channel with senders := channel.senders - 1 }

/-- One receiver less.  The last one takes the words in an unbounded buffer with
it. -/
def dropReceiver (channel : Channel) : Channel :=
  if channel.receivers ≤ 1 && channel.policy = .unbounded then
    { channel with receivers := 0, buffer := .empty }
  else { channel with receivers := channel.receivers - 1 }

end Channel

end CellMachines
