import CellMachines.Executor

/-!
# Networks

In a network of `n` machines, machine `i` reads link `i`. In a chain it writes
the link after that one, and the last link is a collector that no machine reads.
In a ring the last machine writes link `0` instead, and the last link is not
used.  All machines share one cancel token.

`advance` performs the next action of one executor.  It yields nothing when the
executor has ended, or when it has to wait for a word or for room; a network in
which no executor can advance has come to rest.
-/

namespace CellMachines

/-- Whether the words of the last machine leave the network or go around in it.
-/
inductive Topology where
  | chain | ring
  deriving DecidableEq, Repr

def Topology.name : Topology → String
  | .chain => "chain"
  | .ring => "ring"

/-- Machines with their links, one more than there are machines, and the token
that they share. -/
structure Network (n : Nat) where
  topology : Topology
  executors : Vector Executor n
  links : Vector Channel (n + 1)
  tripped : Bool

namespace Network

variable {n : Nat}

def executor (network : Network n) (index : Fin n) : Executor :=
  network.executors.get index

def link (network : Network n) (index : Fin (n + 1)) : Channel :=
  network.links.get index

/-- The link that the first machine reads. -/
def entry (n : Nat) : Fin (n + 1) :=
  ⟨0, Nat.succ_pos n⟩

/-- The link that a machine reads. -/
def inputLink (index : Fin n) : Fin (n + 1) :=
  index.castSucc

/-- The link that a machine writes. -/
def outputLink (topology : Topology) (index : Fin n) : Fin (n + 1) :=
  match topology with
  | .chain => index.succ
  | .ring => if index.val + 1 = n then entry n else index.succ

def updateExecutor (network : Network n) (index : Fin n)
    (change : Executor → Executor) : Network n :=
  { network with
    executors := ⟨network.executors.toArray.modify index change, by simp⟩ }

def updateLink (network : Network n) (index : Fin (n + 1))
    (change : Channel → Channel) : Network n :=
  { network with links := ⟨network.links.toArray.modify index change, by simp⟩ }

@[simp] theorem executor_updateExecutor (network : Network n)
    (index other : Fin n) (change : Executor → Executor) :
    (network.updateExecutor index change).executor other =
      if other = index then change (network.executor other)
      else network.executor other := by
  simp only [executor, updateExecutor, Vector.get, Array.getElem_modify,
    Fin.ext_iff, eq_comm (a := index.val)]
  rfl

@[simp] theorem link_updateLink (network : Network n)
    (index other : Fin (n + 1)) (change : Channel → Channel) :
    (network.updateLink index change).link other =
      if other = index then change (network.link other)
      else network.link other := by
  simp only [link, updateLink, Vector.get, Array.getElem_modify, Fin.ext_iff,
    eq_comm (a := index.val)]
  rfl

@[simp] theorem link_updateExecutor (network : Network n) (index : Fin n)
    (change : Executor → Executor) (other : Fin (n + 1)) :
    (network.updateExecutor index change).link other = network.link other := rfl

@[simp] theorem executor_updateLink (network : Network n) (index : Fin (n + 1))
    (change : Channel → Channel) (other : Fin n) :
    (network.updateLink index change).executor other =
      network.executor other := rfl

/-- Trips the token for good. -/
def trip (network : Network n) : Network n :=
  { network with tripped := true }

/-- The next action of one executor.  When both its link and the tripped token
could end a wait, `heed` tells whether the token does. -/
def advance (network : Network n) (index : Fin n) (heed : Bool) :
    Option (Network n) :=
  let input := inputLink index
  let output := outputLink network.topology index
  match (network.executor index).intent with
  | .look => some (network.updateExecutor index (·.looked network.tripped))
  | .work => some (network.updateExecutor index Executor.worked)
  | .take =>
    match (network.link input).pollOrCancel network.tripped heed with
    | .done result link =>
      some ((network.updateLink input fun _ => link).updateExecutor index
        (·.took result))
    | .waits => none
  | .put value =>
    match (network.link output).offerOrCancel value network.tripped heed with
    | .done result link =>
      some ((network.updateLink output fun _ => link).updateExecutor index
        (·.gave value result network.tripped))
    | .waits => none
  | .trip => some (network.trip.updateExecutor index Executor.announced)
  | .dropOutput =>
    some ((network.updateLink output Channel.dropSender).updateExecutor index
      Executor.closedOutput)
  | .dropInput =>
    some ((network.updateLink input Channel.dropReceiver).updateExecutor index
      Executor.closedInput)
  | .rest => none

/-- Whether all executors have ended. -/
def hasEnded (network : Network n) : Bool :=
  network.executors.all Executor.hasEnded

/-- The report of an executor that has ended, under the given index, or how it
failed. -/
def report? (network : Network n) (index : Fin n) (shown : Nat) :
    Option (Except Failure Report) :=
  (network.executor index).result?.map fun result =>
    result.map fun () => (network.executor index).report shown

/-! ## A single executor -/

/-- The machine of a network that has only one. -/
def sole : Fin 1 :=
  ⟨0, Nat.one_pos⟩

/-- One executor whose inputs are all there and whose input link is closed
behind them.  Its output link has the given policy and, if it is kept, one
receiver that takes nothing. -/
def solo (program : Program) (limits : Limits) (inputs : List Word)
    (policy : Policy) (keepOutput tripped : Bool) : Network 1 where
  topology := .chain
  executors := #v[Executor.start program limits]
  links := #v[
    { Channel.create .unbounded 0 1 with buffer := .ofList inputs },
    Channel.create policy 1 (if keepOutput then 1 else 0)]
  tripped

/-- Lets a single executor act until it has ended.  There is no result when it
comes to rest before, or when the budget of actions is spent. -/
def finish (budget : Nat) (network : Network 1) : Option (Network 1) :=
  if network.hasEnded then some network
  else
    match budget with
    | 0 => none
    | budget + 1 =>
      match network.advance sole false with
      | none => none
      | some network => finish budget network

end Network

end CellMachines
