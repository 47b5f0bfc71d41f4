import CellMachines.Instruction
import CellMachines.Memory
import CellMachines.Program

/-!
# Machines

A machine executes one instruction at a time.  What the instruction at the
instruction pointer amounts to is settled first, as an `Effect` with every
operand resolved: that part only reads, so whatever goes wrong in it leaves the
machine as it was.  The effect is then carried out in one go.  Input and output
are effects like the others, and leave it to the surroundings of the machine
where a value comes from or goes to, and whether the machine has to wait for
that.
-/

namespace CellMachines

/-- Limits on the work and the memory of one machine. -/
structure Limits where
  steps : Option Nat := none
  memory : Option Nat := none
  /-- The number of cells that the system has for the memory. -/
  available : Nat := Memory.addressable
  deriving DecidableEq, Repr

/-- How things stand with a machine between two instructions. -/
inductive Status where
  | running | awaitingInput | halted | faulted
  deriving DecidableEq, Repr

namespace Status

/-- Whether no instruction will ever be executed again. -/
def isTerminal : Status → Bool
  | .halted | .faulted => true
  | .running | .awaitingInput => false

def name : Status → String
  | .running => "Running"
  | .awaitingInput => "AwaitingInput"
  | .halted => "Halted"
  | .faulted => "Faulted"

end Status

/-- What an instruction does once its operands are known. -/
inductive Effect where
  /-- Write a computed value to a cell. -/
  | store (target : Nat) (value : Word)
  /-- Write the next input value to a cell. -/
  | input (target : Nat)
  | output (value : Word)
  /-- Go on at an instruction pointer, which for a jump that is not taken is the
  next one. -/
  | jump (target : Nat)
  /-- Replace the relative base. -/
  | rebase (base : Word)
  | halt
  deriving DecidableEq, Repr

/-- A machine between two instructions, with its limits. -/
structure Machine where
  memory : Memory
  ip : Nat
  base : Word
  status : Status
  /-- The number of instructions completed. -/
  steps : Nat
  stepLimit : Option Nat
  deriving DecidableEq

namespace Machine

/-- The machine that stands before the first cell of a program. -/
def start (program : Program) (limits : Limits) : Machine where
  memory := {
    cells := program.cells.toArray
    limit := limits.memory
    available := limits.available }
  ip := 0
  base := 0
  status := .running
  steps := 0
  stepLimit := limits.steps

/-! ## Operands -/

/-- The operand cell of a slot, as it stands in memory. -/
def parameter (machine : Machine) (slot : Nat) : Word :=
  machine.memory.get (machine.ip + 1 + slot)

/-- The word at a distance from the relative base. -/
def fromBase (machine : Machine) (distance : Word) : Except Failure Word :=
  match Word.add? machine.base distance with
  | some address => .ok address
  | none => .error (.arithmeticOverflow machine.ip)

/-- The content of the cell at an address.  A refusal of the memory is a failure
of the instruction at hand. -/
def load (machine : Machine) (address : Word) : Except Failure Word :=
  match machine.memory.read address with
  | .ok value => .ok value
  | .error refusal => .error (refusal.failureAt machine.ip)

/-- The value of an operand: the content of a cell, unless the operand is
immediate. -/
def operand (machine : Machine) (mode : Mode) (slot : Nat) :
    Except Failure Word :=
  match mode with
  | .position => machine.load (machine.parameter slot)
  | .immediate => .ok (machine.parameter slot)
  | .relative => do machine.load (← machine.fromBase (machine.parameter slot))

/-- The index of the cell that a word addresses. -/
def cellAt (machine : Machine) (address : Word) : Except Failure Nat :=
  match address.address? with
  | some index => .ok index
  | none => .error (.negativeAddress address.toInt machine.ip)

/-- The index of the cell that an operand names as the one to be written. -/
def target (machine : Machine) (mode : Mode) (slot : Nat) :
    Except Failure Nat :=
  match mode with
  | .position => machine.cellAt (machine.parameter slot)
  | .immediate => .error (.invalidWriteTarget machine.ip)
  | .relative => do machine.cellAt (← machine.fromBase (machine.parameter slot))

/-! ## The effect of an instruction -/

/-- The effect of an instruction that combines two values into a third, in range
or not. -/
def combine (machine : Machine) (instruction : Instruction)
    (operation : Word → Word → Option Word) : Except Failure Effect := do
  let left ← machine.operand instruction.first 0
  let right ← machine.operand instruction.second 1
  let target ← machine.target instruction.third 2
  match operation left right with
  | some value => return .store target value
  | none => .error (.arithmeticOverflow machine.ip)

/-- The effect of an instruction that jumps when its first operand is as
required, and else goes on behind its two operands. -/
def branch (machine : Machine) (instruction : Instruction)
    (taken : Word → Bool) : Except Failure Effect := do
  let condition ← machine.operand instruction.first 0
  let destination ← machine.operand instruction.second 1
  if taken condition then return .jump (← machine.cellAt destination)
  else return .jump (machine.ip + 3)

/-- The effect of an instruction as if it stood at the instruction pointer. -/
def effectOf (machine : Machine) (instruction : Instruction) :
    Except Failure Effect :=
  match instruction.opcode with
  | .add => machine.combine instruction Word.add?
  | .mul => machine.combine instruction Word.mul?
  | .lessThan =>
    machine.combine instruction fun left right =>
      some (Word.ofBool (left.toInt < right.toInt))
  | .equals =>
    machine.combine instruction fun left right =>
      some (Word.ofBool (left = right))
  | .input => do return .input (← machine.target instruction.first 0)
  | .output => do return .output (← machine.operand instruction.first 0)
  | .jumpIfTrue => machine.branch instruction fun condition => condition ≠ 0
  | .jumpIfFalse => machine.branch instruction fun condition => condition = 0
  | .adjustBase => do
    return .rebase (← machine.fromBase (← machine.operand instruction.first 0))
  | .halt => .ok .halt

/-- The effect of the instruction at the instruction pointer. -/
def effect (machine : Machine) : Except Failure Effect := do
  machine.effectOf
    (← Instruction.decode (machine.memory.get machine.ip) machine.ip)

/-- What the machine does next: nothing after its end, nothing beyond its step
limit, and else the instruction at hand. -/
def request (machine : Machine) : Except Failure Effect :=
  if machine.status.isTerminal then .error .notRunning
  else
    match machine.stepLimit with
    | some limit =>
      if limit ≤ machine.steps then .error (.stepLimitExceeded limit)
      else machine.effect
    | none => machine.effect

/-! ## Carrying it out -/

/-- The machine after a failure.  Running out of input is not an end: the
machine waits, with the instruction pointer still on the same instruction. -/
def failed (machine : Machine) (failure : Failure) : Machine :=
  if machine.status.isTerminal then machine
  else
    match failure with
    | .inputExhausted => { machine with status := .awaitingInput }
    | _ => { machine with status := .faulted }

/-- Why the instruction at hand cannot write a cell. -/
def storeFailure? (machine : Machine) (target : Nat) : Option Failure :=
  (machine.memory.writeRefusal? target).map
    (Memory.Refusal.failureAt machine.ip)

/-- The machine behind an instruction of the given width that wrote a cell. -/
def stored (machine : Machine) (target : Nat) (value : Word) (width : Nat) :
    Machine :=
  { machine with
    memory := machine.memory.set target value
    ip := machine.ip + width
    steps := machine.steps + 1 }

/-- The machine once its input instruction has got a value. -/
def resumed (machine : Machine) : Machine :=
  { machine with status := .running }

def sent (machine : Machine) : Machine :=
  { machine with ip := machine.ip + 2, steps := machine.steps + 1 }

/-- The machine behind a jump, taken or not. -/
def jumped (machine : Machine) (target : Nat) : Machine :=
  { machine with ip := target, steps := machine.steps + 1 }

def rebased (machine : Machine) (base : Word) : Machine :=
  { machine with base, ip := machine.ip + 2, steps := machine.steps + 1 }

/-- Halting completes an instruction, but does not go on behind it. -/
def halted (machine : Machine) : Machine :=
  { machine with status := .halted, steps := machine.steps + 1 }

end Machine

end CellMachines
