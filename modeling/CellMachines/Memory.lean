import CellMachines.Failure

/-!
# Memory

A memory is a finite run of cells that grows on demand.  Every cell beyond its
extent holds zero: reading there finds a zero without growing the memory, and
writing there first extends the memory with zeros up to the written cell.  A
write that would extend the memory past its limit is refused, and so is any
growth to more cells than are available; a refusal changes nothing.
-/

namespace CellMachines

/-- The most cells whose size in bytes is a signed 64-bit number. -/
def Memory.addressable : Nat := 1152921504606846975

/-- The cells up to the extent, and how far this may grow. -/
structure Memory where
  cells : Array Word
  /-- The number of cells that no write may grow the memory beyond. -/
  limit : Option Nat
  /-- The number of cells that no growth at all can go beyond. -/
  available : Nat := Memory.addressable
  deriving DecidableEq

namespace Memory

/-- Why a memory refuses an access.  It does not know what instruction asks. -/
inductive Refusal where
  | negativeAddress (address : Int)
  | beyondLimit (address : Int) (limit : Nat)
  | unavailable (address : Int)
  deriving DecidableEq, Repr

/-- The failure of the instruction at `ip` whose access is refused. -/
def Refusal.failureAt (ip : Nat) : Refusal → Failure
  | .negativeAddress address => .negativeAddress address ip
  | .beyondLimit address limit => .memoryLimitExceeded address limit
  | .unavailable address => .allocationFailed address ip

def length (memory : Memory) : Nat :=
  memory.cells.size

/-- The content of a cell, inside or beyond the extent. -/
def get (memory : Memory) (index : Nat) : Word :=
  memory.cells[index]?.getD 0

/-- The content of the cell that a word addresses. -/
def read (memory : Memory) (address : Word) : Except Refusal Word :=
  match address.address? with
  | some index => .ok (memory.get index)
  | none => .error (.negativeAddress address.toInt)

/-- Zero cells appended up to a length, without regard to any limit. -/
def extend (memory : Memory) (length : Nat) : Memory :=
  { memory with
    cells := memory.cells ++ Array.replicate (length - memory.cells.size) 0 }

/-- Why the memory cannot have `length` cells. -/
def lengthRefusal? (memory : Memory) (length : Nat) : Option Refusal :=
  if memory.length < length ∧ memory.available < length then
    some (.unavailable (min (length - 1 : Nat) 9223372036854775807))
  else none

/-- At least `length` cells; a memory that has them already is left alone. -/
def ensureLength (memory : Memory) (length : Nat) : Except Refusal Memory :=
  match memory.lengthRefusal? length with
  | some refusal => .error refusal
  | none => .ok (memory.extend length)

/-- Why the cell at `index` cannot be written. -/
def writeRefusal? (memory : Memory) (index : Nat) : Option Refusal :=
  if index < memory.length then none
  else
    match memory.limit with
    | some limit =>
      if limit ≤ index then some (.beyondLimit index limit)
      else memory.lengthRefusal? (index + 1)
    | none => memory.lengthRefusal? (index + 1)

/-- The memory with `value` in the cell at `index`, grown as far as that takes.
-/
def set (memory : Memory) (index : Nat) (value : Word) : Memory :=
  let grown := memory.extend (index + 1)
  { grown with cells := grown.cells.setIfInBounds index value }

/-- Writes a cell by its address, and extends the memory up to there if it has
to. -/
def write (memory : Memory) (address value : Word) : Except Refusal Memory :=
  match address.address? with
  | none => .error (.negativeAddress address.toInt)
  | some index =>
    match memory.writeRefusal? index with
    | some refusal => .error refusal
    | none => .ok (memory.set index value)

def text (memory : Memory) : String :=
  Text.commaSeparated memory.cells.toList

def summary (memory : Memory) : String :=
  let limit :=
    match memory.limit with
    | some limit => s!"Some({Text.natText limit})"
    | none => "None"
  s!"Memory \x7b len: {Text.natText memory.length}, limit: {limit} \x7d"

@[simp] theorem length_extend (memory : Memory) (length : Nat) :
    (memory.extend length).length = max memory.length length := by
  simp only [extend, Memory.length, Array.size_append, Array.size_replicate]
  omega

@[simp] theorem get_extend (memory : Memory) (length index : Nat) :
    (memory.extend length).get index = memory.get index := by
  simp only [extend, get, Array.getElem?_append, Array.getElem?_replicate]
  split
  · rfl
  · rename_i beyond
    rw [Array.getElem?_eq_none (by omega)]
    split <;> rfl

@[simp] theorem length_set (memory : Memory) (index : Nat) (value : Word) :
    (memory.set index value).length = max memory.length (index + 1) := by
  have grown := length_extend memory (index + 1)
  simpa [set, Memory.length] using grown

theorem get_set (memory : Memory) (index other : Nat) (value : Word) :
    (memory.set index value).get other =
      if other = index then value else memory.get other := by
  have grown := length_extend memory (index + 1)
  have same := get_extend memory (index + 1) other
  simp only [Memory.length] at grown
  simp only [set, get, Array.getElem?_setIfInBounds] at same ⊢
  by_cases equal : other = index
  · subst equal
    simp [show other < (memory.extend (other + 1)).cells.size by omega]
  · rw [if_neg (Ne.symm equal), if_neg equal]
    exact same

@[simp] theorem limit_extend (memory : Memory) (length : Nat) :
    (memory.extend length).limit = memory.limit := rfl

@[simp] theorem available_extend (memory : Memory) (length : Nat) :
    (memory.extend length).available = memory.available := rfl

@[simp] theorem limit_set (memory : Memory) (index : Nat) (value : Word) :
    (memory.set index value).limit = memory.limit := rfl

@[simp] theorem available_set (memory : Memory) (index : Nat) (value : Word) :
    (memory.set index value).available = memory.available := rfl

end Memory

end CellMachines
