import CellMachines.Machine.Run

/-!
# The ideal machine

The machine as it is meant before anything is finite: its values are all
integers, and its memory has a cell at every natural number, with zeros behind
the program.  It goes wrong only where a program does, by a cell that is no
instruction, a target that is no cell, a negative address, or a lack of inputs.

A machine of words with a bounded memory can follow it only so far.  So that one
can tell how far, the ideal machine notes every sum and product it computes,
addresses and bases included, as its `figures`.  `departure?` tells from these,
and from the cell to be written, whether the next instruction is beyond a
machine of words and what such a machine has to answer instead.
-/

namespace CellMachines

/-- A computation on integers, with the sums and products that it arrives at
before it yields or fails. -/
structure Reckoning (α : Type) where
  figures : List Int
  result : Except Failure α

namespace Reckoning

variable {α β : Type}

instance : Monad Reckoning where
  pure value := { figures := [], result := .ok value }
  bind first next :=
    match first.result with
    | .ok value =>
      { figures := first.figures ++ (next value).figures
        result := (next value).result }
    | .error failure => { figures := first.figures, result := .error failure }

/-- Fails without having computed anything. -/
def fail (failure : Failure) : Reckoning α where
  figures := []
  result := .error failure

/-- Yields a value that has been computed, and notes it. -/
def figure (value : Int) : Reckoning Int where
  figures := [value]
  result := .ok value

/-- Whether all the figures are words. -/
def InRange (reckoning : Reckoning α) : Prop :=
  ∀ figure ∈ reckoning.figures, Word.InRange figure

instance (reckoning : Reckoning α) : Decidable reckoning.InRange :=
  inferInstanceAs (Decidable (∀ figure ∈ reckoning.figures, _))

variable {first : Reckoning α} {next : α → Reckoning β}

theorem inRange_pure (value : α) : (pure value : Reckoning α).InRange := by
  intro figure member
  cases member

theorem inRange_fail (failure : Failure) :
    (fail failure : Reckoning α).InRange := by
  intro figure member
  cases member

theorem inRange_figure_iff {value : Int} :
    (figure value).InRange ↔ Word.InRange value := by
  simp [InRange, figure]

theorem result_bind_of_ok {value : α} (yields : first.result = .ok value) :
    (first >>= next).result = (next value).result := by
  simp only [bind, yields]

theorem result_bind_of_error {failure : Failure}
    (fails : first.result = .error failure) :
    (first >>= next).result = .error failure := by
  simp only [bind, fails]

theorem inRange_bind_of_ok {value : α} (yields : first.result = .ok value) :
    (first >>= next).InRange ↔ first.InRange ∧ (next value).InRange := by
  simp only [InRange, bind, yields, List.forall_mem_append]

theorem inRange_bind_of_error {failure : Failure}
    (fails : first.result = .error failure) :
    (first >>= next).InRange ↔ first.InRange := by
  simp only [InRange, bind, fails]

/-- A figure stays one, whatever comes later. -/
theorem not_inRange_bind (beyond : ¬first.InRange) :
    ¬(first >>= next).InRange := by
  cases result : first.result with
  | ok value =>
      rw [inRange_bind_of_ok result]
      intro inside
      exact beyond inside.1
  | error failure => rwa [inRange_bind_of_error result]

end Reckoning

/-- The number of cells that the memory of a machine can come to have when the
system has so many for it: a program that is longer is there all the same. -/
def Program.reach (program : Program) (available : Nat) : Nat :=
  max program.cells.length available

/-- A machine of integers, together with its inputs and outputs. -/
structure Ideal where
  memory : Nat → Int
  ip : Nat
  base : Int
  /-- The inputs that have not been consumed. -/
  waiting : List Int
  emitted : List Int

namespace Ideal

def start (program : Program) (inputs : List Word) : Ideal where
  memory index := (program.cells.map Int64.toInt).getD index 0
  ip := 0
  base := 0
  waiting := inputs.map Int64.toInt
  emitted := []

/-! ## Operands -/

def decodeMode (cell : Int) (ip : Nat) (digit : Int) : Reckoning Mode :=
  match Mode.ofDigit? digit with
  | some mode => pure mode
  | none => .fail (.invalidMode digit cell ip)

def decode (cell : Int) (ip : Nat) : Reckoning Instruction :=
  if cell < 0 then .fail (.invalidOpcode cell ip)
  else do
    let first ← decodeMode cell ip (cell / 100 % 10)
    let second ← decodeMode cell ip (cell / 1000 % 10)
    let third ← decodeMode cell ip (cell / 10000 % 10)
    match Opcode.ofCode? (cell % 100) with
    | some opcode => return { opcode, first, second, third }
    | none => .fail (.invalidOpcode (cell % 100) ip)

def parameter (ideal : Ideal) (slot : Nat) : Int :=
  ideal.memory (ideal.ip + 1 + slot)

/-- The sum of the base and a distance, which is a figure. -/
def fromBase (ideal : Ideal) (distance : Int) : Reckoning Int :=
  .figure (ideal.base + distance)

def cellAt (ideal : Ideal) (address : Int) : Reckoning Nat :=
  if address < 0 then .fail (.negativeAddress address ideal.ip)
  else pure address.toNat

def load (ideal : Ideal) (address : Int) : Reckoning Int := do
  return ideal.memory (← ideal.cellAt address)

def operand (ideal : Ideal) (mode : Mode) (slot : Nat) : Reckoning Int :=
  match mode with
  | .position => ideal.load (ideal.parameter slot)
  | .immediate => pure (ideal.parameter slot)
  | .relative => do ideal.load (← ideal.fromBase (ideal.parameter slot))

def target (ideal : Ideal) (mode : Mode) (slot : Nat) : Reckoning Nat :=
  match mode with
  | .position => ideal.cellAt (ideal.parameter slot)
  | .immediate => .fail (.invalidWriteTarget ideal.ip)
  | .relative => do ideal.cellAt (← ideal.fromBase (ideal.parameter slot))

/-! ## Instructions -/

/-- The effects of instructions on integers. -/
inductive Effect where
  | store (target : Nat) (value : Int)
  | input (target : Nat)
  | output (value : Int)
  | jump (target : Nat)
  | rebase (base : Int)
  | halt

def combine (ideal : Ideal) (instruction : Instruction)
    (operation : Int → Int → Reckoning Int) : Reckoning Effect := do
  let left ← ideal.operand instruction.first 0
  let right ← ideal.operand instruction.second 1
  let target ← ideal.target instruction.third 2
  return .store target (← operation left right)

def branch (ideal : Ideal) (instruction : Instruction) (taken : Int → Bool) :
    Reckoning Effect := do
  let condition ← ideal.operand instruction.first 0
  let destination ← ideal.operand instruction.second 1
  if taken condition then return .jump (← ideal.cellAt destination)
  else return .jump (ideal.ip + 3)

def effectOf (ideal : Ideal) (instruction : Instruction) : Reckoning Effect :=
  match instruction.opcode with
  | .add => ideal.combine instruction fun left right => .figure (left + right)
  | .mul => ideal.combine instruction fun left right => .figure (left * right)
  | .lessThan =>
    ideal.combine instruction fun left right =>
      pure (if left < right then 1 else 0)
  | .equals =>
    ideal.combine instruction fun left right =>
      pure (if left = right then 1 else 0)
  | .input => do return .input (← ideal.target instruction.first 0)
  | .output => do return .output (← ideal.operand instruction.first 0)
  | .jumpIfTrue => ideal.branch instruction fun condition => condition ≠ 0
  | .jumpIfFalse => ideal.branch instruction fun condition => condition = 0
  | .adjustBase => do
    return .rebase (← ideal.fromBase (← ideal.operand instruction.first 0))
  | .halt => pure .halt

/-- The effect of the instruction at the instruction pointer, with the figures
that lead to it. -/
def effect (ideal : Ideal) : Reckoning Effect := do
  ideal.effectOf (← decode (ideal.memory ideal.ip) ideal.ip)

def stored (ideal : Ideal) (target : Nat) (value : Int) (width : Nat) : Ideal :=
  { ideal with
    memory := fun index =>
      if index = target then value else ideal.memory index
    ip := ideal.ip + width }

/-- Carries an effect out.  Only an input can still go wrong, for want of one.
-/
def perform (ideal : Ideal) : Effect → Except Failure Outcome × Ideal
  | .store target value => (.ok .proceeds, ideal.stored target value 4)
  | .input target =>
    match ideal.waiting with
    | [] => (.error .inputExhausted, ideal)
    | value :: waiting =>
      (.ok .proceeds, { ideal with waiting }.stored target value 2)
  | .output value =>
    (.ok .proceeds,
      { ideal with emitted := ideal.emitted ++ [value], ip := ideal.ip + 2 })
  | .jump target => (.ok .proceeds, { ideal with ip := target })
  | .rebase base => (.ok .proceeds, { ideal with base, ip := ideal.ip + 2 })
  | .halt => (.ok .halts, ideal)

/-- Executes the instruction at hand, or stays where it is. -/
def step (ideal : Ideal) : Except Failure Outcome × Ideal :=
  match ideal.effect.result with
  | .ok effect => ideal.perform effect
  | .error failure => (.error failure, ideal)

/-- How the machine has ended within a number of instructions, if it has, and
where it stands then. -/
def after : Nat → Ideal → Option (Except Failure Unit) × Ideal
  | 0, ideal => (none, ideal)
  | steps + 1, ideal =>
    match ideal.step with
    | (.ok .proceeds, next) => after steps next
    | (.ok .halts, last) => (some (.ok ()), last)
    | (.error failure, last) => (some (.error failure), last)

/-! ## The limits of words -/

/-- The failure of a machine of words at the next instruction of the ideal
machine, and where that leaves it, if it cannot follow: because a figure is no
word, or because the cell to be written is beyond the reach of its memory.  In
the latter case an input is consumed before it turns out that it cannot be
stored. -/
def departure? (reach : Nat) (ideal : Ideal) : Option (Failure × Ideal) :=
  if ideal.effect.InRange then
    match ideal.effect.result with
    | .ok (.store target _) =>
      if reach ≤ target then some (.allocationFailed target ideal.ip, ideal)
      else none
    | .ok (.input target) =>
      match ideal.waiting with
      | [] => none
      | _ :: waiting =>
        if reach ≤ target then
          some (.allocationFailed target ideal.ip, { ideal with waiting })
        else none
    | _ => none
  else some (.arithmeticOverflow ideal.ip, ideal)

/-- The departure at the instruction that comes after a number of them, if the
ideal machine gets there. -/
def departureAfter? (reach steps : Nat) (ideal : Ideal) :
    Option (Failure × Ideal) :=
  match ideal.after steps with
  | (none, next) => next.departure? reach
  | (some _, _) => none

variable {ideal next : Ideal}

/-- None of the first instructions is beyond a machine of words. -/
def StaysWithin (reach steps : Nat) (ideal : Ideal) : Prop :=
  ∀ done < steps, ideal.departureAfter? reach done = none

theorem after_succ (stepped : ideal.step = (.ok .proceeds, next))
    (steps : Nat) : ideal.after (steps + 1) = next.after steps := by
  rw [after, stepped]

theorem departureAfter?_succ (stepped : ideal.step = (.ok .proceeds, next))
    (reach steps : Nat) :
    ideal.departureAfter? reach (steps + 1) =
      next.departureAfter? reach steps := by
  rw [departureAfter?, after_succ stepped, departureAfter?]

theorem StaysWithin.head {reach steps : Nat}
    (stays : ideal.StaysWithin reach (steps + 1)) :
    ideal.departure? reach = none :=
  stays 0 (Nat.succ_pos steps)

theorem StaysWithin.tail {reach steps : Nat}
    (stays : ideal.StaysWithin reach (steps + 1))
    (stepped : ideal.step = (.ok .proceeds, next)) :
    next.StaysWithin reach steps := by
  intro done less
  rw [← departureAfter?_succ stepped]
  exact stays (done + 1) (Nat.succ_lt_succ less)

/-- Only a machine that goes on comes to a later departure. -/
theorem step_of_departureAfter?_succ {reach steps : Nat}
    {departure : Failure × Ideal}
    (departs : ideal.departureAfter? reach (steps + 1) = some departure) :
    ∃ next, ideal.step = (.ok .proceeds, next) := by
  rw [departureAfter?, after] at departs
  rcases stepped : ideal.step with ⟨failure | outcome, next⟩
  · simp [stepped] at departs
  · cases outcome with
    | proceeds => exact ⟨next, rfl⟩
    | halts => simp [stepped] at departs

theorem departure?_cases {reach : Nat} {failure : Failure} {left : Ideal}
    (departs : ideal.departure? reach = some (failure, left)) :
    left = { ideal with waiting := left.waiting } ∧
      (failure = .arithmeticOverflow ideal.ip ∧ ¬ideal.effect.InRange ∨
        ∃ target ≥ reach, failure = .allocationFailed target ideal.ip) := by
  unfold departure? at departs
  split at departs
  · split at departs
    · split at departs
      · cases departs
        exact ⟨rfl, .inr ⟨_, ‹_›, rfl⟩⟩
      · cases departs
    · split at departs
      · cases departs
      · split at departs
        · cases departs
          exact ⟨rfl, .inr ⟨_, ‹_›, rfl⟩⟩
        · cases departs
    · cases departs
  · cases departs
    exact ⟨rfl, .inl ⟨rfl, ‹_›⟩⟩

theorem departureAfter?_cases {reach steps : Nat} {failure : Failure}
    {left : Ideal}
    (departs : ideal.departureAfter? reach steps = some (failure, left)) :
    ∃ stop, ideal.after steps = (none, stop) ∧
      left = { stop with waiting := left.waiting } ∧
      (failure = .arithmeticOverflow stop.ip ∧ ¬stop.effect.InRange ∨
        ∃ target ≥ reach, failure = .allocationFailed target stop.ip) := by
  unfold departureAfter? at departs
  split at departs
  · exact ⟨_, ‹_›, departure?_cases departs⟩
  · cases departs

end Ideal

end CellMachines
