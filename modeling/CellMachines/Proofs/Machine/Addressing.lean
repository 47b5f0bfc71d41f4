import CellMachines.Proofs.Machine.Ideal
import CellMachines.Proofs.Machine.Effects

/-!
# Cells found by their addresses

A machine counts its cells with natural numbers, however many there are.  The
memory is asked for a cell by a word, though, and an index that is no word turns
into another one on the way there.  Nor does the memory know which instruction
asks: where it fails by itself the instruction pointer is left at zero, until
somebody puts it right.

Here a step is gone through once more in this manner, and every index that is
computed on the way is noted as a figure.  The cells of the instruction itself
are fetched without a look at what may go wrong.  It comes to the same as the
step of the machine all the same, with words for figures, wherever the next
instruction and its operands have indices that are words
(`Addressing.step_concurs`).
-/

namespace CellMachines

/-- The failure with the instruction pointer put right, if it is one of those
that the memory raises. -/
def Failure.locatedAt (ip : Nat) : Failure → Failure
  | .negativeAddress address _ => .negativeAddress address ip
  | .allocationFailed address _ => .allocationFailed address ip
  | failure => failure

theorem Memory.Refusal.locatedAt_failureAt (refusal : Memory.Refusal)
    (ip placeholder : Nat) :
    (refusal.failureAt placeholder).locatedAt ip = refusal.failureAt ip := by
  cases refusal <;> rfl

theorem Word.toInt_ofInt {value : Int} (inRange : Word.InRange value) :
    (Int64.ofInt value).toInt = value := by
  apply Word.ofInt?_eq_some_iff.mp
  rw [Word.ofInt?, if_pos inRange]

theorem Word.address?_ofInt {index : Nat} (inRange : Word.InRange index) :
    Word.address? (Int64.ofInt index) = some index :=
  Word.address?_eq_some_iff.mpr (Word.toInt_ofInt inRange)

namespace Reckoning

variable {α β : Type}

/-- A result that takes no figures. -/
def lift : Except Failure α → Reckoning α
  | .ok value => pure value
  | .error failure => .fail failure

/-- The reckoning arrives at the result, with figures that all are words. -/
structure Confirms (reckoning : Reckoning α) (result : Except Failure α) :
    Prop where
  inRange : reckoning.InRange
  result_eq : reckoning.result = result

variable {reckoning : Reckoning α} {further : α → Reckoning β}
  {result : Except Failure α} {later : α → Except Failure β}
  {ending : Except Failure β}

theorem confirms_pure (value : α) :
    (pure value : Reckoning α).Confirms (.ok value) :=
  ⟨inRange_pure value, rfl⟩

theorem confirms_fail (failure : Failure) :
    (fail failure : Reckoning α).Confirms (.error failure) :=
  ⟨inRange_fail failure, rfl⟩

theorem confirms_lift (result : Except Failure α) :
    (lift result).Confirms result := by
  cases result with
  | ok value => exact confirms_pure value
  | error failure => exact confirms_fail failure

theorem confirms_figure {value : Int} (inside : Word.InRange value) :
    (figure value).Confirms (.ok value) :=
  ⟨inRange_figure_iff.mpr inside, rfl⟩

theorem Confirms.bind_ok {value : α} (first : reckoning.Confirms (.ok value))
    (continues : (further value).Confirms ending) :
    (reckoning >>= further).Confirms ending := by
  constructor
  · rw [inRange_bind_of_ok first.result_eq]
    exact ⟨first.inRange, continues.inRange⟩
  · rw [result_bind_of_ok first.result_eq]
    exact continues.result_eq

theorem Confirms.bind_error {failure : Failure}
    (first : reckoning.Confirms (.error failure)) :
    (reckoning >>= further).Confirms (.error failure) := by
  constructor
  · rw [inRange_bind_of_error first.result_eq]
    exact first.inRange
  · exact result_bind_of_error first.result_eq

theorem Confirms.bind (first : reckoning.Confirms result)
    (continues : ∀ value, result = .ok value →
      (further value).Confirms (later value)) :
    (reckoning >>= further).Confirms (result >>= later) := by
  cases result with
  | ok value => exact first.bind_ok (continues value rfl)
  | error failure => exact first.bind_error

end Reckoning

namespace Addressing

/-! ## Operands -/

/-- The cell at an index, by the address that the index is converted to.  A
failure of the memory is passed on as it is. -/
def fetch (machine : Machine) (index : Nat) : Reckoning Word := do
  let address ← .figure index
  match machine.memory.read (Int64.ofInt address) with
  | .ok cell => pure cell
  | .error refusal => .fail (refusal.failureAt 0)

/-- The cell at an address.  A failure of the memory is put right. -/
def load (machine : Machine) (address : Word) : Except Failure Word :=
  match machine.memory.read address with
  | .ok value => .ok value
  | .error refusal => .error ((refusal.failureAt 0).locatedAt machine.ip)

def operand (machine : Machine) (mode : Mode) (slot : Nat) :
    Reckoning Word := do
  let cell ← fetch machine (machine.ip + 1 + slot)
  match mode with
  | .position => .lift (load machine cell)
  | .immediate => pure cell
  | .relative => .lift (do load machine (← machine.fromBase cell))

def target (machine : Machine) (mode : Mode) (slot : Nat) :
    Reckoning Nat := do
  let cell ← fetch machine (machine.ip + 1 + slot)
  match mode with
  | .position => .lift (machine.cellAt cell)
  | .immediate => .fail (.invalidWriteTarget machine.ip)
  | .relative => .lift (do machine.cellAt (← machine.fromBase cell))

/-! ## Instructions -/

def combine (machine : Machine) (instruction : Instruction)
    (operation : Word → Word → Option Word) : Reckoning Effect := do
  let left ← operand machine instruction.first 0
  let right ← operand machine instruction.second 1
  let target ← target machine instruction.third 2
  match operation left right with
  | some value => return .store target value
  | none => .fail (.arithmeticOverflow machine.ip)

def branch (machine : Machine) (instruction : Instruction)
    (taken : Word → Bool) : Reckoning Effect := do
  let condition ← operand machine instruction.first 0
  let destination ← operand machine instruction.second 1
  if taken condition then
    return .jump (← .lift (machine.cellAt destination))
  else
    let next ← .figure (machine.ip + 3)
    return .jump next.toNat

def effectOf (machine : Machine) (instruction : Instruction) :
    Reckoning Effect :=
  match instruction.opcode with
  | .add => combine machine instruction Word.add?
  | .mul => combine machine instruction Word.mul?
  | .lessThan =>
    combine machine instruction fun left right =>
      some (Word.ofBool (left.toInt < right.toInt))
  | .equals =>
    combine machine instruction fun left right =>
      some (Word.ofBool (left = right))
  | .input => do return .input (← target machine instruction.first 0)
  | .output => do return .output (← operand machine instruction.first 0)
  | .jumpIfTrue => branch machine instruction fun condition => condition ≠ 0
  | .jumpIfFalse => branch machine instruction fun condition => condition = 0
  | .adjustBase => do
    let distance ← operand machine instruction.first 0
    return .rebase (← .lift (machine.fromBase distance))
  | .halt => pure .halt

def effect (machine : Machine) : Reckoning Effect := do
  let cell ← fetch machine machine.ip
  effectOf machine (← .lift (Instruction.decode cell machine.ip))

def request (machine : Machine) : Reckoning Effect :=
  if machine.status.isTerminal then .fail .notRunning
  else
    match machine.stepLimit with
    | some limit =>
      if limit ≤ machine.steps then .fail (.stepLimitExceeded limit)
      else effect machine
    | none => effect machine

/-! ## Steps -/

/-- Goes on behind the cells of an instruction. -/
def advance (machine : Machine) (width : Nat) : Reckoning Machine := do
  let next ← .figure (machine.ip + width)
  return { machine with ip := next.toNat, steps := machine.steps + 1 }

/-- Writes a cell, by the address that its index is converted to. -/
def write (machine : Machine) (index : Nat) (value : Word) :
    Reckoning Machine :=
  match machine.memory.write (Int64.ofInt index) value with
  | .ok memory => pure { machine with memory }
  | .error refusal => .fail ((refusal.failureAt 0).locatedAt machine.ip)

/-- The machine as reckoned, or as a failure leaves it. -/
def conclude (machine : Machine) (reckoning : Reckoning Machine) :
    Reckoning Outcome × Machine :=
  (do
    let _ ← reckoning
    return .proceeds,
  match reckoning.result with
  | .ok next => next
  | .error failure => machine.failed failure)

def settle (machine : Machine) (index : Nat) (value : Word) (width : Nat) :
    Reckoning Outcome × Machine :=
  conclude machine do advance (← write machine index value) width

variable {σ : Type}

def perform (surroundings : Surroundings σ) (machine : Machine) (world : σ) :
    Effect → Reckoning Outcome × Machine × σ
  | .store target value =>
    let (outcome, next) := settle machine target value 4
    (outcome, next, world)
  | .input target =>
    match surroundings.take world with
    | (.error failure, left) => (.fail failure, machine.failed failure, left)
    | (.ok value, left) =>
      let (outcome, next) := settle machine.resumed target value 2
      (outcome, next, left)
  | .output value =>
    match surroundings.put value world with
    | (.error failure, left) => (.fail failure, machine.failed failure, left)
    | (.ok (), left) =>
      let (outcome, next) := conclude machine (advance machine 2)
      (outcome, next, left)
  | .jump target => (pure .proceeds, machine.jumped target, world)
  | .rebase base =>
    let (outcome, next) := conclude machine (advance { machine with base } 2)
    (outcome, next, world)
  | .halt => (pure .halts, machine.halted, world)

def step (surroundings : Surroundings σ) (machine : Machine) (world : σ) :
    Reckoning Outcome × Machine × σ :=
  match (request machine).result with
  | .error failure =>
    (do
      let _ ← request machine
      .fail failure,
    machine.failed failure, world)
  | .ok effect =>
    let (outcome, next, left) := perform surroundings machine world effect
    (do
      let _ ← request machine
      outcome,
    next, left)

/-! ## Operands with indices that are words -/

variable {machine : Machine} {instruction : Instruction} {index slot : Nat}

theorem fetch_confirms (inside : Word.InRange index) :
    (fetch machine index).Confirms (.ok (machine.memory.get index)) := by
  apply (Reckoning.confirms_figure inside).bind_ok
  rw [Memory.read, Word.address?_ofInt inside]
  exact Reckoning.confirms_pure _

theorem load_eq (machine : Machine) (address : Word) :
    load machine address = machine.load address := by
  unfold load Machine.load
  cases machine.memory.read address with
  | ok value => rfl
  | error refusal =>
      exact congrArg Except.error (refusal.locatedAt_failureAt machine.ip 0)

theorem operand_confirms (mode : Mode)
    (inside : Word.InRange (machine.ip + 1 + slot : Nat)) :
    (operand machine mode slot).Confirms (machine.operand mode slot) := by
  apply (fetch_confirms inside).bind_ok
  cases mode with
  | position =>
      rw [load_eq]
      exact Reckoning.confirms_lift _
  | immediate => exact Reckoning.confirms_pure _
  | relative =>
      simp only [load_eq]
      exact Reckoning.confirms_lift _

theorem target_confirms (mode : Mode)
    (inside : Word.InRange (machine.ip + 1 + slot : Nat)) :
    (target machine mode slot).Confirms (machine.target mode slot) := by
  apply (fetch_confirms inside).bind_ok
  cases mode with
  | position | relative => exact Reckoning.confirms_lift _
  | immediate => exact Reckoning.confirms_fail _

/-! ## Instructions with indices that are words -/

/-- Whatever belongs to the instruction at hand has an index that is a word, and
so has the place behind it. -/
structure IsWithinWords (machine : Machine) : Prop where
  ip : Word.InRange machine.ip
  behind : ∀ instruction,
    Instruction.decode (machine.memory.get machine.ip) machine.ip =
        .ok instruction →
      Word.InRange (machine.ip + 4)

section Instructions

variable (behind : Word.InRange (machine.ip + 4))
include behind

theorem inRange_slot (slot : Nat) (within : slot < 3) :
    Word.InRange (machine.ip + 1 + slot : Nat) := by
  obtain ⟨lower, upper⟩ := behind
  constructor <;> omega

theorem inRange_next (width : Nat) (narrow : width ≤ 4) :
    Word.InRange (machine.ip + width) := by
  obtain ⟨lower, upper⟩ := behind
  constructor <;> omega

theorem combine_confirms (instruction : Instruction)
    (operation : Word → Word → Option Word) :
    (combine machine instruction operation).Confirms
      (machine.combine instruction operation) := by
  apply (operand_confirms _ (inRange_slot behind 0 (by decide))).bind
  intro left _
  apply (operand_confirms _ (inRange_slot behind 1 (by decide))).bind
  intro right _
  apply (target_confirms _ (inRange_slot behind 2 (by decide))).bind
  intro target _
  cases operation left right with
  | some value => exact Reckoning.confirms_pure _
  | none => exact Reckoning.confirms_fail _

theorem branch_confirms (instruction : Instruction) (taken : Word → Bool) :
    (branch machine instruction taken).Confirms
      (machine.branch instruction taken) := by
  apply (operand_confirms _ (inRange_slot behind 0 (by decide))).bind
  intro condition _
  apply (operand_confirms _ (inRange_slot behind 1 (by decide))).bind
  intro destination _
  split
  · apply (Reckoning.confirms_lift _).bind
    intro target _
    exact Reckoning.confirms_pure _
  · have inside := inRange_next behind 3 (by decide)
    apply (Reckoning.confirms_figure inside).bind_ok
    exact Reckoning.confirms_pure _

theorem effectOf_confirms (instruction : Instruction) :
    (effectOf machine instruction).Confirms
      (machine.effectOf instruction) := by
  have first := inRange_slot behind 0 (by decide)
  unfold effectOf Machine.effectOf
  cases instruction.opcode with
  | add | mul | lessThan | equals => exact combine_confirms behind _ _
  | jumpIfTrue | jumpIfFalse => exact branch_confirms behind _ _
  | input =>
      apply (target_confirms _ first).bind
      intro target _
      exact Reckoning.confirms_pure _
  | output =>
      apply (operand_confirms _ first).bind
      intro value _
      exact Reckoning.confirms_pure _
  | adjustBase =>
      apply (operand_confirms _ first).bind
      intro distance _
      apply (Reckoning.confirms_lift _).bind
      intro base _
      exact Reckoning.confirms_pure _
  | halt => exact Reckoning.confirms_pure _

end Instructions

variable (within : IsWithinWords machine)
include within

theorem effect_confirms : (effect machine).Confirms machine.effect := by
  apply (fetch_confirms within.ip).bind_ok
  apply (Reckoning.confirms_lift _).bind
  intro instruction decodes
  exact effectOf_confirms (within.behind instruction decodes) instruction

theorem request_confirms : (request machine).Confirms machine.request := by
  have confirms := effect_confirms within
  unfold request Machine.request
  split
  · exact Reckoning.confirms_fail _
  · cases machine.stepLimit with
    | none => exact confirms
    | some limit =>
        simp only
        split
        · exact Reckoning.confirms_fail _
        · exact confirms

omit within

/-! ## Steps with indices that are words -/

/-- Both come to the same, the one with words for figures. -/
def Concurs {α : Type} (reckoned : Reckoning Outcome × α)
    (actual : Except Failure Outcome × α) : Prop :=
  reckoned.1.Confirms actual.1 ∧ reckoned.2 = actual.2

theorem Concurs.leaving {α β : Type} {reckoned : Reckoning Outcome × α}
    {actual : Except Failure Outcome × α} (concurs : Concurs reckoned actual)
    (left : β) :
    Concurs (reckoned.1, reckoned.2, left) (actual.1, actual.2, left) :=
  ⟨concurs.1, congrArg (·, left) concurs.2⟩

theorem conclude_of_ok (before : Machine) {reckoning : Reckoning Machine}
    {next : Machine} (confirms : reckoning.Confirms (.ok next)) :
    Concurs (conclude before reckoning) (.ok .proceeds, next) := by
  constructor
  · exact confirms.bind_ok (Reckoning.confirms_pure _)
  · simp only [conclude, confirms.result_eq]

theorem conclude_of_error (before : Machine) {reckoning : Reckoning Machine}
    {failure : Failure} (confirms : reckoning.Confirms (.error failure)) :
    Concurs (conclude before reckoning)
      (.error failure, before.failed failure) := by
  constructor
  · exact confirms.bind_error
  · simp only [conclude, confirms.result_eq]

theorem advance_confirms (machine : Machine) {width : Nat}
    (inside : Word.InRange (machine.ip + width)) :
    (advance machine width).Confirms (.ok { machine with
      ip := machine.ip + width
      steps := machine.steps + 1 }) :=
  (Reckoning.confirms_figure inside).bind_ok (Reckoning.confirms_pure _)

theorem write_confirms_of_none (value : Word)
    (addressed : Word.InRange index)
    (accepted : machine.storeFailure? index = none) :
    (write machine index value).Confirms (.ok { machine with
      memory := machine.memory.set index value }) := by
  have possible : machine.memory.writeRefusal? index = none :=
    Option.map_eq_none_iff.mp accepted
  simp only [write, Memory.write, Word.address?_ofInt addressed, possible]
  exact Reckoning.confirms_pure _

theorem write_confirms_of_some (value : Word) {failure : Failure}
    (addressed : Word.InRange index)
    (refused : machine.storeFailure? index = some failure) :
    (write machine index value).Confirms (.error failure) := by
  obtain ⟨refusal, impossible, rfl⟩ := Option.map_eq_some_iff.mp refused
  simp only [write, Memory.write, Word.address?_ofInt addressed, impossible,
    refusal.locatedAt_failureAt]
  exact Reckoning.confirms_fail _

theorem settle_concurs (machine : Machine) (value : Word) {width : Nat}
    (addressed : Word.InRange index)
    (inside : Word.InRange (machine.ip + width)) :
    Concurs (settle machine index value width)
      (machine.settle index value width) := by
  unfold Machine.settle
  cases refused : machine.storeFailure? index with
  | some failure =>
      have written := write_confirms_of_some value addressed refused
      exact conclude_of_error machine written.bind_error
  | none =>
      have written := write_confirms_of_none value addressed refused
      apply conclude_of_ok machine
      exact written.bind_ok (advance_confirms _ inside)

theorem inRange_of_cellAt {address : Word} {target : Nat}
    (found : machine.cellAt address = .ok target) : Word.InRange target := by
  rw [← Machine.toInt_of_cellAt found]
  exact Word.inRange_toInt address

theorem inRange_of_names {target : Nat}
    (named : machine.Names instruction slot target) : Word.InRange target := by
  obtain ⟨mode, _, found⟩ := named
  cases mode with
  | position => exact inRange_of_cellAt found
  | immediate => cases found
  | relative =>
      obtain ⟨address, _, found⟩ := bind_eq_ok_iff.mp found
      exact inRange_of_cellAt found

theorem perform_concurs {σ : Type} (surroundings : Surroundings σ) (world : σ)
    {effect : Effect} (within : IsWithinWords machine)
    (asks : machine.request = .ok effect) :
    Concurs (perform surroundings machine world effect)
      (machine.step surroundings world) := by
  obtain ⟨instruction, decodes, causes⟩ := Machine.causes_of_request asks
  have behind := within.behind instruction decodes
  have goes_on := inRange_next behind 2 (by decide)
  rw [Machine.step, asks]
  cases causes with
  | @store _ value _ named =>
      have addressed := inRange_of_names named
      exact (settle_concurs machine value addressed behind).leaving world
  | input _ named =>
      simp only [perform]
      rcases surroundings.take world with ⟨failure | value, left⟩
      · exact ⟨Reckoning.confirms_fail _, rfl⟩
      · have addressed := inRange_of_names named
        have settles := settle_concurs machine.resumed value addressed goes_on
        exact settles.leaving left
  | output =>
      simp only [perform]
      rcases surroundings.put _ world with ⟨failure | ⟨⟩, left⟩
      · exact ⟨Reckoning.confirms_fail _, rfl⟩
      · have advances := advance_confirms machine goes_on
        exact (conclude_of_ok machine advances).leaving left
  | @rebase base =>
      have advances := advance_confirms { machine with base } goes_on
      exact (conclude_of_ok machine advances).leaving world
  | jump | pass | halt => exact ⟨Reckoning.confirms_pure _, rfl⟩

/-- With cells found by their addresses a step comes to the same. -/
theorem step_concurs {σ : Type} (surroundings : Surroundings σ) (world : σ)
    (within : IsWithinWords machine) :
    Concurs (step surroundings machine world)
      (machine.step surroundings world) := by
  have asked := request_confirms within
  cases asks : machine.request with
  | error failure =>
      rw [asks] at asked
      have same : machine.step surroundings world =
          (.error failure, machine.failed failure, world) := by
        rw [Machine.step, asks]
      rw [step, asked.result_eq, same]
      exact ⟨asked.bind_error, rfl⟩
  | ok effect =>
      rw [asks] at asked
      have performs := perform_concurs surroundings world within asks
      rw [step, asked.result_eq]
      exact ⟨asked.bind_ok performs.1, performs.2⟩

end Addressing

end CellMachines
