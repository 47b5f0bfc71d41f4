import CellMachines.Machine

/-!
# Faults of instructions

Whatever a machine that has not ended yet refuses to do, it refuses with a fault
of its own: no instruction invents a failure that belongs to an input or an
output, and none puts the blame on another instruction.  That holds of every
part that an instruction is made of, and so of the whole.
-/

namespace CellMachines

namespace Failure

/-- The instruction pointer that the failure carries. -/
def ip? : Failure → Option Nat
  | .invalidOpcode _ ip | .invalidMode _ _ ip | .invalidWriteTarget ip
  | .negativeAddress _ ip | .arithmeticOverflow ip | .allocationFailed _ ip =>
    some ip
  | _ => none

/-- The machine itself is at fault, and no other instruction than the one at
`ip`. -/
structure IsFaultAt (ip : Nat) (failure : Failure) : Prop where
  isFault : failure.isFault = true
  blames : ∀ blamed ∈ failure.ip?, blamed = ip

variable {ip : Nat} {failure : Failure}

theorem isFaultAt_of_some (fault : failure.isFault = true)
    (same : failure.ip? = some ip) : failure.IsFaultAt ip := by
  refine ⟨fault, ?_⟩
  intro blamed member
  rw [same] at member
  exact (Option.mem_some.mp member).symm

theorem isFaultAt_of_none (fault : failure.isFault = true)
    (unblamed : failure.ip? = none) : failure.IsFaultAt ip := by
  refine ⟨fault, ?_⟩
  intro blamed member
  rw [unblamed] at member
  cases member

end Failure

namespace Machine

/-- No failure but a fault of the machine itself. -/
def OnlyFaults {α : Type} (result : Except Failure α) : Prop :=
  ∀ failure, result = .error failure → failure.isFault = true

/-- No failure but a fault of the machine at the instruction at `ip`. -/
def OnlyFaultsAt {α : Type} (ip : Nat) (result : Except Failure α) : Prop :=
  ∀ failure, result = .error failure → failure.IsFaultAt ip

section Results

variable {α β : Type} {ip : Nat} {failure : Failure}

theorem onlyFaultsAt_ok (value : α) :
    OnlyFaultsAt ip (.ok value : Except Failure α) := by
  intro failure impossible
  cases impossible

theorem onlyFaultsAt_error (fault : failure.IsFaultAt ip) :
    OnlyFaultsAt ip (.error failure : Except Failure α) := by
  intro other same
  cases same
  exact fault

theorem onlyFaultsAt_blaming (fault : failure.isFault = true)
    (same : failure.ip? = some ip) :
    OnlyFaultsAt ip (.error failure : Except Failure α) :=
  onlyFaultsAt_error (Failure.isFaultAt_of_some fault same)

theorem OnlyFaultsAt.bind {result : Except Failure α}
    {next : α → Except Failure β} (first : OnlyFaultsAt ip result)
    (later : ∀ value, OnlyFaultsAt ip (next value)) :
    OnlyFaultsAt ip (result >>= next) := by
  cases result with
  | ok value => exact later value
  | error failure => exact onlyFaultsAt_error (first failure rfl)

theorem isFaultAt_failureAt (refusal : Memory.Refusal) (ip : Nat) :
    (refusal.failureAt ip).IsFaultAt ip := by
  cases refusal with
  | negativeAddress | unavailable => exact Failure.isFaultAt_of_some rfl rfl
  | beyondLimit => exact Failure.isFaultAt_of_none rfl rfl

end Results

/-! ## Parts of an instruction -/

theorem onlyFaultsAt_decodeMode (cell : Word) (ip : Nat) (digit : Int) :
    OnlyFaultsAt ip (Instruction.decodeMode cell ip digit) := by
  unfold Instruction.decodeMode
  split
  · exact onlyFaultsAt_ok _
  · exact onlyFaultsAt_blaming rfl rfl

theorem onlyFaultsAt_decode (cell : Word) (ip : Nat) :
    OnlyFaultsAt ip (Instruction.decode cell ip) := by
  unfold Instruction.decode
  split
  · exact onlyFaultsAt_blaming rfl rfl
  · apply (onlyFaultsAt_decodeMode _ _ _).bind
    intro first
    apply (onlyFaultsAt_decodeMode _ _ _).bind
    intro second
    apply (onlyFaultsAt_decodeMode _ _ _).bind
    intro third
    split
    · exact onlyFaultsAt_ok _
    · exact onlyFaultsAt_blaming rfl rfl

variable (machine : Machine)

theorem onlyFaultsAt_fromBase (distance : Word) :
    OnlyFaultsAt machine.ip (machine.fromBase distance) := by
  unfold fromBase
  split
  · exact onlyFaultsAt_ok _
  · exact onlyFaultsAt_blaming rfl rfl

theorem onlyFaultsAt_load (address : Word) :
    OnlyFaultsAt machine.ip (machine.load address) := by
  unfold load
  split
  · exact onlyFaultsAt_ok _
  · exact onlyFaultsAt_error (isFaultAt_failureAt _ _)

theorem onlyFaultsAt_operand (mode : Mode) (slot : Nat) :
    OnlyFaultsAt machine.ip (machine.operand mode slot) := by
  cases mode with
  | position => exact machine.onlyFaultsAt_load _
  | immediate => exact onlyFaultsAt_ok _
  | relative =>
      apply (machine.onlyFaultsAt_fromBase _).bind
      intro address
      exact machine.onlyFaultsAt_load address

theorem onlyFaultsAt_cellAt (address : Word) :
    OnlyFaultsAt machine.ip (machine.cellAt address) := by
  unfold cellAt
  split
  · exact onlyFaultsAt_ok _
  · exact onlyFaultsAt_blaming rfl rfl

theorem onlyFaultsAt_target (mode : Mode) (slot : Nat) :
    OnlyFaultsAt machine.ip (machine.target mode slot) := by
  cases mode with
  | position => exact machine.onlyFaultsAt_cellAt _
  | immediate => exact onlyFaultsAt_blaming rfl rfl
  | relative =>
      apply (machine.onlyFaultsAt_fromBase _).bind
      intro address
      exact machine.onlyFaultsAt_cellAt address

/-! ## Instructions -/

theorem onlyFaultsAt_combine (instruction : Instruction)
    (operation : Word → Word → Option Word) :
    OnlyFaultsAt machine.ip (machine.combine instruction operation) := by
  apply (machine.onlyFaultsAt_operand _ _).bind
  intro left
  apply (machine.onlyFaultsAt_operand _ _).bind
  intro right
  apply (machine.onlyFaultsAt_target _ _).bind
  intro target
  split
  · exact onlyFaultsAt_ok _
  · exact onlyFaultsAt_blaming rfl rfl

theorem onlyFaultsAt_branch (instruction : Instruction)
    (taken : Word → Bool) :
    OnlyFaultsAt machine.ip (machine.branch instruction taken) := by
  apply (machine.onlyFaultsAt_operand _ _).bind
  intro condition
  apply (machine.onlyFaultsAt_operand _ _).bind
  intro destination
  split
  · exact (machine.onlyFaultsAt_cellAt _).bind fun _ => onlyFaultsAt_ok _
  · exact onlyFaultsAt_ok _

theorem onlyFaultsAt_effectOf (instruction : Instruction) :
    OnlyFaultsAt machine.ip (machine.effectOf instruction) := by
  unfold effectOf
  cases instruction.opcode with
  | add | mul | lessThan | equals => exact machine.onlyFaultsAt_combine _ _
  | jumpIfTrue | jumpIfFalse => exact machine.onlyFaultsAt_branch _ _
  | input =>
      exact (machine.onlyFaultsAt_target _ _).bind fun _ => onlyFaultsAt_ok _
  | output =>
      exact (machine.onlyFaultsAt_operand _ _).bind fun _ => onlyFaultsAt_ok _
  | adjustBase =>
      apply (machine.onlyFaultsAt_operand _ _).bind
      intro distance
      apply (machine.onlyFaultsAt_fromBase _).bind
      intro base
      exact onlyFaultsAt_ok _
  | halt => exact onlyFaultsAt_ok _

theorem onlyFaultsAt_effect : OnlyFaultsAt machine.ip machine.effect :=
  (onlyFaultsAt_decode _ _).bind machine.onlyFaultsAt_effectOf

variable {machine}

theorem onlyFaultsAt_request (running : machine.status.isTerminal = false) :
    OnlyFaultsAt machine.ip machine.request := by
  simp only [request, running, Bool.false_eq_true, if_false]
  split
  · split
    · exact onlyFaultsAt_error (Failure.isFaultAt_of_none rfl rfl)
    · exact machine.onlyFaultsAt_effect
  · exact machine.onlyFaultsAt_effect

theorem onlyFaults_request (running : machine.status.isTerminal = false) :
    OnlyFaults machine.request :=
  fun failure fails => (onlyFaultsAt_request running failure fails).isFault

theorem isFaultAt_of_storeFailure? {target : Nat} {failure : Failure}
    (refused : machine.storeFailure? target = some failure) :
    failure.IsFaultAt machine.ip := by
  obtain ⟨refusal, _, rfl⟩ := Option.map_eq_some_iff.mp refused
  exact isFaultAt_failureAt refusal machine.ip

theorem isFault_of_storeFailure? {target : Nat} {failure : Failure}
    (refused : machine.storeFailure? target = some failure) :
    failure.isFault = true :=
  (isFaultAt_of_storeFailure? refused).isFault

end Machine

end CellMachines
