import CellMachines.Proofs.Machine.Addressing
import CellMachines.Proofs.Machine.Frame

/-!
# Instruction pointers are words

A jump can go to any address there is, and an instruction is followed by the
next one without a look at where the words end.  Still no instruction pointer
leaves them (`inRange_ip_stepped`): a cell beyond the memory holds zero, zero is
no instruction, so what follows an instruction is at most a few cells away from
the memory, and no memory comes near the end of the words.  For that reason the
addresses that cells are found by are always those of the cells, and whatever
goes wrong with an instruction is blamed on this instruction
(`keepsToWords_stepped`).
-/

namespace CellMachines

theorem Memory.get_of_le {memory : Memory} {index : Nat}
    (beyond : memory.length ≤ index) : memory.get index = 0 := by
  rw [Memory.get, Array.getElem?_eq_none beyond]
  rfl

/-- Only a cell within the memory is an instruction. -/
theorem Instruction.lt_length_of_decode {memory : Memory} {index ip : Nat}
    {instruction : Instruction}
    (decodes : decode (memory.get index) ip = .ok instruction) :
    index < memory.length := by
  apply Nat.lt_of_not_le
  intro beyond
  rw [Memory.get_of_le beyond] at decodes
  cases decodes

namespace Occasion

variable {σ : Type}

/-- Whatever an end of the surroundings fails with here is no fault of an
instruction. -/
structure IsBlameless (occasion : Occasion σ) : Prop where
  take : ∀ failure,
    (occasion.surroundings.take occasion.world).1 = .error failure →
      failure.ip? = none
  put : ∀ value failure,
    (occasion.surroundings.put value occasion.world).1 = .error failure →
      failure.ip? = none

end Occasion

/-- A queue of inputs and a record of outputs blame nobody. -/
theorem Tape.isBlameless (tape : Tape) (unblamed : tape.dry.ip? = none) :
    Occasion.IsBlameless ⟨Tape.surroundings, tape⟩ := by
  constructor
  · intro failure fails
    simp only [surroundings, Tape.take] at fails
    split at fails
    · cases fails
      exact unblamed
    · cases fails
  · intro value failure fails
    simp only [surroundings, Tape.put] at fails
    split at fails
    · rename_i refused
      cases fails
      unfold refusal? at refused
      split at refused
      · split at refused
        · cases refused
          rfl
        · cases refused
      · cases refused
    · cases fails

namespace Machine

open Addressing (Concurs)

variable {σ : Type} {surroundings : Surroundings σ} {machine next : Machine}
  {world left : σ} {outcome : Except Failure Outcome}

/-! ## Instruction pointers -/

theorem isWithinWords (roomy : machine.memory.length ≤ 2 ^ 60)
    (inside : Word.InRange machine.ip) :
    Addressing.IsWithinWords machine := by
  refine ⟨inside, ?_⟩
  intro instruction decodes
  have within := Instruction.lt_length_of_decode decodes
  constructor <;> omega

theorem Does.inRange_ip
    (does : Does surroundings machine world outcome next left)
    (roomy : machine.memory.length ≤ 2 ^ 60)
    (inside : Word.InRange machine.ip) : Word.InRange next.ip := by
  rcases outcome with failure | _ | _
  · obtain ⟨status, rfl⟩ := does.exists_status
    exact inside
  · obtain ⟨instruction, decodes, performs⟩ := does.exists_performs
    by_cases taken : machine.IsTaken instruction
    · obtain ⟨destination, _, same⟩ := performs.jumps taken
      rw [← same]
      exact Word.inRange_toInt destination
    · have within := Instruction.lt_length_of_decode decodes
      have narrow := instruction.opcode.arity_le
      rw [performs.goes_on taken, Instruction.width]
      constructor <;> omega
  · cases does with
    | halts => exact inside

/-- After any number of steps the instruction pointer is a word. -/
theorem inRange_ip_stepped (program : Program) (limits : Limits)
    (occasions : List (Occasion σ))
    (roomy : ((start program limits).stepped occasions).memory.length ≤
      2 ^ 60) :
    Word.InRange ((start program limits).stepped occasions).ip := by
  induction occasions using List.reverseRec with
  | nil =>
      change Word.InRange (0 : Nat)
      decide
  | append_singleton earlier occasion induction =>
      rw [stepped_concat] at roomy ⊢
      have does := Call.does
        { occasion with machine := (start program limits).stepped earlier }
      have before := Nat.le_trans does.length_mono roomy
      exact does.inRange_ip before (induction before)

/-! ## Blame -/

theorem Does.ip_eq {failure : Failure}
    (does : Does surroundings machine world (.error failure) next left)
    (blameless : Occasion.IsBlameless ⟨surroundings, world⟩) :
    ∀ ip ∈ failure.ip?, ip = machine.ip := by
  cases does with
  | refuses asks =>
      cases terminal : machine.status.isTerminal with
      | true =>
          rw [request, if_pos terminal] at asks
          cases asks
          simp [Failure.ip?]
      | false => exact (onlyFaultsAt_request terminal _ asks).blames
  | overreaches _ refused | loses _ _ refused =>
      exact (isFaultAt_of_storeFailure? refused).blames
  | lacks _ taken =>
      simp [blameless.take failure (congrArg Prod.fst taken)]
  | withholds _ put =>
      simp [blameless.put _ failure (congrArg Prod.fst put)]

/-! ## Words for addresses -/

/-- Nothing about the next step depends on how far the words reach. -/
structure KeepsToWords (machine : Machine) : Prop where
  ip : machine.ip ≤ 9223372036854775807
  fetches : machine.memory.read (Int64.ofInt machine.ip) =
    .ok (machine.memory.get machine.ip)
  behind : ∀ instruction,
    Instruction.decode (machine.memory.get machine.ip) machine.ip =
        .ok instruction →
      machine.ip + 4 ≤ 9223372036854775807 ∧
        ∀ slot < instruction.opcode.arity,
          machine.memory.read (Int64.ofInt (machine.ip + 1 + slot)) =
            .ok (machine.parameter slot)
  concurs : ∀ {σ : Type} (surroundings : Surroundings σ) (world : σ),
    Concurs (Addressing.step surroundings machine world)
      (machine.step surroundings world)
  blames : ∀ {σ : Type} (occasion : Occasion σ) (failure : Failure),
    occasion.IsBlameless →
    Call.answer { occasion with machine } = .error failure →
    ∀ ip ∈ failure.ip?, ip = machine.ip

theorem read_ofInt {index : Nat} (inside : Word.InRange index) :
    machine.memory.read (Int64.ofInt index) =
      .ok (machine.memory.get index) := by
  rw [Memory.read, Word.address?_ofInt inside]

/-- No memory that can be had is so large that a machine could tell the words
from the natural numbers by the place of its cells. -/
theorem keepsToWords_stepped (program : Program) (limits : Limits)
    (occasions : List (Occasion σ))
    (roomy : ((start program limits).stepped occasions).memory.length ≤
      2 ^ 60) :
    ((start program limits).stepped occasions).KeepsToWords := by
  have inside := inRange_ip_stepped program limits occasions roomy
  generalize (start program limits).stepped occasions = machine
    at roomy inside ⊢
  have within := isWithinWords roomy inside
  constructor
  case ip => exact Int.ofNat_le.mp inside.2
  case fetches => exact read_ofInt inside
  case behind =>
    intro instruction decodes
    have last := within.behind instruction decodes
    refine ⟨Int.ofNat_le.mp last.2, ?_⟩
    intro slot less
    have few := instruction.opcode.arity_le
    have one_of_three : slot < 3 := by omega
    exact read_ofInt (Addressing.inRange_slot last slot one_of_three)
  case concurs =>
    intro σ surroundings world
    exact Addressing.step_concurs surroundings world within
  case blames =>
    intro σ occasion failure blameless fails
    have does := Call.does { occasion with machine }
    rw [fails] at does
    exact does.ip_eq blameless

/-- A jump to the last place that has an address. -/
def leaping : Program where
  cells := [1105, 1, 9223372036854775807]

def nothing : Occasion Tape where
  surroundings := Tape.surroundings
  world := { waiting := [] }

/-- The machine gets there, and fails for want of an instruction at that very
place. -/
theorem keepsToWords_leaping :
    ((start leaping {}).stepped [nothing]).memory.length ≤ 2 ^ 60 ∧
      ((start leaping {}).stepped [nothing]).ip = 9223372036854775807 ∧
      (Addressing.step Tape.surroundings ((start leaping {}).stepped [nothing])
        nothing.world).1.Confirms
          (.error (.invalidOpcode 0 9223372036854775807)) ∧
      ∀ failure,
        Call.answer
            { nothing with machine := (start leaping {}).stepped [nothing] } =
          .error failure →
        ∀ ip ∈ failure.ip?, ip = 9223372036854775807 := by
  have roomy : ((start leaping {}).stepped [nothing]).memory.length ≤
      2 ^ 60 := by
    decide +kernel
  have keeps := keepsToWords_stepped leaping {} [nothing] roomy
  have leapt : ((start leaping {}).stepped [nothing]).ip =
      9223372036854775807 := by
    decide +kernel
  refine ⟨roomy, leapt, ?_, ?_⟩
  · have fails : (((start leaping {}).stepped [nothing]).step Tape.surroundings
        nothing.world).1 = .error (.invalidOpcode 0 9223372036854775807) := by
      decide +kernel
    rw [← fails]
    exact (keeps.concurs Tape.surroundings nothing.world).1
  · intro failure fails
    rw [← leapt]
    exact keeps.blames nothing failure (Tape.isBlameless _ rfl) fails

end Machine

end CellMachines
