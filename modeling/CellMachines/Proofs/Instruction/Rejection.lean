import CellMachines.Proofs.Instruction.Decoding
import Mathlib.Data.Nat.Digits.Lemmas
import Mathlib.Tactic.IntervalCases

/-!
# Cells that are no instructions

A cell is an instruction exactly if it is the encoding of one with some number
of hundred thousands added to it.  Any other cell is refused for the first thing
that is wrong with it: that it is negative, then the lowest of the three mode
digits that stands for no mode, and its opcode only at the end
(`decode_eq_error_iff`).
-/

namespace CellMachines

/-- The decimal digit of a cell that tells the mode of an operand slot. -/
def Word.modeDigit (cell : Word) (slot : Nat) : Nat :=
  (Nat.digits 10 cell.toInt.toNat).getD (slot + 2) 0

namespace Instruction

variable {cell : Word} {ip slot : Nat} {instruction : Instruction}
  {failure : Failure}

/-- Why a cell is no instruction.  The digits of the modes are zero, one and
two. -/
inductive Rejects (cell : Word) (ip : Nat) : Failure → Prop where
  | negative :
      cell.toInt < 0 → Rejects cell ip (.invalidOpcode cell.toInt ip)
  | mode {slot : Nat} :
      0 ≤ cell.toInt → slot < 3 → 2 < cell.modeDigit slot →
      (∀ lower < slot, cell.modeDigit lower ≤ 2) →
      Rejects cell ip (.invalidMode (cell.modeDigit slot) cell.toInt ip)
  | opcode :
      0 ≤ cell.toInt → (∀ slot < 3, cell.modeDigit slot ≤ 2) →
      (∀ opcode : Opcode, cell.toInt % 100 ≠ opcode.code) →
      Rejects cell ip (.invalidOpcode (cell.toInt % 100) ip)

/-! ## Digits -/

theorem modeDigit_eq (nonneg : 0 ≤ cell.toInt) (slot : Nat) :
    (cell.modeDigit slot : Int) = cell.toInt / 10 ^ (slot + 2) % 10 := by
  rw [Word.modeDigit, Nat.getD_digits _ _ (by decide)]
  push_cast
  rw [Int.toNat_of_nonneg nonneg]

theorem exists_digit_eq_iff {digit : Nat} :
    (∃ mode : Mode, (digit : Int) = mode.digit) ↔ digit ≤ 2 := by
  constructor
  · rintro ⟨mode, same⟩
    cases mode <;> simp only [Mode.digit] at same <;> omega
  · intro small
    interval_cases digit
    · exact ⟨.position, rfl⟩
    · exact ⟨.immediate, rfl⟩
    · exact ⟨.relative, rfl⟩

theorem decodeMode_eq_error_iff :
    decodeMode cell ip (cell.modeDigit slot) = .error failure ↔
      2 < cell.modeDigit slot ∧
        failure = .invalidMode (cell.modeDigit slot) cell.toInt ip := by
  rw [← Nat.not_le, ← exists_digit_eq_iff, decodeMode]
  cases found : Mode.ofDigit? (cell.modeDigit slot) with
  | some mode =>
      have digit := Mode.ofDigit?_eq_some_iff.mp found
      simp [digit]
  | none =>
      have unknown (mode : Mode) :
          (cell.modeDigit slot : Int) ≠ mode.digit := by
        intro same
        rw [Mode.ofDigit?_eq_some_iff.mpr same] at found
        cases found
      simp [unknown, eq_comm]

theorem exists_decodeMode_iff :
    (∃ mode, decodeMode cell ip (cell.modeDigit slot) = .ok mode) ↔
      cell.modeDigit slot ≤ 2 := by
  simp only [decodeMode_eq_ok_iff, exists_digit_eq_iff]

/-! ## Rejections -/

theorem decode_of_nonneg (nonneg : 0 ≤ cell.toInt) :
    decode cell ip =
      (do
        let first ← decodeMode cell ip (cell.modeDigit 0)
        let second ← decodeMode cell ip (cell.modeDigit 1)
        let third ← decodeMode cell ip (cell.modeDigit 2)
        match Opcode.ofCode? (cell.toInt % 100) with
        | some opcode => return { opcode, first, second, third }
        | none => .error (.invalidOpcode (cell.toInt % 100) ip)) := by
  rw [decode, if_neg (Int.not_lt.mpr nonneg), modeDigit_eq nonneg,
    modeDigit_eq nonneg, modeDigit_eq nonneg]
  rfl

theorem rejects_of_decode (fails : decode cell ip = .error failure) :
    Rejects cell ip failure := by
  by_cases negative : cell.toInt < 0
  · rw [decode, if_pos negative] at fails
    cases fails
    exact .negative negative
  have nonneg := Int.not_lt.mp negative
  rw [decode_of_nonneg nonneg] at fails
  obtain fails | ⟨first, decodes, fails⟩ := bind_eq_error_iff.mp fails
  · obtain ⟨large, rfl⟩ := decodeMode_eq_error_iff.mp fails
    apply Rejects.mode nonneg (by decide) large
    intro lower less
    exact absurd less (Nat.not_lt_zero lower)
  have low := exists_decodeMode_iff.mp ⟨first, decodes⟩
  obtain fails | ⟨second, decodes, fails⟩ := bind_eq_error_iff.mp fails
  · obtain ⟨large, rfl⟩ := decodeMode_eq_error_iff.mp fails
    apply Rejects.mode nonneg (by decide) large
    intro lower less
    interval_cases lower
    exact low
  have middle := exists_decodeMode_iff.mp ⟨second, decodes⟩
  obtain fails | ⟨third, decodes, fails⟩ := bind_eq_error_iff.mp fails
  · obtain ⟨large, rfl⟩ := decodeMode_eq_error_iff.mp fails
    apply Rejects.mode nonneg (by decide) large
    intro lower less
    interval_cases lower
    · exact low
    · exact middle
  have high := exists_decodeMode_iff.mp ⟨third, decodes⟩
  split at fails
  · cases fails
  · rename_i unknown
    cases fails
    apply Rejects.opcode nonneg
    · intro slot less
      interval_cases slot
      · exact low
      · exact middle
      · exact high
    · intro opcode same
      rw [Opcode.ofCode?_eq_some_iff.mpr same] at unknown
      cases unknown

theorem decode_of_rejects (rejects : Rejects cell ip failure) :
    decode cell ip = .error failure := by
  cases rejects with
  | negative negative => rw [decode, if_pos negative]
  | @mode slot nonneg within large lower =>
      have fails : decodeMode cell ip (cell.modeDigit slot) = .error _ :=
        decodeMode_eq_error_iff.mpr ⟨large, rfl⟩
      rw [decode_of_nonneg nonneg]
      interval_cases slot
      · rw [fails]
        rfl
      · obtain ⟨first, low⟩ := exists_decodeMode_iff.mpr (lower 0 (by decide))
        rw [low, fails]
        rfl
      · obtain ⟨first, low⟩ := exists_decodeMode_iff.mpr (lower 0 (by decide))
        obtain ⟨second, middle⟩ :=
          exists_decodeMode_iff.mpr (lower 1 (by decide))
        rw [low, middle, fails]
        rfl
  | opcode nonneg modes unknown =>
      obtain ⟨first, low⟩ := exists_decodeMode_iff.mpr (modes 0 (by decide))
      obtain ⟨second, middle⟩ := exists_decodeMode_iff.mpr (modes 1 (by decide))
      obtain ⟨third, high⟩ := exists_decodeMode_iff.mpr (modes 2 (by decide))
      rw [decode_of_nonneg nonneg, low, middle, high]
      cases found : Opcode.ofCode? (cell.toInt % 100) with
      | none => rfl
      | some opcode =>
          exact absurd (Opcode.ofCode?_eq_some_iff.mp found) (unknown opcode)

theorem decode_eq_error_iff :
    decode cell ip = .error failure ↔ Rejects cell ip failure :=
  ⟨rejects_of_decode, decode_of_rejects⟩

/-! ## Encodings -/

/-- The digits above the modes count for nothing. -/
theorem decode_eq_ok_iff_existsUnique :
    decode cell ip = .ok instruction ↔
      ∃! count : Nat, cell.toInt = instruction.encode + 100000 * count := by
  have code := instruction.opcode.code_bounds
  have first := instruction.first.digit_bounds
  have second := instruction.second.digit_bounds
  have third := instruction.third.digit_bounds
  rw [decode_eq_ok_iff, encode]
  constructor
  · rintro ⟨nonneg, low⟩
    refine ⟨(cell.toInt / 100000).toNat, ?_, ?_⟩
    · omega
    · intro count same
      omega
  · rintro ⟨count, same, _⟩
    omega

/-- Decoding inverts encoding, whatever stands above the modes, and refuses
every other cell for what is wrong with it. -/
theorem decode_inverts_encode (cell : Word) (ip : Nat) :
    (∀ instruction, decode cell ip = .ok instruction ↔
      ∃! count : Nat, cell.toInt = instruction.encode + 100000 * count) ∧
    ∀ failure, decode cell ip = .error failure ↔ Rejects cell ip failure :=
  ⟨fun _ => decode_eq_ok_iff_existsUnique, fun _ => decode_eq_error_iff⟩

end Instruction

end CellMachines
