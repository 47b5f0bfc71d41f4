import CellMachines.Instruction

/-!
# Decoded instructions

A cell decodes to an instruction exactly if it is not negative and its five low
decimal digits are those of the smallest cell that does (`decode_eq_ok_iff`).
The digits further up have no part in it.
-/

namespace CellMachines

variable {cell : Word} {ip : Nat} {digit : Int} {mode : Mode}
  {instruction : Instruction}

theorem Opcode.code_bounds (opcode : Opcode) :
    0 ≤ opcode.code ∧ opcode.code < 100 := by
  cases opcode <;> decide

theorem Opcode.arity_le (opcode : Opcode) : opcode.arity ≤ 3 := by
  cases opcode <;> decide

theorem Mode.digit_bounds (mode : Mode) : 0 ≤ mode.digit ∧ mode.digit < 10 := by
  cases mode <;> decide

namespace Instruction

theorem decodeMode_eq_ok_iff :
    decodeMode cell ip digit = .ok mode ↔ digit = mode.digit := by
  rw [← Mode.ofDigit?_eq_some_iff, decodeMode]
  cases Mode.ofDigit? digit with
  | none => exact ⟨nofun, nofun⟩
  | some found => rw [Except.ok.injEq, Option.some.injEq]

/-- The digits of the cell, each on its own. -/
theorem decode_eq_ok_iff_digits :
    decode cell ip = .ok instruction ↔
      0 ≤ cell.toInt ∧
        cell.toInt % 100 = instruction.opcode.code ∧
        cell.toInt / 100 % 10 = instruction.first.digit ∧
        cell.toInt / 1000 % 10 = instruction.second.digit ∧
        cell.toInt / 10000 % 10 = instruction.third.digit := by
  rw [decode]
  split
  · rename_i negative
    exact ⟨nofun, fun ⟨nonneg, _⟩ => absurd nonneg (Int.not_le.mpr negative)⟩
  · rename_i nonneg
    constructor
    · intro decodes
      obtain ⟨first, low, decodes⟩ := bind_eq_ok_iff.mp decodes
      obtain ⟨second, middle, decodes⟩ := bind_eq_ok_iff.mp decodes
      obtain ⟨third, high, decodes⟩ := bind_eq_ok_iff.mp decodes
      split at decodes
      · rename_i opcode found
        cases decodes
        exact ⟨Int.not_lt.mp nonneg, Opcode.ofCode?_eq_some_iff.mp found,
          decodeMode_eq_ok_iff.mp low, decodeMode_eq_ok_iff.mp middle,
          decodeMode_eq_ok_iff.mp high⟩
      · cases decodes
    · rintro ⟨_, code, first, second, third⟩
      rw [decodeMode_eq_ok_iff.mpr first, decodeMode_eq_ok_iff.mpr second,
        decodeMode_eq_ok_iff.mpr third, Opcode.ofCode?_eq_some_iff.mpr code]
      rfl

theorem decode_eq_ok_iff :
    decode cell ip = .ok instruction ↔
      0 ≤ cell.toInt ∧ cell.toInt % 100000 = instruction.encode := by
  have code := instruction.opcode.code_bounds
  have first := instruction.first.digit_bounds
  have second := instruction.second.digit_bounds
  have third := instruction.third.digit_bounds
  rw [decode_eq_ok_iff_digits, encode]
  omega

end Instruction

end CellMachines
