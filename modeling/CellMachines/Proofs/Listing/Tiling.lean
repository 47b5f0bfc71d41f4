import CellMachines.Listing
import CellMachines.Proofs.Instruction.Decoding
import Mathlib.Data.Int.ModEq

/-!
# Listings tile the cells

A listing is one sweep over the cells, in which every line takes up where the
line before it has stopped.  `Sweeps` tells such a sweep line by line, and what
is to be known of a listing follows by induction on it: the lines tile the cells
without gap or overlap, each of them shows what stands at its address, and the
cells can be put together from them again.  All that gets lost on the way are
the digits of an instruction cell that no instruction makes use of.
-/

namespace CellMachines.Listing

/-- The sweep over cells of which the first is the one at `address`. -/
inductive Sweeps : Nat → List Word → List Line → Prop where
  | nil {address : Nat} : Sweeps address [] []
  | code {address : Nat} {cell : Word} {operands later : List Word}
      {instruction : Instruction} {lines : List Line} :
      Instruction.decode cell address = .ok instruction →
      operands.length = instruction.opcode.arity →
      Sweeps (address + instruction.width) later lines →
      Sweeps address (cell :: (operands ++ later))
        (⟨address, .code instruction operands⟩ :: lines)
  | data {address : Nat} {cell : Word} {later : List Word}
      {lines : List Line} :
      (∀ instruction, Instruction.decode cell address = .ok instruction →
        later.length < instruction.opcode.arity) →
      Sweeps (address + 1) later lines →
      Sweeps address (cell :: later) (⟨address, .data cell⟩ :: lines)

/-- The first line is at `first`, every other where the line before it ends, and
the last line ends at `last`. -/
inductive Tiles : Nat → List Line → Nat → Prop where
  | nil {address : Nat} : Tiles address [] address
  | cons {address last : Nat} {content : Content} {later : List Line} :
      Tiles (address + content.width) later last →
      Tiles address (⟨address, content⟩ :: later) last

/-- The line is an instruction where the cell at its address decodes to one and
all its operands are there, and else it is data. -/
inductive Shows (cells : List Word) : Line → Prop where
  | code {address : Nat} {cell : Word} {instruction : Instruction} :
      cells[address]? = some cell →
      Instruction.decode cell address = .ok instruction →
      address + instruction.width ≤ cells.length →
      Shows cells ⟨address, .code instruction
        ((cells.drop (address + 1)).take instruction.opcode.arity)⟩
  | data {address : Nat} {cell : Word} :
      cells[address]? = some cell →
      (∀ instruction, Instruction.decode cell address = .ok instruction →
        cells.length < address + instruction.width) →
      Shows cells ⟨address, .data cell⟩

/-- There is an instruction in the line at an address. -/
def HasCode (lines : List Line) (address : Nat) : Prop :=
  ∃ line ∈ lines, line.address = address ∧
    ∃ instruction operands, line.content = .code instruction operands

/-- The cells that a line stands for, with the smallest cell that decodes to an
instruction in its place. -/
def Content.encoded : Content → List Int
  | .code instruction operands =>
    instruction.encode :: operands.map Int64.toInt
  | .data cell => [cell.toInt]

def reassembled (lines : List Line) : List Int :=
  lines.flatMap fun line => line.content.encoded

variable {address first last : Nat} {cell : Word} {cells later : List Word}
  {lines : List Line} {line : Line}

/-! ## The sweep -/

theorem contentAt_cases (address : Nat) (cell : Word) (later : List Word) :
    (∃ instruction, Instruction.decode cell address = .ok instruction ∧
      instruction.opcode.arity ≤ later.length ∧
      contentAt address cell later =
        .code instruction (later.take instruction.opcode.arity)) ∨
    (∀ instruction, Instruction.decode cell address = .ok instruction →
      later.length < instruction.opcode.arity) ∧
      contentAt address cell later = .data cell := by
  rw [contentAt]
  cases Instruction.decode cell address with
  | error failure => exact .inr ⟨nofun, rfl⟩
  | ok instruction =>
      by_cases fits : instruction.opcode.arity ≤ later.length
      · exact .inl ⟨instruction, rfl, fits, if_pos fits⟩
      · refine .inr ⟨?_, if_neg fits⟩
        intro other same
        cases same
        exact Nat.lt_of_not_le fits

theorem sweeps_linesFrom (address : Nat) (cells : List Word) :
    Sweeps address cells (linesFrom address cells) := by
  induction address, cells using linesFrom.induct with
  | case1 address =>
      rw [linesFrom]
      exact .nil
  | case2 address cell later content induction =>
      rw [linesFrom]
      rcases contentAt_cases address cell later with
        ⟨instruction, decodes, fits, shown⟩ | ⟨short, shown⟩
      · have parts := List.take_append_drop instruction.opcode.arity later
        simp only [content, shown] at induction ⊢
        have sweeps := Sweeps.code decodes (List.length_take_of_le fits) induction
        rwa [Content.width, Instruction.width, Nat.add_sub_cancel, parts] at sweeps
      · simp only [content, shown] at induction ⊢
        exact .data short induction

theorem sweeps_ofCells (cells : List Word) : Sweeps 0 cells (ofCells cells) :=
  sweeps_linesFrom 0 cells

/-! ## Addresses -/

theorem Sweeps.tiles (sweeps : Sweeps address cells lines) :
    Tiles address lines (address + cells.length) := by
  induction sweeps with
  | nil => exact .nil
  | @code address cell operands later instruction lines _ length_eq _ induction =>
      have ends : address + (cell :: (operands ++ later)).length =
          address + instruction.width + later.length := by
        rw [List.length_cons, List.length_append, length_eq, Instruction.width]
        omega
      rw [ends]
      exact .cons induction
  | @data address cell later lines _ _ induction =>
      have ends : address + (cell :: later).length =
          address + 1 + later.length := by
        rw [List.length_cons]
        omega
      rw [ends]
      exact .cons induction

theorem Sweeps.length_le (sweeps : Sweeps address cells lines) :
    lines.length ≤ cells.length := by
  induction sweeps with
  | nil => exact Nat.le_refl 0
  | code _ _ _ induction =>
      rw [List.length_cons, List.length_cons, List.length_append]
      omega
  | data _ _ induction => exact Nat.succ_le_succ induction

/-- What comes after a line begins where the line ends. -/
theorem Tiles.next {earlier following : List Line}
    (tiles : Tiles first (earlier ++ line :: following) last) :
    (following.head?.map Line.address).getD last =
      line.address + line.content.width := by
  induction earlier generalizing first with
  | nil =>
      cases tiles with
      | cons rest =>
          generalize first + _ = start at rest
          cases rest <;> rfl
  | cons head earlier induction =>
      cases tiles with
      | cons rest => exact induction rest

/-! ## What the lines show -/

theorem Sweeps.shows {before : List Word}
    (sweeps : Sweeps before.length cells lines) :
    ∀ line ∈ lines, Shows (before ++ cells) line := by
  generalize length_eq : before.length = address at sweeps
  induction sweeps generalizing before with
  | nil => exact nofun
  | @code address cell operands later instruction lines decodes fits _ induction =>
      subst length_eq
      have here : (before ++ cell :: (operands ++ later))[before.length]? =
          some cell := by
        simp
      have behind : ((before ++ cell :: (operands ++ later)).drop
          (before.length + 1)).take instruction.opcode.arity = operands := by
        rw [← fits, List.drop_append, List.drop_of_length_le (by omega)]
        simp
      have inside : before.length + instruction.width ≤
          (before ++ cell :: (operands ++ later)).length := by
        rw [List.length_append, List.length_cons, List.length_append, fits,
          Instruction.width]
        omega
      have whole : before ++ cell :: (operands ++ later) =
          (before ++ cell :: operands) ++ later := by
        simp
      intro line member
      rcases List.mem_cons.mp member with rfl | member
      · have shows_line := Shows.code here decodes inside
        rwa [behind] at shows_line
      · rw [whole]
        apply induction _ line member
        rw [List.length_append, List.length_cons, fits, Instruction.width]
  | @data address cell later lines short _ induction =>
      subst length_eq
      have whole : before ++ cell :: later = (before ++ [cell]) ++ later := by
        simp
      intro line member
      rcases List.mem_cons.mp member with rfl | member
      · apply Shows.data
        · simp
        · intro instruction decodes
          have few := short instruction decodes
          rw [List.length_append, List.length_cons, Instruction.width]
          omega
      · rw [whole]
        apply induction _ line member
        rw [List.length_append, List.length_singleton]

theorem shows_ofCells (cells : List Word) :
    ∀ line ∈ ofCells cells, Shows cells line := by
  have sweeps : Sweeps ([] : List Word).length cells (ofCells cells) :=
    sweeps_ofCells cells
  exact sweeps.shows

/-! ## Reassembling -/

theorem reassembled_cons (line : Line) (lines : List Line) :
    reassembled (line :: lines) = line.content.encoded ++ reassembled lines :=
  List.flatMap_cons

theorem HasCode.cons (code : HasCode lines address) :
    HasCode (line :: lines) address := by
  obtain ⟨other, member, found⟩ := code
  exact ⟨other, List.mem_cons_of_mem line member, found⟩

theorem Sweeps.length_reassembled (sweeps : Sweeps address cells lines) :
    (reassembled lines).length = cells.length := by
  induction sweeps with
  | nil => rfl
  | code _ _ _ induction =>
      rw [reassembled_cons, Content.encoded, List.length_append,
        List.length_cons, List.length_map, induction, List.length_cons,
        List.length_append, Nat.add_right_comm]
  | data _ _ induction =>
      rw [reassembled_cons, List.length_append, induction, List.length_cons,
        Nat.add_comm]
      rfl

/-- Every cell comes out as it was, except that an instruction cell is cut down
to its five low digits. -/
theorem Sweeps.getElem?_reassembled (sweeps : Sweeps address cells lines)
    {index : Nat} (found : cells[index]? = some cell) :
    (reassembled lines)[index]? = some cell.toInt ∨
      HasCode lines (address + index) ∧ 0 ≤ cell.toInt ∧
        (reassembled lines)[index]? = some (cell.toInt % 100000) := by
  induction sweeps generalizing index with
  | nil => cases found
  | @code address head operands later instruction lines decodes fits _ induction =>
      rw [reassembled_cons, Content.encoded]
      cases index with
      | zero =>
          cases found
          obtain ⟨nonneg, digits⟩ := Instruction.decode_eq_ok_iff.mp decodes
          refine .inr ⟨⟨_, List.mem_cons_self, rfl, _, _, rfl⟩, nonneg, ?_⟩
          rw [digits]
          rfl
      | succ index =>
          rw [List.getElem?_cons_succ] at found
          rw [List.cons_append, List.getElem?_cons_succ]
          rcases Nat.lt_or_ge index operands.length with operand | beyond
          · rw [List.getElem?_append_left operand] at found
            rw [List.getElem?_append_left (by rwa [List.length_map]),
              List.getElem?_map, found]
            exact .inl rfl
          · rw [List.getElem?_append_right beyond] at found
            rw [List.getElem?_append_right (by rwa [List.length_map]),
              List.length_map]
            have ahead : address + instruction.width + (index - operands.length) =
                address + (index + 1) := by
              rw [Instruction.width]
              omega
            rw [← ahead]
            exact (induction found).imp_right (And.imp_left HasCode.cons)
  | @data address head later lines _ _ induction =>
      cases index with
      | zero =>
          cases found
          exact .inl rfl
      | succ index =>
          have ahead : address + 1 + index = address + (index + 1) := by
            omega
          rw [← ahead]
          exact (induction found).imp_right (And.imp_left HasCode.cons)

/-- The lines of a listing tile the cells, each showing what stands at its
address.  What is reassembled from them has the same cells, but for the digits
of instruction cells that decoding ignores. -/
theorem tiles_and_reassembles (cells : List Word) :
    Tiles 0 (ofCells cells) cells.length ∧
      (ofCells cells).length ≤ cells.length ∧
      (∀ line ∈ ofCells cells, Shows cells line) ∧
      (reassembled (ofCells cells)).length = cells.length ∧
      ∀ index cell, cells[index]? = some cell →
        ∃ value, (reassembled (ofCells cells))[index]? = some value ∧
          (¬HasCode (ofCells cells) index → value = cell.toInt) ∧
          value ≡ cell.toInt [ZMOD 100000] ∧
          (cell.toInt < 100000 → value = cell.toInt) := by
  have sweeps := sweeps_ofCells cells
  have tiles := sweeps.tiles
  rw [Nat.zero_add] at tiles
  refine ⟨tiles, sweeps.length_le, shows_ofCells cells,
    sweeps.length_reassembled, ?_⟩
  intro index cell found
  rcases sweeps.getElem?_reassembled found with same | ⟨code, nonneg, same⟩
  · exact ⟨_, same, fun _ => rfl, Int.ModEq.refl _, fun _ => rfl⟩
  · rw [Nat.zero_add] at code
    refine ⟨_, same, fun other => absurd code other, Int.mod_modEq _ _, ?_⟩
    exact Int.emod_eq_of_lt nonneg

/-- An instruction, another one whose cell has a digit too many, a cell that does
not decode, and an instruction that lacks its operands. -/
def mixed : List Word :=
  [1002, 4, 3, 4, 100099, -5, 1, 0]

/-- Only the digit too many is missing in what is reassembled. -/
theorem tiles_and_reassembles_mixed :
    Tiles 0 (ofCells mixed) 8 ∧
      Shows mixed ⟨6, .data 1⟩ ∧
      (reassembled (ofCells mixed))[0]? = some 1002 ∧
      (∃ value, (reassembled (ofCells mixed))[4]? = some value ∧
        value ≡ 100099 [ZMOD 100000]) ∧
      (reassembled (ofCells mixed))[6]? = some 1 := by
  obtain ⟨tiles, _, shown, _, comes_out⟩ := tiles_and_reassembles mixed
  have lines : ofCells mixed =
      [⟨0, .code ⟨.mul, .position, .immediate, .position⟩ [4, 3, 4]⟩,
        ⟨4, .code ⟨.halt, .position, .position, .position⟩ []⟩,
        ⟨5, .data (-5)⟩, ⟨6, .data 1⟩, ⟨7, .data 0⟩] := by
    decide +kernel
  have data : ¬HasCode (ofCells mixed) 6 := by
    rintro ⟨line, member, at_six, instruction, operands, code⟩
    simp only [lines, List.mem_cons, List.not_mem_nil, or_false] at member
    rcases member with rfl | rfl | rfl | rfl | rfl <;> simp at at_six code
  obtain ⟨first, here, _, _, small⟩ := comes_out 0 1002 rfl
  obtain ⟨fifth, there, _, congruent, _⟩ := comes_out 4 100099 rfl
  obtain ⟨seventh, behind, same, _, _⟩ := comes_out 6 1 rfl
  refine ⟨tiles, shown _ (by simp [lines]), ?_, ⟨fifth, there, congruent⟩, ?_⟩
  · rw [here, small (by decide)]
    rfl
  · rw [behind, same data]
    rfl

end CellMachines.Listing
