import CellMachines.Proofs.Listing.Shown
import CellMachines.Proofs.Listing.Tiling

/-!
# What a printed listing tells

As the lines of a listing tile the cells, its text tells all the cells but for
what no line tells: the modes of operands that an operation does not have, and
the digits of an instruction cell that decoding ignores (`printed_eq_iff`).
-/

namespace CellMachines.Listing

/-- The same instructions at the same addresses, as far as their operations make
use of the modes, and the same words in all other cells. -/
structure Alike (left right : List Word) : Prop where
  length_eq : left.length = right.length
  code_iff : ∀ address,
    HasCode (ofCells left) address ↔ HasCode (ofCells right) address
  cell_eq : ∀ address, ¬HasCode (ofCells left) address →
    left[address]? = right[address]?
  resembles : ∀ address cell other, HasCode (ofCells left) address →
    left[address]? = some cell → right[address]? = some other →
    ∃ instruction another, Instruction.decode cell address = .ok instruction ∧
      Instruction.decode other address = .ok another ∧
      instruction.Resembles another

variable {left right cells : List Word} {address first last final : Nat}
  {line another : Line} {lines others : List Line}

/-! ## Lines and cells -/

theorem Tiles.le (tiles : Tiles first lines last) : first ≤ last := by
  induction tiles with
  | nil => exact Nat.le_refl _
  | cons _ induction => exact Nat.le_trans (Nat.le_add_right _ _) induction

theorem Tiles.first_le (tiles : Tiles first lines last) :
    ∀ line ∈ lines, first ≤ line.address := by
  induction tiles with
  | nil => exact nofun
  | cons _ induction =>
      intro line member
      rcases List.mem_cons.mp member with rfl | member
      · exact Nat.le_refl _
      · exact Nat.le_trans (Nat.le_add_right _ _) (induction line member)

/-- Every cell is in some line. -/
theorem Tiles.covers (tiles : Tiles first lines last) {index : Nat}
    (inside : first ≤ index) (before : index < last) :
    ∃ line ∈ lines, line.address ≤ index ∧
      index < line.address + line.content.width := by
  induction tiles with
  | nil => omega
  | @cons address last content later _ induction =>
      rcases Nat.lt_or_ge index (address + content.width) with here | beyond
      · exact ⟨_, List.mem_cons_self, inside, here⟩
      · obtain ⟨line, member, found⟩ := induction beyond before
        exact ⟨line, List.mem_cons_of_mem _ member, found⟩

/-- No line begins within another one. -/
theorem Tiles.apart (tiles : Tiles first lines last) (member : line ∈ lines)
    (other : another ∈ lines) (before : line.address < another.address) :
    line.address + line.content.width ≤ another.address := by
  induction tiles with
  | nil => cases member
  | cons tiles induction =>
      rcases List.mem_cons.mp member with rfl | member
      · rcases List.mem_cons.mp other with rfl | other
        · exact absurd before (Nat.lt_irrefl _)
        · exact tiles.first_le another other
      · rcases List.mem_cons.mp other with rfl | other
        · have beyond := tiles.first_le line member
          simp only at before
          omega
        · exact induction member other

theorem Tiles.last_eq (tiles : Tiles first lines last)
    (others_tile : Tiles first others final)
    (same : lines.map Line.shown = others.map Line.shown) : last = final := by
  induction tiles generalizing others with
  | nil =>
      cases others_tile with
      | nil => rfl
      | cons => cases same
  | cons _ induction =>
      cases others_tile with
      | nil => cases same
      | cons others_tile =>
          obtain ⟨head, rest⟩ := List.cons.inj same
          have shown := (Prod.mk.inj head).2
          rw [Content.width_eq, ← shown, ← Content.width_eq] at others_tile
          exact induction others_tile rest

/-- Two lists of lines that tile the same stretch show the same if any two lines
at the same address do. -/
theorem Tiles.map_shown_eq (tiles : Tiles first lines last)
    (others_tile : Tiles first others last)
    (same : ∀ line ∈ lines, ∀ other ∈ others, line.address = other.address →
      line.content.shown = other.content.shown) :
    lines.map Line.shown = others.map Line.shown := by
  induction tiles generalizing others with
  | nil =>
      cases others_tile with
      | nil => rfl
      | @cons _ _ content _ others_tile =>
          have width_pos := content.width_pos
          have ends := others_tile.le
          omega
  | @cons address last content later tiles induction =>
      cases others_tile with
      | nil =>
          have width_pos := content.width_pos
          have ends := tiles.le
          omega
      | @cons _ _ other rest others_tile =>
          have shown : content.shown = other.shown :=
            same _ List.mem_cons_self _ List.mem_cons_self rfl
          rw [Content.width_eq, ← shown, ← Content.width_eq] at others_tile
          rw [List.map_cons, List.map_cons, Line.shown, Line.shown, shown,
            induction others_tile]
          intro line member another other_member
          exact same line (List.mem_cons_of_mem _ member) another
            (List.mem_cons_of_mem _ other_member)

theorem Shows.exists_contentAt (shows_line : Shows cells line) :
    ∃ cell, cells[line.address]? = some cell ∧
      line.content =
        contentAt line.address cell (cells.drop (line.address + 1)) := by
  cases shows_line with
  | @code address cell instruction found decodes inside =>
      have fits : instruction.opcode.arity ≤
          (cells.drop (address + 1)).length := by
        rw [Instruction.width] at inside
        rw [List.length_drop]
        omega
      refine ⟨cell, found, ?_⟩
      rw [contentAt, decodes]
      exact (if_pos fits).symm
  | @data address cell found short =>
      refine ⟨cell, found, ?_⟩
      rcases contentAt_cases address cell (cells.drop (address + 1)) with
        ⟨instruction, decodes, fits, _⟩ | ⟨_, shown⟩
      · have outside := short instruction decodes
        have inside := (List.getElem?_eq_some_iff.mp found).1
        rw [Instruction.width] at outside
        rw [List.length_drop] at fits
        omega
      · exact shown.symm

/-- A line shows nothing but what stands at its address. -/
theorem Shows.content_eq (shows_line : Shows cells line)
    (shows_another : Shows cells another)
    (same : line.address = another.address) :
    line.content = another.content := by
  obtain ⟨cell, found, content⟩ := shows_line.exists_contentAt
  obtain ⟨other, other_found, other_content⟩ := shows_another.exists_contentAt
  rw [← same] at other_found other_content
  rw [found] at other_found
  cases other_found
  rw [content, other_content]

theorem hasCode_iff (member : line ∈ ofCells cells) :
    HasCode (ofCells cells) line.address ↔
      ∃ instruction operands, line.content = .code instruction operands := by
  constructor
  · rintro ⟨another, other_member, same, code⟩
    have contents := (shows_ofCells cells line member).content_eq
      (shows_ofCells cells another other_member) same.symm
    rwa [contents]
  · exact fun code => ⟨line, member, rfl, code⟩

theorem Shows.cell_eq {cell : Word}
    (shows_line : Shows cells ⟨address, .data cell⟩) :
    cells[address]? = some cell := by
  cases shows_line with
  | data found => exact found

section Instructions

variable {instruction : Instruction} {operands : List Word}

theorem Shows.filled
    (shows_line : Shows cells ⟨address, .code instruction operands⟩) :
    operands.length = instruction.opcode.arity := by
  cases shows_line with
  | code found decodes inside =>
      rw [Instruction.width] at inside
      rw [List.length_take, List.length_drop]
      omega

theorem Shows.decodes
    (shows_line : Shows cells ⟨address, .code instruction operands⟩)
    {cell : Word} (found : cells[address]? = some cell) :
    Instruction.decode cell address = .ok instruction := by
  cases shows_line with
  | code here decodes =>
      cases found.symm.trans here
      exact decodes

theorem Shows.operand_eq
    (shows_line : Shows cells ⟨address, .code instruction operands⟩)
    {slot : Nat} (inside : slot < instruction.opcode.arity) :
    cells[address + 1 + slot]? = operands[slot]? := by
  cases shows_line with
  | code => rw [List.getElem?_take, if_pos inside, List.getElem?_drop]

end Instructions

/-! ## Equal listings -/

private theorem exists_partner
    (same : lines.map Line.shown = others.map Line.shown)
    (member : line ∈ lines) :
    ∃ other ∈ others, other.address = line.address ∧
      other.content.shown = line.content.shown := by
  have shown : line.shown ∈ others.map Line.shown := by
    rw [← same]
    exact List.mem_map_of_mem member
  obtain ⟨other, other_member, shown⟩ := List.mem_map.mp shown
  exact ⟨other, other_member, Prod.mk.inj shown⟩

private theorem partner_of_code {instruction : Instruction}
    {operands : List Word}
    (same : (ofCells left).map Line.shown = (ofCells right).map Line.shown)
    (member : ⟨address, .code instruction operands⟩ ∈ ofCells left) :
    ∃ other, ⟨address, .code other operands⟩ ∈ ofCells right ∧
      instruction.Resembles other := by
  obtain ⟨⟨_, content⟩, other_member, rfl, shown⟩ := exists_partner same member
  cases content with
  | data cell => cases shown
  | code other values =>
      have filled := (shows_ofCells left _ member).filled
      have others_filled := (shows_ofCells right _ other_member).filled
      obtain ⟨resembles, rfl⟩ :=
        (shown_code_eq_iff filled others_filled).mp shown.symm
      exact ⟨other, other_member, resembles⟩

private theorem partner_of_data {cell : Word}
    (same : (ofCells left).map Line.shown = (ofCells right).map Line.shown)
    (member : ⟨address, .data cell⟩ ∈ ofCells left) :
    ⟨address, .data cell⟩ ∈ ofCells right := by
  obtain ⟨⟨_, content⟩, other_member, rfl, shown⟩ := exists_partner same member
  cases content with
  | code => cases shown
  | data =>
      cases shown
      exact other_member

private theorem hasCode_of_shown
    (same : (ofCells left).map Line.shown = (ofCells right).map Line.shown)
    (code : HasCode (ofCells left) address) :
    HasCode (ofCells right) address := by
  obtain ⟨⟨_, _⟩, member, rfl, instruction, operands, rfl⟩ := code
  obtain ⟨other, other_member, _⟩ := partner_of_code same member
  exact ⟨_, other_member, rfl, other, operands, rfl⟩

theorem tiles_ofCells (cells : List Word) :
    Tiles 0 (ofCells cells) cells.length := by
  have tiles := (sweeps_ofCells cells).tiles
  rwa [Nat.zero_add] at tiles

/-- What stands in a cell other than an instruction cell is shown. -/
private theorem cell_eq_of_shown
    (same : (ofCells left).map Line.shown = (ofCells right).map Line.shown)
    (other : ¬HasCode (ofCells left) address) (inside : address < left.length) :
    left[address]? = right[address]? := by
  obtain ⟨⟨start, content⟩, member, started, within⟩ :=
    (tiles_ofCells left).covers (Nat.zero_le _) inside
  simp only at started within
  have shows_line := shows_ofCells left _ member
  cases content with
  | data cell =>
      have here : start = address := by
        rw [Content.width] at within
        omega
      subst here
      have shows_other :=
        shows_ofCells right _ (partner_of_data same member)
      rw [shows_line.cell_eq, shows_other.cell_eq]
  | code instruction operands =>
      obtain ⟨another, other_member, resembles⟩ := partner_of_code same member
      have later : start ≠ address := by
        rintro rfl
        exact other ⟨_, member, rfl, instruction, operands, rfl⟩
      obtain ⟨slot, rfl⟩ : ∃ slot, address = start + 1 + slot :=
        ⟨address - (start + 1), by omega⟩
      have slot_lt : slot < instruction.opcode.arity := by
        rw [Content.width, Instruction.width] at within
        omega
      have other_lt : slot < another.opcode.arity := by
        rwa [← resembles.1]
      rw [shows_line.operand_eq slot_lt,
        (shows_ofCells right _ other_member).operand_eq other_lt]

theorem alike_of_shown
    (same : (ofCells left).map Line.shown = (ofCells right).map Line.shown) :
    Alike left right := by
  have length_eq := (tiles_ofCells left).last_eq (tiles_ofCells right) same
  refine ⟨length_eq, ?_, ?_, ?_⟩
  · intro address
    exact ⟨hasCode_of_shown same, hasCode_of_shown same.symm⟩
  · intro address other
    rcases Nat.lt_or_ge address left.length with inside | outside
    · exact cell_eq_of_shown same other inside
    · rw [List.getElem?_eq_none outside,
        List.getElem?_eq_none (length_eq ▸ outside)]
  · intro address cell other code found other_found
    obtain ⟨⟨_, _⟩, member, rfl, instruction, operands, rfl⟩ := code
    obtain ⟨another, other_member, resembles⟩ := partner_of_code same member
    have shows_line := shows_ofCells left _ member
    have shows_other := shows_ofCells right _ other_member
    exact ⟨instruction, another, shows_line.decodes found,
      shows_other.decodes other_found, resembles⟩

/-- Operand cells are no instruction cells. -/
private theorem not_hasCode_operand {instruction : Instruction}
    {operands : List Word}
    (member : ⟨address, .code instruction operands⟩ ∈ ofCells cells)
    {slot : Nat} (inside : slot < instruction.opcode.arity) :
    ¬HasCode (ofCells cells) (address + 1 + slot) := by
  rintro ⟨another, other_member, there, _⟩
  have apart := (tiles_ofCells cells).apart member other_member
  rw [there, Content.width, Instruction.width] at apart
  simp only at apart
  omega

private theorem Alike.code_shown_eq {instruction other : Instruction}
    {operands values : List Word} (alike : Alike left right)
    (member : ⟨address, .code instruction operands⟩ ∈ ofCells left)
    (other_member : ⟨address, .code other values⟩ ∈ ofCells right) :
    (Content.code instruction operands).shown =
      (Content.code other values).shown := by
  have shows_line := shows_ofCells left _ member
  have shows_other := shows_ofCells right _ other_member
  have filled := shows_line.filled
  have others_filled := shows_other.filled
  have resembles : instruction.Resembles other := by
    have code := (hasCode_iff member).mpr ⟨_, _, rfl⟩
    obtain ⟨cell, found, _⟩ := shows_line.exists_contentAt
    obtain ⟨value, other_found, _⟩ := shows_other.exists_contentAt
    obtain ⟨first, second, first_decodes, second_decodes, resembles⟩ :=
      alike.resembles address _ _ code found other_found
    cases first_decodes.symm.trans (shows_line.decodes found)
    cases second_decodes.symm.trans (shows_other.decodes other_found)
    exact resembles
  refine (shown_code_eq_iff filled others_filled).mpr ⟨resembles, ?_⟩
  have same_length : operands.length = values.length := by
    rw [filled, others_filled, resembles.1]
  apply List.ext_getElem?
  intro slot
  rcases Nat.lt_or_ge slot instruction.opcode.arity with inside | outside
  · rw [← shows_line.operand_eq inside,
      ← shows_other.operand_eq (resembles.1 ▸ inside)]
    exact alike.cell_eq _ (not_hasCode_operand member inside)
  · rw [← filled] at outside
    rw [List.getElem?_eq_none outside,
      List.getElem?_eq_none (same_length ▸ outside)]

theorem Alike.shown_eq (alike : Alike left right) :
    (ofCells left).map Line.shown = (ofCells right).map Line.shown := by
  have right_tiles := tiles_ofCells right
  rw [← alike.length_eq] at right_tiles
  apply (tiles_ofCells left).map_shown_eq right_tiles
  rintro ⟨address, content⟩ member ⟨_, other⟩ other_member rfl
  have code_iff := (hasCode_iff member).symm.trans
    ((alike.code_iff address).trans (hasCode_iff other_member))
  cases content with
  | code instruction operands =>
      obtain ⟨another, values, rfl⟩ := code_iff.mp ⟨_, _, rfl⟩
      exact alike.code_shown_eq member other_member
  | data cell =>
      cases other with
      | code =>
          obtain ⟨_, _, impossible⟩ := code_iff.mpr ⟨_, _, rfl⟩
          cases impossible
      | data value =>
          have data : ¬HasCode (ofCells left) address := by
            rw [hasCode_iff member]
            rintro ⟨_, _, impossible⟩
            cases impossible
          have same := alike.cell_eq address data
          rw [(shows_ofCells left _ member).cell_eq,
            (shows_ofCells right _ other_member).cell_eq] at same
          cases same
          rfl

/-- The text of a listing tells the cells, except for the modes of operands that
an operation does not have and for the digits of instruction cells that decoding
ignores.  This holds of its lines one by one and of the text that they make
up. -/
theorem printed_eq_iff (left right : List Word) :
    ((ofCells left).map Line.text = (ofCells right).map Line.text ↔
        Alike left right) ∧
      (Command.disassemble ⟨left⟩ = Command.disassemble ⟨right⟩ ↔
        Alike left right) := by
  have alike_iff :
      (ofCells left).map Line.shown = (ofCells right).map Line.shown ↔
        Alike left right :=
    ⟨alike_of_shown, Alike.shown_eq⟩
  exact ⟨map_text_eq_iff.trans alike_iff, disassemble_eq_iff.trans alike_iff⟩

/-- A digit too many and a mode that a halt has no operand for are not shown,
but the mode of an operand is. -/
theorem printed_eq_iff_halting :
    Alike [1002, 4, 3, 4, 99] [101002, 4, 3, 4, 1199] ∧
      ¬Alike [1002, 4, 3, 4, 99] [1102, 4, 3, 4, 99] := by
  constructor
  · have printed := printed_eq_iff [1002, 4, 3, 4, 99] [101002, 4, 3, 4, 1199]
    exact printed.1.mp (by decide +kernel)
  · intro alike
    have printed := printed_eq_iff [1002, 4, 3, 4, 99] [1102, 4, 3, 4, 99]
    exact absurd (printed.1.mpr alike) (by decide +kernel)

end CellMachines.Listing
