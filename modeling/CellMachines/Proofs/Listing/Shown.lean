import CellMachines.Command
import CellMachines.Proofs.Instruction.Decoding
import CellMachines.Proofs.Text.Separation
import CellMachines.Proofs.Text.Trimming

/-!
# What the text of a line tells

A line of a listing tells its address and what it shows: a word of data, or an
operation with a mode and a word for each of its operands.  Both can be read off
its text again (`rendered_injective`).  The modes of operands that the operation
does not have are left out, so instructions that resemble each other are shown
alike (`shown_code_eq_iff`).
-/

namespace CellMachines

open Text

/-- The same operation, with the same modes for the operands that it has. -/
def Instruction.Resembles (left right : Instruction) : Prop :=
  left.opcode = right.opcode ∧
    left.modes.take left.opcode.arity = right.modes.take right.opcode.arity

namespace Listing

/-- What can be read off the text of a line. -/
inductive Shown where
  | code (opcode : Opcode) (operands : List (Mode × Word))
  | data (cell : Word)

def Content.shown : Content → Shown
  | .code instruction operands =>
    .code instruction.opcode (instruction.modes.zip operands)
  | .data cell => .data cell

def Line.shown (line : Line) : Nat × Shown :=
  (line.address, line.content.shown)

variable {line : Line} {lines others : List Line}

/-! ## The text of a line -/

private theorem mnemonic_ne (opcode : Opcode) :
    ∀ character ∈ opcode.mnemonic.toList,
      character ≠ ' ' ∧ character ≠ '\n' := by
  cases opcode <;> simp [Opcode.mnemonic]

private theorem mnemonic_injective {opcode other : Opcode}
    (same : opcode.mnemonic.toList = other.mnemonic.toList) :
    opcode = other := by
  have names := String.toList_inj.mp same
  cases opcode <;> cases other <;>
    first | rfl | simp [Opcode.mnemonic] at names

private theorem sigil_ne (mode : Mode) :
    mode.sigil ≠ ',' ∧ mode.sigil ≠ '\n' := by
  cases mode <;> decide

private theorem sigil_injective {mode other : Mode}
    (same : mode.sigil = other.sigil) : mode = other := by
  cases mode <;> cases other <;> first | rfl | cases same

private theorem ofInt_injective {word other : Word}
    (same : Decimal.ofInt word.toInt = Decimal.ofInt other.toInt) :
    word = other := by
  have reads := Decimal.word?_eq_some_iff.mpr (Decimal.numeral_ofInt word.toInt)
  rw [same, Decimal.word?_eq_some_iff.mpr (Decimal.numeral_ofInt other.toInt)]
    at reads
  exact (Option.some.inj reads).symm

def operandPart (operand : Mode × Word) : List Char :=
  operand.1.sigil :: Decimal.ofInt operand.2.toInt

private theorem operandPart_injective : Function.Injective operandPart := by
  intro operand other same
  obtain ⟨sigils, numbers⟩ := List.cons.inj same
  exact Prod.ext (sigil_injective sigils) (ofInt_injective numbers)

private theorem comma_notMem_operandPart (operand : Mode × Word) :
    ',' ∉ operandPart operand := by
  intro member
  rcases List.mem_cons.mp member with sigil | member
  · exact (sigil_ne operand.1).1 sigil.symm
  · exact (Decimal.numeral_ofInt _).comma_notMem member

/-- What follows the mnemonic. -/
def operandsText (operands : List (Mode × Word)) : List Char :=
  match operands with
  | [] => []
  | _ => [' ', ' '] ++ [',', ' '].intercalate (operands.map operandPart)

private theorem operandsText_injective : Function.Injective operandsText := by
  have parted (operands : List (Mode × Word)) :
      ∀ part ∈ operands.map operandPart, part ≠ [] ∧ ',' ∉ part := by
    intro part member
    obtain ⟨operand, _, rfl⟩ := List.mem_map.mp member
    exact ⟨List.cons_ne_nil _ _, comma_notMem_operandPart operand⟩
  intro operands others same
  cases operands with
  | nil =>
      cases others with
      | nil => rfl
      | cons => cases same
  | cons =>
      cases others with
      | nil => cases same
      | cons =>
          have parts := intercalate_inj (parted _) (parted _)
            (List.append_cancel_left same)
          exact List.map_injective_iff.mpr operandPart_injective parts

def Shown.text : Shown → List Char
  | .code opcode operands => opcode.mnemonic.toList ++ operandsText operands
  | .data cell => ".data ".toList ++ Decimal.ofInt cell.toInt

theorem Content.text_eq (content : Content) :
    content.text = content.shown.text := by
  cases content with
  | data cell => rfl
  | code instruction operands =>
      cases operands with
      | nil => exact (List.append_nil _).symm
      | cons operand operands => exact List.append_assoc _ _ _

private theorem stops_operandsText (operands : List (Mode × Word)) :
    Stops (· ≠ ' ') (operandsText operands) := by
  cases operands with
  | nil => exact stops_nil
  | cons => exact stops_cons (not_not_intro rfl)

private theorem Shown.text_injective : Function.Injective Shown.text := by
  have mnemonic_ne_data (opcode : Opcode) (operands : List (Mode × Word))
      (cell : Word) : text (.code opcode operands) ≠ text (.data cell) := by
    intro same
    have first : (text (.code opcode operands)).head? = some '.' := by
      rw [same]
      rfl
    cases opcode <;> cases first
  have mnemonic_kind (opcode : Opcode) :
      ∀ character ∈ opcode.mnemonic.toList, character ≠ ' ' :=
    fun character member => (mnemonic_ne opcode character member).1
  intro shown other same
  cases shown with
  | code opcode operands =>
      cases other with
      | code another others =>
          obtain ⟨mnemonics, rest⟩ := append_inj_of_stops
            (mnemonic_kind opcode) (mnemonic_kind another)
            (stops_operandsText operands) (stops_operandsText others) same
          rw [mnemonic_injective mnemonics, operandsText_injective rest]
      | data cell => exact absurd same (mnemonic_ne_data opcode operands cell)
  | data cell =>
      cases other with
      | code opcode operands =>
          exact absurd same.symm (mnemonic_ne_data opcode operands cell)
      | data other =>
          rw [ofInt_injective (List.append_cancel_left same)]

/-- The text of a line that shows something at an address. -/
def rendered (shown : Nat × Shown) : List Char :=
  Decimal.padded 4 shown.1 ++ [' ', ' '] ++ shown.2.text

theorem Line.text_eq (line : Line) :
    line.text = String.ofList (rendered line.shown) := by
  rw [Line.text, Content.text_eq]
  rfl

theorem rendered_injective : Function.Injective rendered := by
  intro shown other same
  rw [rendered, rendered, List.append_assoc, List.append_assoc] at same
  have numbered := Decimal.digits_padded 4 shown.1
  have renumbered := Decimal.digits_padded 4 other.1
  obtain ⟨numbers, texts⟩ := append_inj_of_stops numbered.isDigit
    renumbered.isDigit (stops_cons (by decide)) (stops_cons (by decide)) same
  have behind : [' ', ' '] ++ shown.2.text = [' ', ' '] ++ other.2.text := texts
  apply Prod.ext
  · rw [numbered.value_eq, numbers, ← renumbered.value_eq]
  · exact Shown.text_injective (List.append_cancel_left behind)

private theorem newline_notMem_ofInt (number : Int) :
    '\n' ∉ Decimal.ofInt number := by
  intro member
  rcases (Decimal.isPlain_ofInt number).minus_or_digit _ member with
    minus | isDigit
  · cases minus
  · cases isDigit

private theorem newline_notMem_operandsText (operands : List (Mode × Word)) :
    '\n' ∉ operandsText operands := by
  cases operands with
  | nil => exact List.not_mem_nil
  | cons operand operands =>
      intro member
      rcases List.mem_append.mp member with blank | member
      · exact absurd blank (by decide)
      · rcases mem_intercalate member with between | ⟨part, among, member⟩
        · exact absurd between (by decide)
        · obtain ⟨operand, _, rfl⟩ := List.mem_map.mp among
          rcases List.mem_cons.mp member with sigil | member
          · exact (sigil_ne operand.1).2 sigil.symm
          · exact newline_notMem_ofInt _ member

private theorem newline_notMem_rendered (shown : Nat × Shown) :
    '\n' ∉ rendered shown := by
  obtain ⟨address, shown⟩ := shown
  intro member
  rcases List.mem_append.mp member with front | member
  · rcases List.mem_append.mp front with digit | blank
    · have isDigit := (Decimal.digits_padded 4 address).isDigit _ digit
      cases isDigit
    · exact absurd blank (by decide)
  · cases shown with
    | code opcode operands =>
        rcases List.mem_append.mp member with mnemonic | member
        · exact (mnemonic_ne opcode _ mnemonic).2 rfl
        · exact newline_notMem_operandsText operands member
    | data cell =>
        rcases List.mem_append.mp member with label | member
        · exact absurd label (by decide)
        · exact newline_notMem_ofInt _ member

/-! ## The text of a listing -/

theorem map_text_eq_iff :
    lines.map Line.text = others.map Line.text ↔
      lines.map Line.shown = others.map Line.shown := by
  have text_eq (lines : List Line) : lines.map Line.text =
      (lines.map Line.shown).map (String.ofList ∘ rendered) := by
    rw [List.map_map]
    exact List.map_congr_left fun line _ => line.text_eq
  have injective : Function.Injective (String.ofList ∘ rendered) :=
    Function.Injective.comp (fun _ _ => String.ofList_injective)
      rendered_injective
  rw [text_eq, text_eq]
  exact (List.map_injective_iff.mpr injective).eq_iff

theorem disassemble_eq_iff {program other : Program} :
    Command.disassemble program = Command.disassemble other ↔
      (ofCells program.cells).map Line.shown =
        (ofCells other.cells).map Line.shown := by
  have text_eq (program : Program) : (Command.disassemble program).toList =
      (((ofCells program.cells).map Line.shown).map rendered).flatMap
        (· ++ ['\n']) := by
    rw [Command.disassemble, String.toList_join, List.flatMap_map, List.map_map,
      List.flatMap_map]
    apply List.flatMap_congr
    intro line _
    rw [String.toList_append, Line.text_eq, String.toList_ofList]
    rfl
  have free (lines : List (Nat × Shown)) :
      ∀ part ∈ lines.map rendered, '\n' ∉ part := by
    intro part member
    obtain ⟨shown, _, rfl⟩ := List.mem_map.mp member
    exact newline_notMem_rendered shown
  constructor
  · intro same
    rw [← String.toList_inj, text_eq, text_eq] at same
    have parts := terminated_inj (free _) (free _) same
    exact List.map_injective_iff.mpr rendered_injective parts
  · intro same
    rw [← String.toList_inj, text_eq, text_eq, same]

/-! ## Widths -/

/-- The number of cells that what is shown takes up. -/
def Shown.width : Shown → Nat
  | .code opcode _ => opcode.arity + 1
  | .data _ => 1

theorem Content.width_eq (content : Content) :
    content.width = content.shown.width := by
  cases content <;> rfl

theorem Content.width_pos (content : Content) : 0 < content.width := by
  cases content with
  | code => exact Nat.succ_pos _
  | data => exact Nat.one_pos

/-! ## Instructions -/

section Instructions

variable {instruction other : Instruction} {operands values : List Word}

private theorem arity_le (instruction : Instruction) :
    instruction.opcode.arity ≤ instruction.modes.length :=
  instruction.opcode.arity_le

private theorem modes_zip
    (filled : operands.length = instruction.opcode.arity) :
    instruction.modes.zip operands =
      (instruction.modes.take instruction.opcode.arity).zip operands := by
  rw [List.zip_eq_zip_take_min, filled, Nat.min_eq_right (arity_le instruction),
    ← filled, List.take_length]

private theorem unzip_modes_zip
    (filled : operands.length = instruction.opcode.arity) :
    (instruction.modes.zip operands).unzip =
      (instruction.modes.take instruction.opcode.arity, operands) := by
  rw [modes_zip filled, List.unzip_zip]
  rw [List.length_take_of_le (arity_le instruction), filled]

/-- Instructions show the same exactly if they resemble each other and have the
same operands. -/
theorem shown_code_eq_iff
    (filled : operands.length = instruction.opcode.arity)
    (others_filled : values.length = other.opcode.arity) :
    (Content.code instruction operands).shown =
        (Content.code other values).shown ↔
      instruction.Resembles other ∧ operands = values := by
  rw [Content.shown, Content.shown, Shown.code.injEq]
  constructor
  · rintro ⟨opcodes, zipped⟩
    have pairs := unzip_modes_zip filled
    rw [zipped, unzip_modes_zip others_filled] at pairs
    obtain ⟨modes, values_eq⟩ := Prod.mk.inj pairs
    exact ⟨⟨opcodes, modes.symm⟩, values_eq.symm⟩
  · rintro ⟨⟨opcodes, modes⟩, rfl⟩
    rw [modes_zip filled, modes_zip others_filled, modes]
    exact ⟨opcodes, rfl⟩

end Instructions

end Listing

end CellMachines
