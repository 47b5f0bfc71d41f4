import CellMachines.Proofs.Machine.Deeds
import CellMachines.Proofs.Program.Grammar
import CellMachines.Proofs.Text.Separation

/-!
# Printed programs

The text that is printed for words is one of the texts that stand for them, and
among these it is the one in canonical form (`IsCanonical`): without blanks, plus
signs, superfluous zeros or negated zeros.  Parsing therefore takes a printed
text back to the words it was printed for, be they the cells of a program or of
a memory.  Only without any words there is nothing to be parsed.
-/

namespace CellMachines

open Text

namespace Program

/-- No blank and no plus sign occurs, and no part has a superfluous zero in front
or negates zero. -/
structure IsCanonical (text : List Char) : Prop where
  bare : ∀ character ∈ text, isBlank character = false ∧ character ≠ '+'
  plain : ∀ part ∈ text.splitOn ',', IsPlain part

variable {part : List Char} {parts : List (List Char)} {word : Word}
  {words : List Word} {program : Program}

/-! ## Canonical texts -/

theorem bare_of_isPlain (plain : IsPlain part) :
    ∀ character ∈ part, isBlank character = false ∧ character ≠ '+' := by
  intro character member
  rcases plain.minus_or_digit character member with rfl | isDigit
  · decide
  · refine ⟨not_isBlank_of_isDigit isDigit, ?_⟩
    rintro rfl
    cases isDigit

theorem isTight_of_isPlain (plain : IsPlain part) : IsTight part where
  first character member :=
    (bare_of_isPlain plain character (List.mem_of_mem_head? member)).1
  last character member :=
    (bare_of_isPlain plain character (List.mem_of_mem_getLast? member)).1

/-- It is enough that every part is plain. -/
theorem isCanonical_of_isPlain {text : List Char}
    (plain : ∀ part ∈ text.splitOn ',', IsPlain part) : IsCanonical text := by
  refine ⟨?_, plain⟩
  intro character member
  have whole : [','].intercalate (text.splitOn ',') = text :=
    List.intercalate_splitOn ','
  rw [← whole] at member
  rcases mem_intercalate member with between | ⟨part, among, member⟩
  · obtain rfl := List.mem_singleton.mp between
    decide
  · exact bare_of_isPlain (plain part among) character member

theorem eq_ofInt_of_spellsWord (spells : SpellsWord part word)
    (plain : IsPlain part) : part = Decimal.ofInt word.toInt := by
  have found := word?_trim_eq_some_iff.mpr spells
  rw [trim_of_isTight (isTight_of_isPlain plain)] at found
  exact Decimal.eq_ofInt_of_isPlain (Decimal.word?_eq_some_iff.mp found) plain

theorem eq_map_ofInt_of_forall₂ (spells : List.Forall₂ SpellsWord parts words)
    (plain : ∀ part ∈ parts, IsPlain part) :
    parts = words.map fun word => Decimal.ofInt word.toInt := by
  induction spells with
  | nil => rfl
  | cons spells _ induction =>
      obtain ⟨first, later⟩ := List.forall_mem_cons.mp plain
      rw [List.map_cons, ← induction later, ← eq_ofInt_of_spellsWord spells first]

/-! ## Parsing what is printed -/

theorem splitOn_text (some_cell : program.cells ≠ []) :
    program.text.toList.splitOn ',' =
      program.cells.map fun word => Decimal.ofInt word.toInt := by
  have chars : program.text.toList = [','].intercalate
      (program.cells.map fun word => Decimal.ofInt word.toInt) :=
    String.toList_ofList
  rw [chars]
  apply List.splitOn_intercalate
  · intro part among
    obtain ⟨word, _, rfl⟩ := List.mem_map.mp among
    exact (Decimal.numeral_ofInt word.toInt).comma_notMem
  · exact mt List.map_eq_nil_iff.mp some_cell

theorem isCanonical_text (some_cell : program.cells ≠ []) :
    IsCanonical program.text.toList := by
  apply isCanonical_of_isPlain
  intro part among
  rw [splitOn_text some_cell] at among
  obtain ⟨word, _, rfl⟩ := List.mem_map.mp among
  exact Decimal.isPlain_ofInt word.toInt

theorem spellsWord_ofInt (word : Word) :
    SpellsWord (Decimal.ofInt word.toInt) word :=
  ⟨_, ⟨[], [], nofun, nofun, (List.append_nil _).symm⟩,
    Decimal.numeral_ofInt word.toInt⟩

theorem spells_text (some_cell : program.cells ≠ []) :
    Spells program.text.toList program.cells := by
  rw [spells_iff_forall₂, splitOn_text some_cell, List.forall₂_map_left_iff,
    List.forall₂_same]
  intro word _
  exact spellsWord_ofInt word

theorem parse_text (some_cell : program.cells ≠ []) :
    parse program.text = .ok program :=
  parse_eq_iff.mpr (.words (spells_text some_cell))

theorem parse_text_of_nil (noCell : program.cells = []) :
    parse program.text = .error .emptyProgram := by
  obtain ⟨cells⟩ := program
  cases noCell
  exact parse_eq_iff.mpr (.blank nofun)

theorem parse_text_eq_error_iff {failure : Failure} :
    parse program.text = .error failure ↔
      program.cells = [] ∧ failure = .emptyProgram := by
  by_cases noCell : program.cells = []
  · rw [parse_text_of_nil noCell, Except.error.injEq]
    exact ⟨fun same => ⟨noCell, same.symm⟩, fun ⟨_, same⟩ => same.symm⟩
  · rw [parse_text noCell]
    exact ⟨nofun, fun ⟨nothing, _⟩ => absurd nothing noCell⟩

theorem text_injective : Function.Injective text := by
  intro program other same
  by_cases noCell : program.cells = []
  · have fails := parse_text_of_nil noCell
    rw [same, parse_text_eq_error_iff] at fails
    obtain ⟨cells⟩ := program
    obtain ⟨others⟩ := other
    exact congrArg mk (noCell.trans fails.1.symm)
  · have parsed := parse_text noCell
    by_cases nothing : other.cells = []
    · rw [same, parse_text_of_nil nothing] at parsed
      cases parsed
    · rw [same, parse_text nothing] at parsed
      cases parsed
      rfl

theorem ne_nil_of_parse {written : String}
    (parsed : parse written = .ok program) : program.cells ≠ [] := by
  cases parse_eq_iff.mp parsed with
  | words spells => exact spells.ne_nil

/-- The printed text is the only canonical one. -/
theorem eq_text_of_isCanonical {written : String}
    (canonical : IsCanonical written.toList)
    (parsed : parse written = .ok program) : written = program.text := by
  cases parse_eq_iff.mp parsed with
  | words spells =>
      have parts := eq_map_ofInt_of_forall₂ spells.forall₂ canonical.plain
      have whole : [','].intercalate (written.toList.splitOn ',') =
          written.toList :=
        List.intercalate_splitOn ','
      rw [parts] at whole
      rw [text, commaSeparated, whole, String.ofList_toList]

end Program

/-! ## Memories -/

theorem Memory.text_eq (memory : Memory) :
    memory.text = Program.text ⟨memory.cells.toList⟩ := rfl

theorem Memory.parse_text {memory : Memory} (some_cell : 0 < memory.length) :
    Program.parse memory.text = .ok ⟨memory.cells.toList⟩ := by
  have some_left : memory.cells.toList ≠ [] := by
    apply List.ne_nil_of_length_pos
    rwa [Array.length_toList]
  rw [text_eq]
  exact Program.parse_text some_left

theorem Memory.cells_eq_of_text_eq {memory other : Memory}
    (same : memory.text = other.text) : memory.cells = other.cells := by
  rw [text_eq, text_eq] at same
  have programs := Program.text_injective same
  exact Array.toList_inj.mp (congrArg Program.cells programs)

namespace Program

/-- Parsing inverts printing, for the cells of a program and for those of a
memory at the end of any run.  What is printed for a parsed text is canonical,
and nothing else that is canonical parses to the same. -/
theorem parse_inverts_text (program : Program) :
    (program.cells ≠ [] → parse program.text = .ok program) ∧
      (∀ failure, parse program.text = .error failure ↔
        program.cells = [] ∧ failure = .emptyProgram) ∧
      (∀ other : Program, program.text = other.text → program = other) ∧
      (∀ written, parse written = .ok program →
        IsCanonical program.text.toList ∧ parse program.text = .ok program ∧
          (IsCanonical written.toList → written = program.text)) ∧
      (∀ memory : Memory, 0 < memory.length →
        parse memory.text = .ok ⟨memory.cells.toList⟩) ∧
      (∀ memory other : Memory,
        memory.text = other.text → memory.cells = other.cells) ∧
      ∀ {σ : Type} (surroundings : Surroundings σ) (world left : σ)
        (limits : Limits) (budget : Nat) (result : Except Failure Unit)
        (machine : Machine), program.cells ≠ [] →
        (Machine.start program limits).run surroundings budget world =
          some (result, machine, left) →
        parse machine.memory.text = .ok ⟨machine.memory.cells.toList⟩ := by
  refine ⟨parse_text, fun _ => parse_text_eq_error_iff,
    fun _ same => text_injective same, ?_, fun _ => Memory.parse_text, ?_, ?_⟩
  · intro written parsed
    have some_cell := ne_nil_of_parse parsed
    refine ⟨isCanonical_text some_cell, parse_text some_cell, ?_⟩
    intro canonical
    exact eq_text_of_isCanonical canonical parsed
  · intro memory other same
    exact Memory.cells_eq_of_text_eq same
  · intro σ surroundings world left limits budget result machine some_cell ran
    apply Memory.parse_text
    apply Nat.lt_of_lt_of_le _ (Machine.length_mono_of_run ran)
    exact List.length_pos_iff.mpr some_cell

/-- Adds the least word to zero, writes it behind the last cell and halts. -/
def growing : Program :=
  ⟨[1101, 0, -9223372036854775808, 5, 99]⟩

/-- The least word is printed and parsed like any other, also in the memory that
the run has extended. -/
theorem parse_inverts_text_growing :
    parse growing.text = .ok growing ∧
      parse "+1101, 00,-9223372036854775808 ,05,99\n" = .ok growing ∧
      IsCanonical growing.text.toList ∧
      ∃ result machine left,
        (Machine.start growing {}).run Tape.surroundings 2 { waiting := [] } =
            some (result, machine, left) ∧
          parse machine.memory.text =
            .ok ⟨growing.cells ++ [-9223372036854775808]⟩ := by
  obtain ⟨parses, _, _, canonical, _, _, remains⟩ := parse_inverts_text growing
  have some_cell : growing.cells ≠ [] := List.cons_ne_nil _ _
  have written : parse "+1101, 00,-9223372036854775808 ,05,99\n" =
      .ok growing := by
    decide +kernel
  have image : ((Machine.start growing {}).run Tape.surroundings 2
        { waiting := [] }).map (·.2.1.memory.cells.toList) =
      some (growing.cells ++ [-9223372036854775808]) := by
    decide +kernel
  obtain ⟨⟨result, machine, left⟩, ran, same⟩ := Option.map_eq_some_iff.mp image
  refine ⟨parses some_cell, written, (canonical _ written).1, result, machine,
    left, ran, ?_⟩
  rw [← same]
  exact remains _ _ _ _ _ _ _ some_cell ran

end Program

end CellMachines
