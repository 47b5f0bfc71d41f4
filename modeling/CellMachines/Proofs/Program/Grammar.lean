import CellMachines.Proofs.Program.Fields

/-!
# The grammar of program texts

A program text is a list of numerals with commas between them, each numeral with
any number of blanks around it and in the range of words.  `Parses` says what
every text stands for: its words if it has this form, else the first part
between commas that spells no word, and nothing at all if there are only blanks.
Parsing agrees with it on all texts (`parse_follows_grammar`).
-/

namespace CellMachines.Program

open Text

/-- A numeral for the word with nothing but blanks around it. -/
def SpellsWord (part : List Char) (word : Word) : Prop :=
  ∃ numeral, Padded numeral part ∧ Numeral numeral word.toInt

/-- One or more words with commas between their spellings. -/
inductive Spells : List Char → List Word → Prop where
  | last {part : List Char} {word : Word} :
      SpellsWord part word → Spells part [word]
  | cons {part later : List Char} {word : Word} {words : List Word} :
      SpellsWord part word → Spells later words →
      Spells (part ++ ',' :: later) (word :: words)

/-- The first part between commas that spells no word is the one at `position`,
and `core` is what it has between its blanks. -/
def FailsAt (text : List Char) (position : Nat) (core : List Char) : Prop :=
  ∃ earlier part later,
    text.splitOn ',' = earlier ++ part :: later ∧
      earlier.length = position ∧
      (∀ other ∈ earlier, ∃ word, SpellsWord other word) ∧
      (¬∃ word, SpellsWord part word) ∧
      Padded core part ∧ IsTight core

/-- What a program text stands for. -/
inductive Parses : List Char → Except Failure Program → Prop where
  | blank {text : List Char} :
      AllBlank text → Parses text (.error .emptyProgram)
  | words {text : List Char} {words : List Word} :
      Spells text words → Parses text (.ok ⟨words⟩)
  | fails {text core : List Char} {position : Nat} :
      ¬AllBlank text → FailsAt text position core →
      Parses text (.error (.malformedProgram position (String.ofList core)))

/-- The same text with other blanks around it or around its parts. -/
inductive Respaced : List Char → List Char → Prop where
  | whole {core before after : List Char} :
      Padded core before → Padded core after → Respaced before after
  | cons {before after later others : List Char} :
      Respaced before after → Respaced later others →
      Respaced (before ++ ',' :: later) (after ++ ',' :: others)

variable {text part core : List Char} {word : Word} {words : List Word}
  {position : Nat} {parts : List (List Char)}

/-! ## One part -/

theorem word?_trim_eq_some_iff :
    Decimal.word? (trim part) = some word ↔ SpellsWord part word := by
  rw [Decimal.word?_eq_some_iff]
  constructor
  · intro denotes
    exact ⟨trim part, padded_trim part, denotes⟩
  · rintro ⟨numeral, padded, denotes⟩
    rwa [trim_eq_iff.mpr ⟨padded, denotes.isTight⟩]

theorem wordAt_of_spellsWord (spells : SpellsWord part word) :
    wordAt part position = .ok word := by
  rw [wordAt, word?_trim_eq_some_iff.mpr spells]

theorem wordAt_of_not_spellsWord (spoilt : ¬∃ word, SpellsWord part word) :
    wordAt part position =
      .error (.malformedProgram position (String.ofList (trim part))) := by
  have nothing : Decimal.word? (trim part) = none := by
    rw [Option.eq_none_iff_forall_ne_some]
    intro word found
    exact spoilt ⟨word, word?_trim_eq_some_iff.mp found⟩
  rw [wordAt, nothing]

theorem SpellsWord.comma_notMem (spells : SpellsWord part word) :
    ',' ∉ part := by
  obtain ⟨numeral, ⟨before, after, beforeBlank, afterBlank, rfl⟩, denotes⟩ :=
    spells
  simp only [List.mem_append, not_or]
  exact ⟨⟨comma_notMem_of_allBlank beforeBlank, denotes.comma_notMem⟩,
    comma_notMem_of_allBlank afterBlank⟩

/-! ## All parts -/

theorem Spells.forall₂ (spells : Spells text words) :
    List.Forall₂ SpellsWord (text.splitOn ',') words := by
  induction spells with
  | last spells =>
      rw [List.splitOn_eq_singleton spells.comma_notMem]
      exact .cons spells .nil
  | cons spells _ induction =>
      rw [List.splitOn_append_cons_self_of_not_mem spells.comma_notMem]
      exact .cons spells induction

theorem Spells.ne_nil (spells : Spells text words) : words ≠ [] := by
  cases spells <;> exact List.cons_ne_nil _ _

theorem spells_intercalate (spells : List.Forall₂ SpellsWord parts words)
    (some_part : parts ≠ []) : Spells ([','].intercalate parts) words := by
  induction spells with
  | nil => exact absurd rfl some_part
  | @cons part word parts words spells rest induction =>
      cases parts with
      | nil =>
          cases rest
          rw [List.intercalate_singleton]
          exact .last spells
      | cons next later =>
          rw [List.intercalate_cons_cons, List.append_assoc]
          exact .cons spells (induction (List.cons_ne_nil next later))

theorem spells_iff_forall₂ :
    Spells text words ↔ List.Forall₂ SpellsWord (text.splitOn ',') words := by
  constructor
  · exact Spells.forall₂
  · intro spells
    have whole := spells_intercalate spells (List.splitOn_ne_nil ',' text)
    rwa [List.intercalate_splitOn] at whole

theorem readFrom_of_forall₂ (spells : List.Forall₂ SpellsWord parts words) :
    readFrom position parts = .ok words := by
  induction spells generalizing position with
  | nil => rfl
  | cons spells _ induction =>
      rw [readFrom_cons, wordAt_of_spellsWord spells, induction]
      rfl

theorem readFrom_of_not_spellsWord {earlier later : List (List Char)}
    (spelt : ∀ other ∈ earlier, ∃ word, SpellsWord other word)
    (spoilt : ¬∃ word, SpellsWord part word) :
    readFrom position (earlier ++ part :: later) =
      .error (.malformedProgram (position + earlier.length)
        (String.ofList (trim part))) := by
  induction earlier generalizing position with
  | nil =>
      rw [List.nil_append, readFrom_cons, wordAt_of_not_spellsWord spoilt]
      rfl
  | cons other earlier induction =>
      obtain ⟨⟨word, spells⟩, spelt⟩ := List.forall_mem_cons.mp spelt
      rw [List.cons_append, readFrom_cons, wordAt_of_spellsWord spells,
        induction spelt, List.length_cons,
        show position + 1 + earlier.length = position + (earlier.length + 1) by
          omega]
      rfl

theorem spelt_or_spoilt (parts : List (List Char)) :
    (∃ words, List.Forall₂ SpellsWord parts words) ∨
      ∃ earlier part later, parts = earlier ++ part :: later ∧
        (∀ other ∈ earlier, ∃ word, SpellsWord other word) ∧
        ¬∃ word, SpellsWord part word := by
  induction parts with
  | nil => exact .inl ⟨[], .nil⟩
  | cons part parts induction =>
      by_cases spells : ∃ word, SpellsWord part word
      · rcases induction with ⟨words, rest⟩ | ⟨earlier, bad, later, rfl, spelt, spoilt⟩
        · obtain ⟨word, spells⟩ := spells
          exact .inl ⟨word :: words, .cons spells rest⟩
        · refine .inr ⟨part :: earlier, bad, later, rfl, ?_, spoilt⟩
          exact List.forall_mem_cons.mpr ⟨spells, spelt⟩
      · exact .inr ⟨[], part, parts, rfl, nofun, spells⟩

/-! ## Whole texts -/

theorem Spells.not_allBlank (spells : Spells text words) : ¬AllBlank text := by
  intro allBlank
  have alone := List.splitOn_eq_singleton (comma_notMem_of_allBlank allBlank)
  have parts := spells.forall₂
  rw [alone] at parts
  cases parts with
  | cons first =>
      have found := word?_trim_eq_some_iff.mpr first
      rw [trim_eq_nil_iff.mpr allBlank] at found
      cases found

theorem parse_of_not_allBlank {text : String}
    (other : ¬AllBlank text.toList) :
    parse text = (readFrom 0 (text.toList.splitOn ',')).map Program.mk := by
  rw [parse_eq, if_neg (mt allBlank_iff_fields.mpr other), fields,
    readFrom_map_trim]

theorem Parses.parse_eq {text : String} {result : Except Failure Program}
    (parses : Parses text.toList result) : parse text = result := by
  cases parses with
  | blank allBlank =>
      rw [Program.parse_eq, if_pos (allBlank_iff_fields.mp allBlank)]
  | words spells =>
      rw [parse_of_not_allBlank spells.not_allBlank,
        readFrom_of_forall₂ spells.forall₂]
      rfl
  | fails other fails =>
      obtain ⟨earlier, part, later, split, rfl, spelt, spoilt, core⟩ := fails
      rw [parse_of_not_allBlank other, split,
        readFrom_of_not_spellsWord spelt spoilt, trim_eq_iff.mpr core,
        Nat.zero_add]
      rfl

theorem exists_parses (text : List Char) : ∃ result, Parses text result := by
  by_cases allBlank : AllBlank text
  · exact ⟨_, .blank allBlank⟩
  · rcases spelt_or_spoilt (text.splitOn ',') with
      ⟨words, spells⟩ | ⟨earlier, part, later, split, spelt, spoilt⟩
    · exact ⟨_, .words (spells_iff_forall₂.mpr spells)⟩
    · exact ⟨_, .fails allBlank ⟨earlier, part, later, split, rfl, spelt,
        spoilt, padded_trim part, isTight_trim part⟩⟩

theorem parse_eq_iff {text : String} {result : Except Failure Program} :
    parse text = result ↔ Parses text.toList result := by
  constructor
  · rintro rfl
    obtain ⟨result, parses⟩ := exists_parses text.toList
    rwa [parses.parse_eq]
  · exact Parses.parse_eq

theorem Spells.length_eq (spells : Spells text words) :
    words.length = text.count ',' + 1 := by
  induction spells with
  | last spells =>
      rw [List.count_eq_zero_of_not_mem spells.comma_notMem]
      rfl
  | cons spells _ induction =>
      rw [List.count_append, List.count_cons_self,
        List.count_eq_zero_of_not_mem spells.comma_notMem, List.length_cons,
        induction, Nat.zero_add]

theorem Respaced.fields_eq {other : List Char}
    (respaced : Respaced text other) : fields text = fields other := by
  induction respaced with
  | whole before after =>
      rw [fields_eq_of_padded before, fields_eq_of_padded after]
  | cons _ _ first later =>
      rw [fields_append_comma, fields_append_comma, first, later]

/-- A text of blanks is empty, a list of numerals for words is these words, one
more than it has commas, and any other text fails at its first part that is none.
Blanks around the parts or around the whole make no difference. -/
theorem parse_follows_grammar (text : String) :
    (∀ result, parse text = result ↔ Parses text.toList result) ∧
      (∀ words, Spells text.toList words →
        words.length = text.toList.count ',' + 1) ∧
      ∀ other : String, Respaced text.toList other.toList →
        parse text = parse other := by
  refine ⟨fun _ => parse_eq_iff, fun _ => Spells.length_eq, ?_⟩
  intro other respaced
  rw [Program.parse_eq, Program.parse_eq, respaced.fields_eq]

/-- A sign, zeros in front and blanks make no difference to the words. -/
theorem parse_follows_grammar_spaced :
    Spells " +007 ,-0\n".toList [7, 0] ∧
      [7, 0].length = " +007 ,-0\n".toList.count ',' + 1 ∧
      Respaced " +007 ,-0\n".toList "+007,\t-0".toList ∧
      parse " +007 ,-0\n" = parse "+007,\t-0" := by
  obtain ⟨parses, length_eq, respace⟩ := parse_follows_grammar " +007 ,-0\n"
  have spells : Spells " +007 ,-0\n".toList [7, 0] := by
    have parsed : Parses " +007 ,-0\n".toList (.ok ⟨[7, 0]⟩) := by
      apply (parses _).mp
      decide +kernel
    cases parsed
    assumption
  have seven : Padded "+007".toList " +007 ".toList :=
    ⟨[' '], [' '], by decide, by decide, rfl⟩
  have zero : Padded "-0".toList "-0\n".toList :=
    ⟨[], ['\n'], by decide, by decide, rfl⟩
  have bare : Padded "+007".toList "+007".toList :=
    ⟨[], [], by decide, by decide, rfl⟩
  have tabbed : Padded "-0".toList "\t-0".toList :=
    ⟨['\t'], [], by decide, by decide, rfl⟩
  have respaced : Respaced " +007 ,-0\n".toList "+007,\t-0".toList :=
    .cons (.whole seven bare) (.whole zero tabbed)
  exact ⟨spells, length_eq _ spells, respaced, respace _ respaced⟩

end CellMachines.Program
