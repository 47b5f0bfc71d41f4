import CellMachines.Proofs.Text.Numeral
import CellMachines.Text.Blank
import Mathlib.Data.List.DropRight

/-!
# Blanks around a text

Trimming takes the blanks off both ends of a text and stops at the first
character at either end that is none.  A text therefore trims to exactly one
core (`trim_eq_iff`), and more blanks around it make no difference.  Numerals
have no blanks in them, so they are their own cores.
-/

namespace CellMachines.Text

def AllBlank (text : List Char) : Prop :=
  ∀ character ∈ text, isBlank character

instance (text : List Char) : Decidable (AllBlank text) :=
  List.decidableBAll (fun character => isBlank character) text

/-- The text with blanks before and after it, or with none. -/
def Padded (core text : List Char) : Prop :=
  ∃ before after,
    AllBlank before ∧ AllBlank after ∧ text = before ++ core ++ after

/-- Neither end of the text is a blank. -/
structure IsTight (text : List Char) : Prop where
  first : ∀ character ∈ text.head?, isBlank character = false
  last : ∀ character ∈ text.getLast?, isBlank character = false

variable {text core before after : List Char} {character : Char}

theorem allBlank_append :
    AllBlank (before ++ after) ↔ AllBlank before ∧ AllBlank after :=
  List.forall_mem_append

theorem trim_eq (text : List Char) :
    trim text = (text.dropWhile isBlank).rdropWhile isBlank := rfl

theorem trim_eq_nil_iff : trim text = [] ↔ AllBlank text := by
  rw [trim_eq, List.rdropWhile_eq_nil_iff]
  constructor
  · intro blank
    have parts := List.takeWhile_append_dropWhile (p := isBlank) (l := text)
    rw [← parts, allBlank_append]
    exact ⟨fun _ member => List.mem_takeWhile_imp member, blank⟩
  · intro blank character member
    exact blank character (List.dropWhile_subset isBlank member)

theorem padded_trim (text : List Char) : Padded (trim text) text := by
  refine ⟨text.takeWhile isBlank, (text.dropWhile isBlank).rtakeWhile isBlank,
    ?_, ?_, ?_⟩
  · intro character member
    exact List.mem_takeWhile_imp member
  · intro character member
    exact List.mem_rtakeWhile_imp member
  · rw [List.append_assoc, trim_eq, List.rdropWhile_append_rtakeWhile,
      List.takeWhile_append_dropWhile]

theorem isTight_trim (text : List Char) : IsTight (trim text) := by
  constructor
  · intro character member
    have parts := List.rdropWhile_append_rtakeWhile
      (p := isBlank) (l := text.dropWhile isBlank)
    have head : (text.dropWhile isBlank).head? = some character := by
      rw [← parts]
      exact List.mem_head?_append_of_mem_head? member
    have stops := List.head?_dropWhile_not isBlank text
    rw [head] at stops
    exact stops
  · intro character member
    obtain ⟨some_left, rfl⟩ := List.mem_getLast?_eq_getLast member
    have stops := List.rdropWhile_last_not isBlank _ some_left
    exact Bool.eq_false_iff.mpr stops

theorem rdropWhile_append (afterBlank : AllBlank after) :
    (text ++ after).rdropWhile isBlank = text.rdropWhile isBlank := by
  have reversed : ∀ character ∈ after.reverse, isBlank character := by
    intro character member
    exact afterBlank character (List.mem_reverse.mp member)
  rw [List.rdropWhile, List.reverse_append,
    List.dropWhile_append_of_pos reversed, List.rdropWhile]

/-- Blanks around a text make no difference to what is left of it. -/
theorem trim_eq_of_padded (padded : Padded core text) :
    trim text = trim core := by
  obtain ⟨before, after, beforeBlank, afterBlank, rfl⟩ := padded
  rw [List.append_assoc, trim_eq, List.dropWhile_append_of_pos beforeBlank,
    List.dropWhile_append, trim_eq]
  split
  · rename_i nothing
    have gone := List.dropWhile_eq_nil_iff.mpr afterBlank
    rw [gone, List.isEmpty_iff.mp nothing]
  · exact rdropWhile_append afterBlank

theorem trim_of_isTight (tight : IsTight text) : trim text = text := by
  have first : text.dropWhile isBlank = text := by
    apply List.dropWhile_eq_self_iff.mpr
    intro some_left
    have head := tight.first text[0] (by simp [List.head?_eq_getElem?])
    rw [head]
    exact Bool.false_ne_true
  rw [trim_eq, first]
  apply List.rdropWhile_eq_self_iff.mpr
  intro some_left
  rw [tight.last _ (List.getLast_mem_getLast? some_left)]
  exact Bool.false_ne_true

theorem trim_trim (text : List Char) : trim (trim text) = trim text :=
  trim_of_isTight (isTight_trim text)

/-- The core of a text is what blanks around it leave, with no blank at either
end. -/
theorem trim_eq_iff : trim text = core ↔ Padded core text ∧ IsTight core := by
  constructor
  · rintro rfl
    exact ⟨padded_trim text, isTight_trim text⟩
  · rintro ⟨padded, tight⟩
    rw [trim_eq_of_padded padded, trim_of_isTight tight]

/-! ## Numerals -/

theorem not_isBlank_of_isDigit (isDigit : character.isDigit) :
    isBlank character = false := by
  have bounds := toNat_of_isDigit isDigit
  simp only [isBlank, Bool.or_eq_false_iff, Bool.and_eq_false_iff,
    decide_eq_false_iff_not, beq_eq_false_iff_ne]
  omega

theorem Numeral.not_isBlank {numeral : List Char} {number : Int}
    (denotes : Numeral numeral number) :
    ∀ character ∈ numeral, isBlank character = false := by
  intro character member
  rcases denotes.sign_or_digit character member with rfl | rfl | isDigit
  · decide
  · decide
  · exact not_isBlank_of_isDigit isDigit

theorem Numeral.isTight {numeral : List Char} {number : Int}
    (denotes : Numeral numeral number) : IsTight numeral where
  first character member :=
    denotes.not_isBlank character (List.mem_of_mem_head? member)
  last character member :=
    denotes.not_isBlank character (List.mem_of_mem_getLast? member)

theorem Numeral.comma_notMem {numeral : List Char} {number : Int}
    (denotes : Numeral numeral number) : ',' ∉ numeral := by
  intro member
  rcases denotes.sign_or_digit ',' member with sign | sign | isDigit
  · cases sign
  · cases sign
  · cases isDigit

end CellMachines.Text
