import CellMachines.Program
import CellMachines.Proofs.Text.Trimming
import Mathlib.Data.List.Forall2

/-!
# The fields of a program text

Parsing sees no more of a text than its fields: the parts between the commas,
each without the blanks around it (`parse_eq`).  The blanks around the whole
text are then blanks around its first and its last part, which is why trimming
the text before it is split loses nothing.  The fields are read from the left,
and the first that denotes no word is the one that is reported.
-/

namespace CellMachines.Program

open Text

def fields (text : List Char) : List (List Char) :=
  (text.splitOn ',').map trim

/-- The words that parts of a text denote, where the first part is the one at
`position`. -/
def readFrom (position : Nat) (parts : List (List Char)) :
    Except Failure (List Word) :=
  (parts.zipIdx position).mapM fun (part, position) => wordAt part position

variable {text core before after : List Char} {blank : Char}

/-! ## Splitting -/

theorem tokens_eq (text : List Char) : tokens text = text.splitOn ',' := by
  induction text with
  | nil => rfl
  | cons character text induction =>
      rw [tokens, List.foldr_cons, ← tokens, induction,
        List.splitOn_cons_eq_if_modifyHead]
      simp only [beq_iff_eq]
      split
      · rfl
      · obtain ⟨part, later, split⟩ :=
          List.exists_cons_of_ne_nil (List.splitOn_ne_nil ',' text)
        rw [split]
        rfl

theorem fields_cons_of_isBlank (isBlank : isBlank blank) :
    fields (blank :: text) = fields text := by
  obtain ⟨part, later, parts⟩ :=
    List.exists_cons_of_ne_nil (List.splitOn_ne_nil ',' text)
  have other : (blank == ',') = false := by
    rw [beq_eq_false_iff_ne]
    rintro rfl
    cases isBlank
  have padded : Padded part (blank :: part) := by
    refine ⟨[blank], [], ?_, nofun, (List.append_nil _).symm⟩
    exact List.forall_mem_singleton.mpr isBlank
  rw [fields, fields, List.splitOn_cons_eq_if_modifyHead, other, parts]
  exact congrArg (· :: later.map trim) (trim_eq_of_padded padded)

/-- What has no comma in it belongs to the last part. -/
theorem splitOn_append (text : List Char) (noComma : ',' ∉ after) :
    ∃ earlier last, text.splitOn ',' = earlier ++ [last] ∧
      (text ++ after).splitOn ',' = earlier ++ [last ++ after] := by
  induction text with
  | nil => exact ⟨[], [], rfl, List.splitOn_eq_singleton noComma⟩
  | cons character text induction =>
      obtain ⟨earlier, last, parts, more⟩ := induction
      rw [List.cons_append, List.splitOn_cons_eq_if_modifyHead,
        List.splitOn_cons_eq_if_modifyHead, parts, more]
      split
      · exact ⟨[] :: earlier, last, rfl, rfl⟩
      · cases earlier with
        | nil => exact ⟨[], character :: last, rfl, rfl⟩
        | cons part later =>
            exact ⟨(character :: part) :: later, last, rfl, rfl⟩

theorem comma_notMem_of_allBlank (allBlank : AllBlank text) : ',' ∉ text := by
  intro member
  have isBlank := allBlank ',' member
  cases isBlank

theorem fields_append (afterBlank : AllBlank after) :
    fields (text ++ after) = fields text := by
  obtain ⟨earlier, last, parts, more⟩ :=
    splitOn_append text (comma_notMem_of_allBlank afterBlank)
  have padded : Padded last (last ++ after) := ⟨[], after, nofun, afterBlank, rfl⟩
  rw [fields, fields, parts, more, List.map_append, List.map_append,
    List.map_singleton, List.map_singleton, trim_eq_of_padded padded]

/-- Blanks around a text are in none of its fields. -/
theorem fields_eq_of_padded (padded : Padded core text) :
    fields text = fields core := by
  obtain ⟨before, after, beforeBlank, afterBlank, rfl⟩ := padded
  rw [fields_append afterBlank]
  induction before with
  | nil => rfl
  | cons blank before induction =>
      obtain ⟨isBlank, beforeBlank⟩ := List.forall_mem_cons.mp beforeBlank
      rw [List.cons_append, fields_cons_of_isBlank isBlank]
      exact induction beforeBlank

theorem fields_append_comma (text later : List Char) :
    fields (text ++ ',' :: later) = fields text ++ fields later := by
  rw [fields, List.splitOn_append_cons_self, List.map_append, fields, fields]

theorem allBlank_iff_fields : AllBlank text ↔ fields text = [[]] := by
  constructor
  · intro allBlank
    have alone := List.splitOn_eq_singleton (comma_notMem_of_allBlank allBlank)
    rw [fields, alone, List.map_singleton, trim_eq_nil_iff.mpr allBlank]
  · intro alone
    obtain ⟨part, split, nothing⟩ := List.map_eq_singleton_iff.mp alone
    have whole : [','].intercalate (text.splitOn ',') = text :=
      List.intercalate_splitOn ','
    rw [split, List.intercalate_singleton] at whole
    subst whole
    exact trim_eq_nil_iff.mp nothing

/-! ## Reading -/

theorem wordAt_trim (part : List Char) (position : Nat) :
    wordAt (trim part) position = wordAt part position := by
  rw [wordAt, trim_trim, wordAt]

theorem readFrom_cons (position : Nat) (part : List Char)
    (parts : List (List Char)) :
    readFrom position (part :: parts) = do
      return (← wordAt part position) :: (← readFrom (position + 1) parts) := by
  rw [readFrom, List.zipIdx_cons, List.mapM_cons]
  rfl

theorem readFrom_map_trim (position : Nat) (parts : List (List Char)) :
    readFrom position (parts.map trim) = readFrom position parts := by
  induction parts generalizing position with
  | nil => rfl
  | cons part parts induction =>
      rw [List.map_cons, readFrom_cons, readFrom_cons, induction, wordAt_trim]

/-- Only the fields of a text decide what it is parsed to. -/
theorem parse_eq (text : String) :
    parse text =
      if fields text.toList = [[]] then .error .emptyProgram
      else (readFrom 0 (fields text.toList)).map Program.mk := by
  have reads : readFrom 0 (tokens (trim text.toList)) =
      readFrom 0 (fields text.toList) := by
    rw [tokens_eq, ← readFrom_map_trim]
    exact congrArg (readFrom 0)
      (fields_eq_of_padded (padded_trim text.toList)).symm
  simp only [← allBlank_iff_fields, ← trim_eq_nil_iff, ← reads]
  rw [parse]
  split
  · rename_i nothing
    rw [if_pos nothing]
  · rename_i some_left
    rw [if_neg some_left]
    rfl

end CellMachines.Program
