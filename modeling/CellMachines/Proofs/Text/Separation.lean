import CellMachines.Proofs.Text.Numeral

/-!
# Taking texts apart

A text that is put together from parts can be taken apart again where each part
ends with the first character of another kind (`append_inj_of_stops`).  So the
parts of a list are told by its text when no part has the character in it that
the separator begins with, or the one that ends every line, and a padded number
is told by its digits, however many of them are only there for the width.
-/

namespace CellMachines.Text

/-- If the text has a first character, it is not of the kind. -/
def Stops (kind : Char → Prop) (text : List Char) : Prop :=
  ∀ character ∈ text.head?, ¬kind character

variable {kind : Char → Prop} {front other rest later : List Char}
  {mark : Char} {separator : List Char} {parts others : List (List Char)}

theorem stops_nil : Stops kind [] :=
  nofun

theorem stops_cons (different : ¬kind mark) : Stops kind (mark :: rest) := by
  intro character member
  cases member
  exact different

/-- What stands before the first character of another kind is the same in equal
texts, and so is what follows. -/
theorem append_inj_of_stops (front_kind : ∀ character ∈ front, kind character)
    (other_kind : ∀ character ∈ other, kind character)
    (rest_stops : Stops kind rest) (later_stops : Stops kind later)
    (same : front ++ rest = other ++ later) : front = other ∧ rest = later := by
  induction front generalizing other with
  | nil =>
      cases other with
      | nil => exact ⟨rfl, same⟩
      | cons character other =>
          have first : rest.head? = some character := by
            rw [← List.nil_append rest, same]
            rfl
          have isKind := other_kind character List.mem_cons_self
          exact absurd isKind (rest_stops character first)
  | cons character front induction =>
      cases other with
      | nil =>
          have first : later.head? = some character := by
            rw [← List.nil_append later, ← same]
            rfl
          have isKind := front_kind character List.mem_cons_self
          exact absurd isKind (later_stops character first)
      | cons head other =>
          obtain ⟨rfl, behind⟩ := List.cons.inj same
          obtain ⟨rfl, rest_eq⟩ := induction
            (List.forall_mem_cons.mp front_kind).2
            (List.forall_mem_cons.mp other_kind).2 behind
          exact ⟨rfl, rest_eq⟩

/-! ## Lists of parts -/

private theorem intercalate_cons (separator part : List Char)
    (parts : List (List Char)) :
    separator.intercalate (part :: parts) =
      part ++ parts.flatMap (separator ++ ·) := by
  induction parts generalizing part with
  | nil => rw [List.intercalate_singleton, List.flatMap_nil, List.append_nil]
  | cons next parts induction =>
      rw [List.intercalate_cons_cons, induction, List.flatMap_cons,
        List.append_assoc, List.append_assoc]

theorem mem_intercalate {separator : List Char} {character : Char}
    (member : character ∈ separator.intercalate parts) :
    character ∈ separator ∨ ∃ part ∈ parts, character ∈ part := by
  cases parts with
  | nil => cases member
  | cons part parts =>
      rw [intercalate_cons] at member
      rcases List.mem_append.mp member with first | member
      · exact .inr ⟨part, List.mem_cons_self, first⟩
      · obtain ⟨next, among, member⟩ := List.mem_flatMap.mp member
        rcases List.mem_append.mp member with between | inside
        · exact .inl between
        · exact .inr ⟨next, List.mem_cons_of_mem _ among, inside⟩

private theorem flatMap_inj (parts_free : ∀ part ∈ parts, mark ∉ part)
    (others_free : ∀ part ∈ others, mark ∉ part)
    (same : parts.flatMap (mark :: separator ++ ·) =
      others.flatMap (mark :: separator ++ ·)) : parts = others := by
  have stops (parts : List (List Char)) :
      Stops (· ≠ mark) (parts.flatMap (mark :: separator ++ ·)) := by
    cases parts with
    | nil => exact stops_nil
    | cons part parts => exact stops_cons (not_not_intro rfl)
  have unlike {part : List Char} (free : mark ∉ part) :
      ∀ character ∈ part, character ≠ mark := by
    rintro character member rfl
    exact free member
  induction parts generalizing others with
  | nil =>
      cases others with
      | nil => rfl
      | cons => cases same
  | cons part parts induction =>
      cases others with
      | nil => cases same
      | cons other others =>
          obtain ⟨part_free, later_free⟩ := List.forall_mem_cons.mp parts_free
          obtain ⟨other_free, rest_free⟩ := List.forall_mem_cons.mp others_free
          rw [List.flatMap_cons, List.flatMap_cons, List.append_assoc,
            List.append_assoc] at same
          obtain ⟨rfl, rest_eq⟩ := append_inj_of_stops (unlike part_free)
            (unlike other_free) (stops parts) (stops others)
            (List.append_cancel_left same)
          rw [induction later_free rest_free rest_eq]

/-- A list of parts that are not empty is told by their text, if none of them
has the character in it that the separator begins with. -/
theorem intercalate_inj
    (parts_free : ∀ part ∈ parts, part ≠ [] ∧ mark ∉ part)
    (others_free : ∀ part ∈ others, part ≠ [] ∧ mark ∉ part)
    (same : (mark :: separator).intercalate parts =
      (mark :: separator).intercalate others) : parts = others := by
  have begun : parts.flatMap (mark :: separator ++ ·) =
      others.flatMap (mark :: separator ++ ·) := by
    cases parts with
    | nil =>
        cases others with
        | nil => rfl
        | cons other others =>
            rw [List.intercalate_nil, intercalate_cons] at same
            have empty := (List.append_eq_nil_iff.mp same.symm).1
            exact absurd empty (others_free other List.mem_cons_self).1
    | cons part parts =>
        rw [intercalate_cons] at same
        cases others with
        | nil =>
            have empty := (List.append_eq_nil_iff.mp same).1
            exact absurd empty (parts_free part List.mem_cons_self).1
        | cons other others =>
            rw [intercalate_cons] at same
            rw [List.flatMap_cons, List.flatMap_cons, List.append_assoc, same,
              List.append_assoc]
  exact flatMap_inj (fun part member => (parts_free part member).2)
    (fun part member => (others_free part member).2) begun

/-- A list of lines is told by their text if no line has the character in it
that ends every line. -/
theorem terminated_inj (parts_free : ∀ part ∈ parts, mark ∉ part)
    (others_free : ∀ part ∈ others, mark ∉ part)
    (same : parts.flatMap (· ++ [mark]) = others.flatMap (· ++ [mark])) :
    parts = others := by
  -- the mark behind each line is the one in front of the next
  have shifted (parts : List (List Char)) :
      mark :: parts.flatMap (· ++ [mark]) =
        parts.flatMap (mark :: [] ++ ·) ++ [mark] := by
    induction parts with
    | nil => rfl
    | cons part parts induction =>
        rw [List.flatMap_cons, List.append_assoc, List.singleton_append,
          induction]
        simp
  have begun : parts.flatMap (mark :: [] ++ ·) ++ [mark] =
      others.flatMap (mark :: [] ++ ·) ++ [mark] := by
    rw [← shifted, ← shifted, same]
  exact flatMap_inj parts_free others_free (List.append_cancel_right begun)

/-! ## Padded numbers -/

theorem Decimal.digits_padded (width value : Nat) :
    Digits (padded width value) value := by
  have digits := digits_ofNat value
  have nonempty : padded width value ≠ [] := by
    rw [padded]
    exact List.append_ne_nil_of_right_ne_nil _ digits.ne_nil
  have all : ∀ digit ∈ padded width value, digit.isDigit := by
    intro digit member
    rcases List.mem_append.mp member with zero | member
    · rw [List.eq_of_mem_replicate zero]
      rfl
    · exact digits.isDigit digit member
  have value_eq : value = Nat.ofDigitChars 10 (padded width value) 0 := by
    rw [padded, Nat.ofDigitChars_append, Nat.ofDigitChars_replicate_zero,
      Nat.mul_zero]
    exact digits.value_eq
  have denotes := digits_of_isDigit nonempty all
  rwa [← value_eq] at denotes

end CellMachines.Text
