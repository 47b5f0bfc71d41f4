import CellMachines.Text.Decimal
import Mathlib.Data.List.Basic
import Mathlib.Data.List.Induction

/-!
# Numerals

A numeral is a run of decimal digits with at most one sign in front of it, and
it denotes an integer.  Reading accepts the numerals and nothing else
(`word?_eq_some_iff`), whatever the number of their digits.  Writing picks one
numeral for each integer, which is the only one without a plus sign, a
superfluous zero in front or a negated zero (`eq_ofInt_of_isPlain`).
-/

namespace CellMachines.Text

/-- One or more decimal digits, and the number that they denote. -/
inductive Digits : List Char → Nat → Prop where
  | single {digit : Char} :
      digit.isDigit → Digits [digit] (digit.toNat - '0'.toNat)
  | concat {digits : List Char} {digit : Char} {value : Nat} :
      Digits digits value → digit.isDigit →
      Digits (digits ++ [digit]) (10 * value + (digit.toNat - '0'.toNat))

/-- Digits with at most one sign in front, and the integer that they denote. -/
inductive Numeral : List Char → Int → Prop where
  | unsigned {digits : List Char} {value : Nat} :
      Digits digits value → Numeral digits value
  | positive {digits : List Char} {value : Nat} :
      Digits digits value → Numeral ('+' :: digits) value
  | negative {digits : List Char} {value : Nat} :
      Digits digits value → Numeral ('-' :: digits) (-value)

/-- Digits of which the first is not a zero. -/
structure IsLeading (digits : List Char) : Prop where
  ne_nil : digits ≠ []
  head : digits.head? ≠ some '0'
  digit : ∀ digit ∈ digits, digit.isDigit

/-- A numeral with no plus sign, no superfluous zero in front and no negated
zero. -/
inductive IsPlain : List Char → Prop where
  | zero : IsPlain ['0']
  | positive {digits : List Char} : IsLeading digits → IsPlain digits
  | negative {digits : List Char} : IsLeading digits → IsPlain ('-' :: digits)

variable {text digits : List Char} {value : Nat} {number : Int} {word : Word}
  {digit : Char}

/-! ## Digits -/

theorem toNat_of_isDigit (isDigit : digit.isDigit) :
    48 ≤ digit.toNat ∧ digit.toNat ≤ 57 := by
  simp only [Char.isDigit, Bool.and_eq_true, decide_eq_true_eq] at isDigit
  exact isDigit.imp UInt32.le_iff_toNat_le.mp UInt32.le_iff_toNat_le.mp

theorem Digits.ne_nil (denotes : Digits digits value) : digits ≠ [] := by
  cases denotes <;> simp

theorem Digits.isDigit (denotes : Digits digits value) :
    ∀ digit ∈ digits, digit.isDigit := by
  induction denotes with
  | single isDigit =>
      intro digit member
      rwa [List.mem_singleton.mp member]
  | concat _ isDigit induction =>
      intro digit member
      rcases List.mem_append.mp member with earlier | last
      · exact induction digit earlier
      · rwa [List.mem_singleton.mp last]

theorem Digits.value_eq (denotes : Digits digits value) :
    value = Nat.ofDigitChars 10 digits 0 := by
  induction denotes with
  | single => simp [Nat.ofDigitChars_cons]
  | concat _ _ induction =>
      rw [Nat.ofDigitChars_append, ← induction, Nat.ofDigitChars_cons,
        Nat.ofDigitChars_nil]

/-- Any run of digits denotes a number. -/
theorem digits_of_isDigit (some_digit : digits ≠ [])
    (all : ∀ digit ∈ digits, digit.isDigit) :
    Digits digits (Nat.ofDigitChars 10 digits 0) := by
  induction digits using List.reverseRecOn with
  | nil => exact absurd rfl some_digit
  | append_singleton earlier last induction =>
      have isDigit : last.isDigit :=
        all last (List.mem_append_right _ List.mem_cons_self)
      rw [Nat.ofDigitChars_append, Nat.ofDigitChars_cons, Nat.ofDigitChars_nil]
      by_cases first : earlier = []
      · subst earlier
        simpa using Digits.single isDigit
      · apply Digits.concat _ isDigit
        apply induction first
        intro digit member
        exact all digit (List.mem_append_left _ member)

theorem not_digits_cons (other : digit.isDigit = false) :
    ¬Digits (digit :: digits) value := by
  intro denotes
  have isDigit := denotes.isDigit digit List.mem_cons_self
  rw [other] at isDigit
  cases isDigit

/-! ## Reading -/

namespace Decimal

theorem natural?_eq_some_iff :
    natural? digits = some value ↔ Digits digits value := by
  constructor
  · intro found
    rw [natural?, Option.ite_none_right_eq_some] at found
    obtain ⟨reads, same⟩ := found
    cases same
    simp only [Bool.and_eq_true, Bool.not_eq_true', List.isEmpty_eq_false_iff,
      List.all_eq_true] at reads
    exact digits_of_isDigit reads.1 reads.2
  · intro denotes
    have all := List.all_eq_true.mpr denotes.isDigit
    have some_digit := List.isEmpty_eq_false_iff.mpr denotes.ne_nil
    rw [natural?, all, some_digit, denotes.value_eq]
    rfl

theorem integer?_minus (digits : List Char) :
    integer? ('-' :: digits) =
      (natural? digits).map fun value : Nat => -(value : Int) := by
  rw [integer?]
  cases natural? digits <;> rfl

theorem integer?_eq_some_iff :
    integer? text = some number ↔ Numeral text number := by
  constructor
  · intro found
    unfold integer? at found
    split at found
    · rw [← integer?, integer?_minus, Option.map_eq_some_iff] at found
      obtain ⟨value, reads, rfl⟩ := found
      exact .negative (natural?_eq_some_iff.mp reads)
    · obtain ⟨value, reads, rfl⟩ := Option.map_eq_some_iff.mp found
      exact .positive (natural?_eq_some_iff.mp reads)
    · obtain ⟨value, reads, rfl⟩ := Option.map_eq_some_iff.mp found
      exact .unsigned (natural?_eq_some_iff.mp reads)
  · intro denotes
    cases denotes with
    | unsigned denotes =>
        unfold integer?
        split
        · exact absurd denotes (not_digits_cons rfl)
        · exact absurd denotes (not_digits_cons rfl)
        · rw [natural?_eq_some_iff.mpr denotes]
          rfl
    | positive denotes | negative denotes =>
        rw [integer?, natural?_eq_some_iff.mpr denotes]
        rfl

/-- A word is read from the numerals that denote it, and from nothing else. -/
theorem word?_eq_some_iff :
    word? text = some word ↔ Numeral text word.toInt := by
  rw [word?, Option.bind_eq_some_iff]
  constructor
  · rintro ⟨number, reads, inside⟩
    rw [Word.ofInt?_eq_some_iff.mp inside]
    exact integer?_eq_some_iff.mp reads
  · intro denotes
    exact ⟨_, integer?_eq_some_iff.mpr denotes, Word.ofInt?_toInt word⟩

/-! ## Writing -/

theorem digits_ofNat (value : Nat) : Digits (ofNat value) value := by
  have denotes : Digits (ofNat value) (Nat.ofDigitChars 10 (ofNat value) 0) := by
    apply digits_of_isDigit Nat.toDigits_ne_nil
    intro digit member
    exact Nat.isDigit_of_mem_toDigits (by decide) (by decide) member
  rwa [ofNat, Nat.ofDigitChars_ten_toDigits] at denotes

theorem ofInt_natCast (value : Nat) : ofInt value = ofNat value := by
  rw [ofInt, if_neg (by omega), Int.natAbs_natCast]

theorem ofInt_neg (positive : 0 < value) :
    ofInt (-value) = '-' :: ofNat value := by
  rw [ofInt, if_pos (by omega), Int.natAbs_neg, Int.natAbs_natCast]

theorem numeral_ofInt (number : Int) : Numeral (ofInt number) number := by
  obtain ⟨value, rfl | rfl⟩ := Int.eq_nat_or_neg number
  · rw [ofInt_natCast]
    exact .unsigned (digits_ofNat value)
  · rcases Nat.eq_zero_or_pos value with rfl | positive
    · exact .unsigned (digits_ofNat 0)
    · rw [ofInt_neg positive]
      exact .negative (digits_ofNat value)

theorem isLeading_ofNat (positive : 0 < value) : IsLeading (ofNat value) where
  ne_nil := Nat.toDigits_ne_nil
  digit := (digits_ofNat value).isDigit
  head := by
    induction value using Nat.strongRecOn with
    | ind value induction =>
        rcases Nat.lt_or_ge value 10 with small | large
        · rw [ofNat, Nat.toDigits_of_lt_base small]
          simp only [List.head?_cons, ne_eq, Option.some.injEq,
            Nat.digitChar_eq_zero]
          omega
        · have front := induction (value / 10) (by omega) (by omega)
          rw [ofNat, Nat.toDigits_of_base_le (by decide) large,
            List.head?_append_of_ne_nil _ Nat.toDigits_ne_nil]
          exact front

theorem isPlain_ofInt (number : Int) : IsPlain (ofInt number) := by
  obtain ⟨value, rfl | rfl⟩ := Int.eq_nat_or_neg number
  all_goals rcases Nat.eq_zero_or_pos value with rfl | positive
  · exact .zero
  · rw [ofInt_natCast]
    exact .positive (isLeading_ofNat positive)
  · exact .zero
  · rw [ofInt_neg positive]
    exact .negative (isLeading_ofNat positive)

/-! ## Only one plain numeral -/

theorem digitChar_of_isDigit (isDigit : digit.isDigit) :
    Nat.digitChar (digit.toNat - '0'.toNat) = digit := by
  have bounds := toNat_of_isDigit isDigit
  apply Char.toNat_inj.mp
  rw [show '0'.toNat = 48 from rfl, Nat.toNat_digitChar_of_lt_ten (by omega)]
  omega

theorem value_lt_ten (isDigit : digit.isDigit) :
    digit.toNat - '0'.toNat < 10 := by
  have bounds := toNat_of_isDigit isDigit
  have zero : '0'.toNat = 48 := rfl
  omega

theorem pos_of_isLeading (leading : IsLeading (ofNat value)) : 0 < value := by
  apply Nat.pos_of_ne_zero
  rintro rfl
  exact leading.head rfl

theorem eq_ofNat_of_isLeading (denotes : Digits digits value)
    (leading : IsLeading digits) : digits = ofNat value := by
  induction denotes with
  | single isDigit =>
      rw [ofNat, Nat.toDigits_of_lt_base (value_lt_ten isDigit),
        digitChar_of_isDigit isDigit]
  | @concat digits digit value denotes isDigit induction =>
      have front : IsLeading digits := by
        refine ⟨denotes.ne_nil, ?_, denotes.isDigit⟩
        have head := leading.head
        rwa [List.head?_append_of_ne_nil _ denotes.ne_nil] at head
      have same := induction front
      rw [same] at front
      rw [ofNat, ← Nat.toDigits_append_toDigits (by decide)
          (pos_of_isLeading front) (value_lt_ten isDigit),
        Nat.toDigits_of_lt_base (value_lt_ten isDigit),
        digitChar_of_isDigit isDigit, same, ofNat]

/-- An integer has no plain numeral but the one that is written for it. -/
theorem eq_ofInt_of_isPlain (denotes : Numeral text number)
    (plain : IsPlain text) : text = ofInt number := by
  cases plain with
  | zero =>
      have reads := integer?_eq_some_iff.mpr denotes
      cases reads
      rfl
  | positive leading =>
      cases denotes with
      | unsigned denotes =>
          rw [ofInt_natCast]
          exact eq_ofNat_of_isLeading denotes leading
      | positive | negative =>
          have sign := leading.digit _ List.mem_cons_self
          cases sign
  | negative leading =>
      cases denotes with
      | unsigned denotes => exact absurd denotes (not_digits_cons rfl)
      | negative denotes =>
          have same := eq_ofNat_of_isLeading denotes leading
          rw [same] at leading
          rw [ofInt_neg (pos_of_isLeading leading), ← same]

end Decimal

/-! ## Characters -/

theorem Numeral.sign_or_digit (denotes : Numeral text number) :
    ∀ character ∈ text,
      character = '+' ∨ character = '-' ∨ character.isDigit := by
  intro character member
  cases denotes with
  | unsigned denotes => exact .inr (.inr (denotes.isDigit _ member))
  | positive denotes =>
      rcases List.mem_cons.mp member with sign | member
      · exact .inl sign
      · exact .inr (.inr (denotes.isDigit _ member))
  | negative denotes =>
      rcases List.mem_cons.mp member with sign | member
      · exact .inr (.inl sign)
      · exact .inr (.inr (denotes.isDigit _ member))

theorem IsPlain.minus_or_digit (plain : IsPlain text) :
    ∀ character ∈ text, character = '-' ∨ character.isDigit := by
  intro character member
  cases plain with
  | zero =>
      rw [List.mem_singleton.mp member]
      exact .inr rfl
  | positive leading => exact .inr (leading.digit _ member)
  | negative leading =>
      rcases List.mem_cons.mp member with sign | member
      · exact .inl sign
      · exact .inr (leading.digit _ member)

end CellMachines.Text
