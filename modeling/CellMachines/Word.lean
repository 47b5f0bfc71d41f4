/-!
# Machine words

A memory cell, a value on a link and an address computed from program data are
all signed 64-bit words.  Arithmetic on words never wraps: a sum or product that
leaves the range is no word at all.  `ofInt?` is therefore the only way from a
mathematical integer to a word, and `ofInt?_eq_some_iff` is the fact about it
that everything else is derived from.
-/

namespace CellMachines

abbrev Word := Int64

namespace Word

def InRange (value : Int) : Prop :=
  -9223372036854775808 ≤ value ∧ value ≤ 9223372036854775807

instance (value : Int) : Decidable (InRange value) :=
  inferInstanceAs (Decidable (_ ∧ _))

/-- The word that denotes `value`, when there is one. -/
def ofInt? (value : Int) : Option Word :=
  if InRange value then some (Int64.ofInt value) else none

theorem inRange_toInt (word : Word) : InRange word.toInt := by
  have lower := Int64.le_toInt word
  have upper := Int64.toInt_lt word
  constructor <;> omega

theorem ofInt?_toInt (word : Word) : ofInt? word.toInt = some word := by
  simp [ofInt?, inRange_toInt]

theorem ofInt?_eq_some_iff {value : Int} {word : Word} :
    ofInt? value = some word ↔ word.toInt = value := by
  constructor
  · intro found
    by_cases inside : InRange value
    · simp only [ofInt?, inside, if_true, Option.some.injEq] at found
      subst found
      obtain ⟨lower, upper⟩ := inside
      exact Int64.toInt_ofInt_of_le (by omega) (by omega)
    · simp [ofInt?, inside] at found
  · rintro rfl
    exact ofInt?_toInt word

theorem ofInt?_eq_none_iff {value : Int} :
    ofInt? value = none ↔ ¬ InRange value := by
  by_cases inside : InRange value <;> simp [ofInt?, inside]

/-- The exact sum, when it is a word. -/
def add? (left right : Word) : Option Word :=
  ofInt? (left.toInt + right.toInt)

/-- The exact product, when it is a word. -/
def mul? (left right : Word) : Option Word :=
  ofInt? (left.toInt * right.toInt)

/-- One for a condition that holds and zero for one that does not. -/
def ofBool (condition : Bool) : Word :=
  if condition then 1 else 0

/-- The address that a word denotes; a negative word denotes none. -/
def address? (word : Word) : Option Nat :=
  if word.toInt < 0 then none else some word.toInt.toNat

theorem address?_eq_some_iff {word : Word} {index : Nat} :
    word.address? = some index ↔ word.toInt = index := by
  unfold address?
  split
  · simp only [reduceCtorEq, false_iff]
    omega
  · simp only [Option.some.injEq]
    omega

theorem address?_eq_none_iff {word : Word} :
    word.address? = none ↔ word.toInt < 0 := by
  unfold address?
  split <;> simp [*]

end Word

end CellMachines
