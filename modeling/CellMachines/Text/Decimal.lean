import CellMachines.Word

/-!
# Decimal numbers

Whole numbers are written with the fewest decimal digits and a minus sign for a
negative one.  They are read more liberally: a plus sign is accepted and so are
leading zeros, but at least one digit is required and nothing except ASCII
digits may follow the sign.
-/

namespace CellMachines.Text.Decimal

/-- The fewest digits that denote `value`. -/
def ofNat (value : Nat) : List Char :=
  Nat.toDigits 10 value

/-- The digits of the magnitude, after a minus sign when the number is negative.
-/
def ofInt (value : Int) : List Char :=
  if value < 0 then '-' :: ofNat value.natAbs else ofNat value.natAbs

/-- The number denoted by one or more ASCII digits. -/
def natural? (digits : List Char) : Option Nat :=
  if !digits.isEmpty && digits.all Char.isDigit then
    some (Nat.ofDigitChars 10 digits 0)
  else none

/-- The number denoted by digits with at most one sign in front. -/
def integer? : List Char → Option Int
  | '-' :: digits => (natural? digits).map fun magnitude => -(magnitude : Int)
  | '+' :: digits => (natural? digits).map Int.ofNat
  | digits => (natural? digits).map Int.ofNat

/-- The word denoted by a signed number; a number outside the range of words
denotes none. -/
def word? (text : List Char) : Option Word :=
  (integer? text).bind Word.ofInt?

/-- The digits of `value`, padded with zeros on the left to at least `width`
characters. -/
def padded (width value : Nat) : List Char :=
  let digits := ofNat value
  List.replicate (width - digits.length) '0' ++ digits

end CellMachines.Text.Decimal

namespace CellMachines.Text

def natText (value : Nat) : String :=
  String.ofList (Decimal.ofNat value)

def intText (value : Int) : String :=
  String.ofList (Decimal.ofInt value)

def wordText (word : Word) : String :=
  intText word.toInt

/-- The texts of words, with a comma between neighbours. -/
def commaSeparated (words : List Word) : String :=
  String.ofList
    ([','].intercalate (words.map fun word => Decimal.ofInt word.toInt))

end CellMachines.Text
