import CellMachines.Toml.Table

/-!
# TOML scalars

The values of TOML 1.0 that hold no other values: strings in four notations,
whole numbers in four bases, floating-point numbers, booleans, and dates and
times.  A reader takes a value off the front of a text and yields the rest with
it.  Numbers that are out of range and dates that are in no calendar have no
reading.
-/

namespace CellMachines.Toml

/-- Takes something off the front of a text. -/
abbrev Reader (α : Type) := List Char → Option (α × List Char)

def skipSpaces (text : List Char) : List Char :=
  text.dropWhile fun character => character = ' ' || character = '\t'

def newline? : List Char → Option (List Char)
  | '\n' :: rest => some rest
  | '\r' :: '\n' :: rest => some rest
  | _ => none

/-- The characters that may stand in comments and strings: no controls except
the tab. -/
def isTextual (character : Char) : Bool :=
  character = '\t' || (' ' ≤ character && character ≤ '~') ||
    0x80 ≤ character.toNat

/-! ## Strings -/

def hexDigit? (character : Char) : Option Nat :=
  if character.isDigit then some (character.toNat - 48)
  else if 'a' ≤ character ∧ character ≤ 'f' then some (character.toNat - 87)
  else if 'A' ≤ character ∧ character ≤ 'F' then some (character.toNat - 55)
  else none

/-- The character whose code point the digits denote; surrogates are no
characters. -/
def codePoint? (digits : List Char) : Option Char := do
  let values ← digits.mapM hexDigit?
  let code := values.foldl (fun code value => 16 * code + value) 0
  if code.isValidChar then some (Char.ofNat code) else none

/-- The character that a backslash and one other character stand for. -/
def escaped? : Char → Option Char
  | 'b' => some '\x08'
  | 't' => some '\t'
  | 'n' => some '\n'
  | 'f' => some '\x0c'
  | 'r' => some '\r'
  | '"' => some '"'
  | '\\' => some '\\'
  | _ => none

/-- The rest of a string in double quotes, after the characters read so far in
reverse. -/
def basicBody (read : List Char) : Reader String
  | [] => none
  | '"' :: rest => some (String.ofList read.reverse, rest)
  | '\\' :: 'u' :: a :: b :: c :: d :: rest =>
    match codePoint? [a, b, c, d] with
    | some character => basicBody (character :: read) rest
    | none => none
  | '\\' :: 'U' :: a :: b :: c :: d :: e :: f :: g :: h :: rest =>
    match codePoint? [a, b, c, d, e, f, g, h] with
    | some character => basicBody (character :: read) rest
    | none => none
  | '\\' :: letter :: rest =>
    match escaped? letter with
    | some character => basicBody (character :: read) rest
    | none => none
  | character :: rest =>
    if isTextual character && character ≠ '\\' then
      basicBody (character :: read) rest
    else none

/-- Up to two quotes directly before the three that close a string belong to it.
-/
def closeMultiline (quote : Char) (read rest : List Char) :
    String × List Char :=
  match rest with
  | first :: second :: later =>
    if first = quote ∧ second = quote then
      (String.ofList (quote :: quote :: read).reverse, later)
    else if first = quote then
      (String.ofList (quote :: read).reverse, second :: later)
    else (String.ofList read.reverse, rest)
  | [first] =>
    if first = quote then (String.ofList (quote :: read).reverse, [])
    else (String.ofList read.reverse, rest)
  | [] => (String.ofList read.reverse, rest)

/-- The rest of a string in three double quotes.  A backslash at the end of a
line makes all blanks and line breaks after it disappear; `trimming` tells that
we are among those. -/
def multilineBasicBody (trimming : Bool) (read : List Char) : Reader String
  | [] => none
  | '"' :: '"' :: '"' :: rest => some (closeMultiline '"' read rest)
  | '\\' :: 'u' :: a :: b :: c :: d :: rest =>
    match codePoint? [a, b, c, d] with
    | some character => multilineBasicBody false (character :: read) rest
    | none => none
  | '\\' :: 'U' :: a :: b :: c :: d :: e :: f :: g :: h :: rest =>
    match codePoint? [a, b, c, d, e, f, g, h] with
    | some character => multilineBasicBody false (character :: read) rest
    | none => none
  | '\\' :: letter :: rest =>
    match escaped? letter with
    | some character => multilineBasicBody false (character :: read) rest
    | none =>
      if (newline? (skipSpaces (letter :: rest))).isSome then
        multilineBasicBody true read (letter :: rest)
      else none
  | '\r' :: '\n' :: rest =>
    multilineBasicBody trimming (if trimming then read else '\n' :: read) rest
  | '\n' :: rest =>
    multilineBasicBody trimming (if trimming then read else '\n' :: read) rest
  | character :: rest =>
    if trimming && (character = ' ' || character = '\t') then
      multilineBasicBody true read rest
    else if isTextual character && character ≠ '\\' then
      multilineBasicBody false (character :: read) rest
    else none

/-- The rest of a string in single quotes. -/
def literalBody (text : List Char) : Option (String × List Char) :=
  let isInner (character : Char) : Bool :=
    isTextual character && character ≠ '\''
  match text.dropWhile isInner with
  | '\'' :: rest => some (String.ofList (text.takeWhile isInner), rest)
  | _ => none

/-- The rest of a string in three single quotes. -/
def multilineLiteralBody (read : List Char) : Reader String
  | [] => none
  | '\'' :: '\'' :: '\'' :: rest => some (closeMultiline '\'' read rest)
  | '\r' :: '\n' :: rest => multilineLiteralBody ('\n' :: read) rest
  | '\n' :: rest => multilineLiteralBody ('\n' :: read) rest
  | character :: rest =>
    if isTextual character then multilineLiteralBody (character :: read) rest
    else none

/-- A line break right after the opening quotes does not belong to the string.
-/
def skipNewline (text : List Char) : List Char :=
  (newline? text).getD text

def lineString? : Reader String
  | '"' :: rest => basicBody [] rest
  | '\'' :: rest => literalBody rest
  | _ => none

def string? : Reader String
  | '"' :: '"' :: '"' :: rest => multilineBasicBody false [] (skipNewline rest)
  | '\'' :: '\'' :: '\'' :: rest => multilineLiteralBody [] (skipNewline rest)
  | text => lineString? text

/-! ## Numbers -/

/-- The digits at the front, each of which but the first may follow an
underscore. -/
def laterDigits (isDigit : Char → Bool) : List Char → List Char × List Char
  | '_' :: digit :: rest =>
    if isDigit digit then
      let (digits, rest) := laterDigits isDigit rest
      (digit :: digits, rest)
    else ([], '_' :: digit :: rest)
  | digit :: rest =>
    if isDigit digit then
      let (digits, rest) := laterDigits isDigit rest
      (digit :: digits, rest)
    else ([], digit :: rest)
  | [] => ([], [])

/-- One or more digits with underscores between them. -/
def digits? (isDigit : Char → Bool) : Reader (List Char)
  | digit :: rest =>
    if isDigit digit then
      let (digits, rest) := laterDigits isDigit rest
      some (digit :: digits, rest)
    else none
  | [] => none

/-- Decimal digits of which the first is zero only if it is the only one. -/
def wholeDigits? : Reader (List Char)
  | '0' :: rest => some (['0'], rest)
  | text => digits? Char.isDigit text

/-- Whether a sign is negative, and the rest after it. -/
def sign : List Char → Bool × List Char
  | '-' :: rest => (true, rest)
  | '+' :: rest => (false, rest)
  | text => (false, text)

/-- The number that digits denote in a base. -/
def valueOf (base : Nat) (digits : List Char) : Nat :=
  digits.foldl (fun value digit => base * value + (hexDigit? digit).getD 0) 0

/-- A whole number that is a signed 64-bit number. -/
def integerItem? (value : Int) : Option Item :=
  if -9223372036854775808 ≤ value ∧ value ≤ 9223372036854775807 then
    some (.integer value)
  else none

/-- An unsigned number after the two characters that name its base. -/
def basedInteger? (base : Nat) (text : List Char) :
    Option (Item × List Char) := do
  let isDigit (digit : Char) : Bool :=
    (hexDigit? digit).any fun value => value < base
  let (digits, rest) ← digits? isDigit text
  return (← integerItem? (valueOf base digits), rest)

def exponent? : Reader Int
  | letter :: text => do
    if letter ≠ 'e' ∧ letter ≠ 'E' then failure
    let (negative, text) := sign text
    let (digits, rest) ← digits? Char.isDigit text
    let magnitude : Int := valueOf 10 digits
    return (if negative then -magnitude else magnitude, rest)
  | [] => none

def fraction? : Reader (List Char)
  | '.' :: text => digits? Char.isDigit text
  | _ => none

/-- Whether `digits · 10 ^ exponent` rounds to infinity as a number in double
precision: it is at least `2 ^ 1024 - 2 ^ 970`. -/
def overflows (digits : List Char) (exponent : Int) : Bool :=
  let significand := digits.dropWhile fun digit => digit = '0'
  let bound := Nat.pow 2 1024 - Nat.pow 2 970
  let magnitude : Int := significand.length + exponent
  if significand.isEmpty || magnitude < 300 then false
  else if 400 < magnitude then true
  else
    let value := valueOf 10 significand
    match exponent with
    | .ofNat power => decide (bound ≤ value * Nat.pow 10 power)
    | .negSucc power => decide (bound * Nat.pow 10 (power + 1) ≤ value)

/-- What follows the whole digits of a floating-point number. -/
def floatTail? (negative : Bool) (whole text : List Char) :
    Option (Item × List Char) :=
  let finish (digits : List Char) (exponent : Int) (rest : List Char) :
      Option (Item × List Char) :=
    if !negative && overflows digits exponent then none else some (.float, rest)
  match exponent? text with
  | some (exponent, rest) => finish whole exponent rest
  | none =>
    match fraction? text with
    | none => none
    | some (fraction, text) =>
      match exponent? text with
      | some (exponent, rest) =>
        finish (whole ++ fraction) (exponent - fraction.length) rest
      | none => finish (whole ++ fraction) (-fraction.length) text

/-- A number, after its sign, that is neither whole nor finite by spelling. -/
def specialFloat? : Reader Item
  | 'i' :: 'n' :: 'f' :: rest => some (.float, rest)
  | 'n' :: 'a' :: 'n' :: rest => some (.float, rest)
  | _ => none

def decimal? (text : List Char) : Option (Item × List Char) :=
  let (negative, unsigned) := sign text
  match specialFloat? unsigned with
  | some found => some found
  | none => do
    let (whole, rest) ← wholeDigits? unsigned
    match floatTail? negative whole rest with
    | some found => return found
    | none =>
      let magnitude : Int := valueOf 10 whole
      return (← integerItem? (if negative then -magnitude else magnitude), rest)

def number? : Reader Item
  | '0' :: 'x' :: rest => basedInteger? 16 rest
  | '0' :: 'o' :: rest => basedInteger? 8 rest
  | '0' :: 'b' :: rest => basedInteger? 2 rest
  | text => decimal? text

/-! ## Dates and times -/

/-- A number of exactly `count` digits. -/
def fixed? (count : Nat) (text : List Char) : Option (Nat × List Char) :=
  let digits := text.take count
  if digits.length = count && digits.all Char.isDigit then
    some (valueOf 10 digits, text.drop count)
  else none

def expect? (expected : Char) : List Char → Option (List Char)
  | character :: rest => if character = expected then some rest else none
  | [] => none

def isLeapYear (year : Nat) : Bool :=
  year % 4 = 0 && (year % 100 ≠ 0 || year % 400 = 0)

def daysIn (year month : Nat) : Nat :=
  match month with
  | 2 => if isLeapYear year then 29 else 28
  | 4 | 6 | 9 | 11 => 30
  | _ => 31

def skipDate? (text : List Char) : Option (List Char) := do
  let (year, text) ← fixed? 4 text
  let text ← expect? '-' text
  let (month, text) ← fixed? 2 text
  let text ← expect? '-' text
  let (day, text) ← fixed? 2 text
  if 1 ≤ month ∧ month ≤ 12 ∧ 1 ≤ day ∧ day ≤ daysIn year month then return text
  else none

/-- The rest after fractions of a second, if there are any. -/
def skipFraction (text : List Char) : List Char :=
  match text with
  | '.' :: digit :: rest =>
    if digit.isDigit then rest.dropWhile Char.isDigit else text
  | _ => text

def skipTime? (text : List Char) : Option (List Char) := do
  let (hour, text) ← fixed? 2 text
  let text ← expect? ':' text
  let (minute, text) ← fixed? 2 text
  let text ← expect? ':' text
  let (second, text) ← fixed? 2 text
  if hour ≤ 23 ∧ minute ≤ 59 ∧ second ≤ 60 then return skipFraction text
  else none

/-- The rest after the distance from universal time, if there is one. -/
def skipOffset (text : List Char) : Option (List Char) :=
  match text with
  | 'Z' :: rest | 'z' :: rest => some rest
  | '+' :: rest | '-' :: rest => do
    let (hour, rest) ← fixed? 2 rest
    let rest ← expect? ':' rest
    let (minute, rest) ← fixed? 2 rest
    if hour ≤ 23 ∧ minute ≤ 59 then return rest else none
  | _ => some text

/-- A date, a time, or both with or without an offset. -/
def dateTime? (text : List Char) : Option (Item × List Char) :=
  match skipDate? text with
  | some rest =>
    let withTime : Option (List Char) :=
      match rest with
      | delimiter :: later =>
        if delimiter = 'T' ∨ delimiter = 't' ∨ delimiter = ' ' then
          (skipTime? later).bind skipOffset
        else none
      | [] => none
    some (.dateTime, withTime.getD rest)
  | none => (skipTime? text).map fun rest => (.dateTime, rest)

/-- A value that holds no other values. -/
def scalar? (text : List Char) : Option (Item × List Char) :=
  match text with
  | [] => none
  | first :: _ =>
    if first = '"' ∨ first = '\'' then
      (string? text).map fun (string, rest) => (.string string, rest)
    else if first = '+' ∨ first = '-' ∨ first.isDigit then
      (dateTime? text).orElse fun () => number? text
    else
      match text with
      | 't' :: 'r' :: 'u' :: 'e' :: rest => some (.boolean true, rest)
      | 'f' :: 'a' :: 'l' :: 's' :: 'e' :: rest => some (.boolean false, rest)
      | _ => specialFloat? text

end CellMachines.Toml
