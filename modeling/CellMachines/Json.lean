import CellMachines.Text.Decimal

/-!
# JSON

The JSON values that reports are made of, and their text: every item of an array
and every field of an object stands on a line of its own, two spaces further in
than the brackets around it, and an empty array or object is just its brackets.
-/

namespace CellMachines.Json

open Text

inductive Value where
  | null
  | number (value : Int)
  | text (value : String)
  | array (items : List Value)
  | object (fields : List (String × Value))

namespace Value

def natural (value : Nat) : Value := .number value

def word (value : Word) : Value := .number value.toInt

def words (values : List Word) : Value := .array (values.map word)

end Value

/-- The written form of a character in a text. -/
def escapeChar (character : Char) : List Char :=
  match character with
  | '"' => ['\\', '"']
  | '\\' => ['\\', '\\']
  | '\n' => ['\\', 'n']
  | '\r' => ['\\', 'r']
  | '\t' => ['\\', 't']
  | '\x08' => ['\\', 'b']
  | '\x0c' => ['\\', 'f']
  | other =>
    if other < ' ' then
      let digits := Nat.toDigits 16 other.toNat
      ['\\', 'u'] ++ List.replicate (4 - digits.length) '0' ++ digits
    else [other]

def quote (text : String) : String :=
  String.ofList ('"' :: text.toList.flatMap escapeChar ++ ['"'])

/-- A new line that begins with spaces for a depth of nesting. -/
def newLine (depth : Nat) : String :=
  String.ofList ('\n' :: List.replicate (2 * depth) ' ')

/-- Parts between brackets, each on a line of its own. -/
def block (opening closing : String) (depth : Nat) (parts : List String) :
    String :=
  if parts.isEmpty then opening ++ closing
  else
    opening ++ newLine (depth + 1) ++
      String.intercalate ("," ++ newLine (depth + 1)) parts ++
      newLine depth ++ closing

mutual

/-- The text of a value whose brackets stand at a depth of nesting. -/
def render (depth : Nat) : Value → String
  | .null => "null"
  | .number value => intText value
  | .text value => quote value
  | .array items => block "[" "]" depth (renderItems (depth + 1) items)
  | .object fields =>
    block "\x7b" "\x7d" depth (renderFields (depth + 1) fields)

def renderItems (depth : Nat) : List Value → List String
  | [] => []
  | item :: later => render depth item :: renderItems depth later

def renderFields (depth : Nat) : List (String × Value) → List String
  | [] => []
  | (name, value) :: later =>
    (quote name ++ ": " ++ render depth value) :: renderFields depth later

end

def Value.pretty (value : Value) : String :=
  render 0 value

end CellMachines.Json
