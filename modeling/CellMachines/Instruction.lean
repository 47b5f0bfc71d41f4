import CellMachines.Failure

/-!
# Instructions

An instruction cell packs an operation into its two low decimal digits and an
addressing mode into each of the three digits above them, the first operand's
lowest.  Digits further up are ignored, so the encoding of an instruction is
only the smallest of the cells that decode to it.
-/

namespace CellMachines

/-- The operations of a machine. -/
inductive Opcode where
  | add | mul | input | output | jumpIfTrue | jumpIfFalse | lessThan | equals
  | adjustBase | halt
  deriving DecidableEq, Repr

namespace Opcode

def mnemonic : Opcode → String
  | .add => "add"
  | .mul => "mul"
  | .input => "in"
  | .output => "out"
  | .jumpIfTrue => "jnz"
  | .jumpIfFalse => "jz"
  | .lessThan => "lt"
  | .equals => "eq"
  | .adjustBase => "arb"
  | .halt => "halt"

def code : Opcode → Int
  | .add => 1
  | .mul => 2
  | .input => 3
  | .output => 4
  | .jumpIfTrue => 5
  | .jumpIfFalse => 6
  | .lessThan => 7
  | .equals => 8
  | .adjustBase => 9
  | .halt => 99

def ofCode? : Int → Option Opcode
  | 1 => some .add
  | 2 => some .mul
  | 3 => some .input
  | 4 => some .output
  | 5 => some .jumpIfTrue
  | 6 => some .jumpIfFalse
  | 7 => some .lessThan
  | 8 => some .equals
  | 9 => some .adjustBase
  | 99 => some .halt
  | _ => none

/-- The number of operand cells behind the instruction cell. -/
def arity : Opcode → Nat
  | .add | .mul | .lessThan | .equals => 3
  | .jumpIfTrue | .jumpIfFalse => 2
  | .input | .output | .adjustBase => 1
  | .halt => 0

/-- The operand that names the cell to be written, if the operation writes one.
-/
def writeSlot : Opcode → Option Nat
  | .add | .mul | .lessThan | .equals => some 2
  | .input => some 0
  | _ => none

theorem ofCode?_eq_some_iff {code : Int} {opcode : Opcode} :
    ofCode? code = some opcode ↔ code = opcode.code := by
  constructor
  · intro found
    unfold ofCode? at found
    split at found <;> cases found <;> rfl
  · rintro rfl
    cases opcode <;> rfl

end Opcode

/-- How an operand cell is to be understood: as the address of a cell, as the
value itself, or as the distance of a cell from the relative base. -/
inductive Mode where
  | position | immediate | relative
  deriving DecidableEq, Repr

namespace Mode

def name : Mode → String
  | .position => "Position"
  | .immediate => "Immediate"
  | .relative => "Relative"

def digit : Mode → Int
  | .position => 0
  | .immediate => 1
  | .relative => 2

def ofDigit? : Int → Option Mode
  | 0 => some .position
  | 1 => some .immediate
  | 2 => some .relative
  | _ => none

/-- The mark in front of an operand in a listing. -/
def sigil : Mode → Char
  | .position => '@'
  | .immediate => '#'
  | .relative => '~'

theorem ofDigit?_eq_some_iff {digit : Int} {mode : Mode} :
    ofDigit? digit = some mode ↔ digit = mode.digit := by
  constructor
  · intro found
    unfold ofDigit? at found
    split at found <;> cases found <;> rfl
  · rintro rfl
    cases mode <;> rfl

end Mode

/-- An operation with a mode for each of three operands, even where it has
fewer. -/
structure Instruction where
  opcode : Opcode
  first : Mode
  second : Mode
  third : Mode
  deriving DecidableEq, Repr

namespace Instruction

/-- The modes of all three operand slots, used or not. -/
def modes (instruction : Instruction) : List Mode :=
  [instruction.first, instruction.second, instruction.third]

/-- The number of cells, the instruction cell included. -/
def width (instruction : Instruction) : Nat :=
  instruction.opcode.arity + 1

/-- The smallest cell that decodes to the instruction. -/
def encode (instruction : Instruction) : Int :=
  instruction.opcode.code + 100 * instruction.first.digit +
    1000 * instruction.second.digit + 10000 * instruction.third.digit

/-- The mode that a digit of the cell at `ip` stands for. -/
def decodeMode (cell : Word) (ip : Nat) (digit : Int) : Except Failure Mode :=
  match Mode.ofDigit? digit with
  | some mode => .ok mode
  | none => .error (.invalidMode digit cell.toInt ip)

/-- The instruction in the cell at `ip`. The modes are examined before the
operation, the first operand's before the others'. -/
def decode (cell : Word) (ip : Nat) : Except Failure Instruction :=
  if cell.toInt < 0 then .error (.invalidOpcode cell.toInt ip)
  else do
    let first ← decodeMode cell ip (cell.toInt / 100 % 10)
    let second ← decodeMode cell ip (cell.toInt / 1000 % 10)
    let third ← decodeMode cell ip (cell.toInt / 10000 % 10)
    match Opcode.ofCode? (cell.toInt % 100) with
    | some opcode => return { opcode, first, second, third }
    | none => .error (.invalidOpcode (cell.toInt % 100) ip)

end Instruction

end CellMachines
