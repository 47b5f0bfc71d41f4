import CellMachines.Instruction

/-!
# Listings

A listing sweeps the cells of a program from address zero.  Where the cell at
hand decodes and all its operands are there, the line shows the instruction and
the sweep goes on behind its last operand; every other cell is shown as data.
Programs mix code and data, so data that happens to decode is shown as code.
-/

namespace CellMachines

open Text

/-- What one line of a listing shows. -/
inductive Listing.Content where
  | code (instruction : Instruction) (operands : List Word)
  | data (cell : Word)
  deriving DecidableEq, Repr

structure Listing.Line where
  address : Nat
  content : Listing.Content
  deriving DecidableEq, Repr

namespace Listing

/-- The number of cells that a line shows. -/
def Content.width : Content → Nat
  | .code instruction _ => instruction.width
  | .data _ => 1

/-- The content of the line for the cell at `address` when `later` are the cells
after it. -/
def contentAt (address : Nat) (cell : Word) (later : List Word) : Content :=
  match Instruction.decode cell address with
  | .ok instruction =>
    if instruction.opcode.arity ≤ later.length then
      .code instruction (later.take instruction.opcode.arity)
    else .data cell
  | .error _ => .data cell

/-- The lines for the cells from `address` on. -/
def linesFrom (address : Nat) : List Word → List Line
  | [] => []
  | cell :: later =>
    let content := contentAt address cell later
    ⟨address, content⟩ ::
      linesFrom (address + content.width) (later.drop (content.width - 1))
termination_by cells => cells.length
decreasing_by
  simp only [List.length_drop, List.length_cons]
  omega

def ofCells (cells : List Word) : List Line :=
  linesFrom 0 cells

/-- The operands with the sigils of their modes, separated by commas. -/
def operandText (instruction : Instruction) (operands : List Word) :
    List Char :=
  [',', ' '].intercalate <|
    (instruction.modes.zip operands).map fun (mode, operand) =>
      mode.sigil :: Decimal.ofInt operand.toInt

def Content.text : Content → List Char
  | .code instruction operands =>
    let mnemonic := instruction.opcode.mnemonic.toList
    match operands with
    | [] => mnemonic
    | _ => mnemonic ++ [' ', ' '] ++ operandText instruction operands
  | .data cell => ".data ".toList ++ Decimal.ofInt cell.toInt

/-- The address in at least four digits and then the content. -/
def Line.text (line : Line) : String :=
  String.ofList
    (Decimal.padded 4 line.address ++ [' ', ' '] ++ line.content.text)

end Listing

end CellMachines
