import CellMachines.Failure
import CellMachines.Text.Blank

/-!
# Programs

A program is the run of words that a machine starts from.  Its text lists them
in decimal with commas between them; blanks around the text and around every
token are ignored.
-/

namespace CellMachines

open Text

/-- The words that a memory holds before the first instruction. -/
structure Program where
  cells : List Word
  deriving DecidableEq

namespace Program

/-- The parts of a text between its commas, one more than there are commas. -/
def tokens (text : List Char) : List (List Char) :=
  text.foldr
    (fun character parts =>
      if character = ',' then [] :: parts
      else
        match parts with
        | part :: later => (character :: part) :: later
        | [] => [[character]])
    [[]]

/-- The word that the token at a position denotes. -/
def wordAt (token : List Char) (position : Nat) : Except Failure Word :=
  match Decimal.word? (trim token) with
  | some word => .ok word
  | none => .error (.malformedProgram position (String.ofList (trim token)))

/-- Reads the text of a program.  The first token that is no word is the one to
be reported, and blanks alone are no program. -/
def parse (text : String) : Except Failure Program :=
  match trim text.toList with
  | [] => .error .emptyProgram
  | trimmed => do
    let words ← (tokens trimmed).zipIdx.mapM fun (token, position) =>
      wordAt token position
    return ⟨words⟩

def text (program : Program) : String :=
  commaSeparated program.cells

def summary (program : Program) : String :=
  s!"Program \x7b len: {natText program.cells.length}, .. \x7d"

end Program

end CellMachines
