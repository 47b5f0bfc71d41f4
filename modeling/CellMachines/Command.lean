import CellMachines.Json
import CellMachines.Listing
import CellMachines.PhaseSearch
import CellMachines.Settings
import CellMachines.Terminal

/-!
# Commands

What the program can be told to do, as functions from a program and the settings
to the text that is printed.  Commands that run machines have no result when
those do not end within the budget.
-/

namespace CellMachines

open Text

/-- Why a command comes to nothing. -/
inductive CommandError where
  | settings (error : SettingsError)
  | unreadable (path : String) (error : FileError)
  | unwritable (path : String) (error : FileError)
  | alreadyExists (path : String)
  | program (path : String) (failure : Failure)
  | machine (failure : Failure)
  | pipeline (error : PipelineError)
  deriving DecidableEq, Repr

def CommandError.message : CommandError → String
  | .settings error => error.message
  | .unreadable path error => s!"cannot read '{path}': {error.message}"
  | .unwritable path error => s!"cannot write '{path}': {error.message}"
  | .alreadyExists path => s!"{path} already exists, not overwriting"
  | .program path failure => s!"program '{path}': {failure.message}"
  | .machine failure => failure.message
  | .pipeline error => error.message

/-- The text that a command prints, unless it fails or does not end. -/
abbrev Printed := ExceptT CommandError Option String

namespace Command

/-! ## Reports -/

def executionReport (execution : Execution) : Json.Value :=
  .object [
    ("outputs", .words execution.outputs),
    ("memory", .words execution.memory),
    ("steps", .natural execution.steps)]

/-- The report on one machine, without its memory. -/
def machineReport (report : Report) : Json.Value :=
  .object [
    ("index", .natural report.index),
    ("steps", .natural report.steps),
    ("emitted", .natural report.emitted),
    ("last_output", (report.lastOutput.map Json.Value.word).getD .null)]

def pipelineReport (run : PipelineRun) : Json.Value :=
  .object [
    ("output", .word run.output),
    ("topology", .text run.topology.name),
    ("reports", .array (run.reports.map machineReport))]

def searchReport (topology : Topology) (candidates : List Word)
    (best : BestOrdering) : Json.Value :=
  .object [
    ("topology", .text topology.name),
    ("candidates", .words candidates),
    ("phases", .words best.phases),
    ("output", .word best.output),
    ("tried", .natural best.tried)]

/-! ## Running programs -/

/-- Prints the outputs line by line, and the final memory below them if asked
to. -/
def run (program : Program) (inputs : List Word) (settings : Settings)
    (json memory : Bool) (budget : Nat) : Printed := do
  match ← ExceptT.lift (program.execute inputs settings.machine budget) with
  | .error failure => throw (.machine failure)
  | .ok execution =>
    if json then return (executionReport execution).pretty
    else
      let outputs :=
        String.join (execution.outputs.map fun value => wordText value ++ "\n")
      let image :=
        if memory then Terminal.gray (commaSeparated execution.memory) ++ "\n"
        else ""
      return outputs ++ image

/-- Prints the listing of a program. -/
def disassemble (program : Program) : String :=
  String.join
    ((Listing.ofCells program.cells).map fun line => line.text ++ "\n")

/-- The pipeline that the settings describe, as a ring if there is feedback. -/
def pipelineFor (program : Program) (feedback : Bool) (settings : Settings) :
    Pipeline where
  program
  topology := if feedback then .ring else .chain
  policy := settings.pipeline.policy
  seed := settings.pipeline.seed
  limits := settings.machine

/-- Prints the output of one run of a pipeline. -/
def amplify (program : Program) (phases : List Word) (feedback : Bool)
    (settings : Settings) (json : Bool) (budget : Nat) : Printed := do
  let run ←
    ((pipelineFor program feedback settings).run phases budget).adapt .pipeline
  if json then return (pipelineReport run).pretty
  else return wordText run.output ++ "\n"

/-- Prints the largest output of all orderings, and the ordering it came from.
-/
def search (program : Program) (candidates : List Word) (feedback : Bool)
    (settings : Settings) (json : Bool) (budget : Nat) : Printed := do
  let pipeline := pipelineFor program feedback settings
  let outputOf (phases : List Word) : ExceptT PipelineError Option Word := do
    return (← pipeline.run phases budget).output
  let best ← (bestOrdering outputOf candidates).adapt .pipeline
  if json then return (searchReport pipeline.topology candidates best).pretty
  else
    let summary :=
      s!"phases {commaSeparated best.phases} ({natText best.tried} orderings)"
    return wordText best.output ++ " " ++ Terminal.gray summary ++ "\n"

/-! ## Files -/

variable {m : Type → Type} [Monad m] (files : FileAccess m)

/-- Reads the program in a file. -/
def loadProgram (path : String) : m (Except CommandError Program) := do
  match ← files.readText path with
  | .error error => return .error (.unreadable path error)
  | .ok text => return (Program.parse text).mapError (.program path)

/-- Makes a settings file in a directory that has none, and yields its path. -/
def createSettings (directory : String) : m (Except CommandError String) := do
  let path := Path.join directory Settings.fileName
  if ← files.doesExist path then return .error (.alreadyExists path)
  else
    match ← files.writeText path Settings.template with
    | .error error => return .error (.unwritable path error)
    | .ok () => return .ok path

end Command

end CellMachines
