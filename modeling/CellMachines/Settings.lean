import CellMachines.Files
import CellMachines.Pipeline
import CellMachines.Toml.Document

/-!
# Settings

Settings come from a TOML file that is named on the command line or found in the
current directory or one above it; without a file the defaults hold.  What a
file leaves out has its default too, and what it says beyond the settings is
ignored.  A file that exists but is no TOML document, or gives a setting a value
of the wrong type, or a value that cannot work, is an error.
-/

namespace CellMachines

open Text

/-- The policy of the channels of a pipeline, apart from their capacity. -/
inductive ChannelKind where
  | unbounded | failFast | backpressure
  deriving DecidableEq, Repr

namespace ChannelKind

/-- The spelling in a settings file. -/
def name : ChannelKind → String
  | .unbounded => "unbounded"
  | .failFast => "fail-fast"
  | .backpressure => "backpressure"

/-- The spelling in messages. -/
def title : ChannelKind → String
  | .unbounded => "Unbounded"
  | .failFast => "FailFast"
  | .backpressure => "Backpressure"

def ofName? (name : String) : Option ChannelKind :=
  [unbounded, failFast, backpressure].find? fun kind => kind.name = name

/-- The least capacity that is accepted: link `0` of a pipeline holds a phase
setting, and the seed as well where a put does not wait. -/
def leastCapacity : ChannelKind → Nat
  | .unbounded => 0
  | .failFast => 2
  | .backpressure => 1

end ChannelKind

/-- The settings of a pipeline, each with the value it has when left out. -/
structure PipelineSettings where
  /-- The word that follows the phase setting of the first machine. -/
  seed : Word := 0
  channel : ChannelKind := .unbounded
  capacity : Nat := 16
  deriving DecidableEq, Repr

/-- The capacity is of no account for unbounded channels. -/
def PipelineSettings.policy (settings : PipelineSettings) : Policy :=
  match settings.channel with
  | .unbounded => .unbounded
  | .failFast => .failFast settings.capacity
  | .backpressure => .backpressure settings.capacity

/-- All settings, each with the value it has when left out. -/
structure Settings where
  machine : Limits := {}
  pipeline : PipelineSettings := {}
  logFilter : Option String := none
  deriving DecidableEq, Repr

/-- Why there are no settings to go by. -/
inductive SettingsError where
  | unreadable (path : String) (error : FileError)
  | malformed (path : String)
  | invalid (path reason : String)
  deriving DecidableEq, Repr

def SettingsError.message : SettingsError → String
  | .unreadable path error => s!"cannot read '{path}': {error.message}"
  | .malformed path => s!"invalid toml in '{path}'"
  | .invalid path reason => s!"invalid setting in '{path}': {reason}"

namespace Settings

def fileName : String := "ringvm.toml"

/-! ## Reading items -/

open Toml

/-- The values of named fields: of a table by key, of an array in order.  A date
counts as a table without any of the fields. -/
def fields? (names : List String) : Item → Option (List (Option Item))
  | .table _ entries => some (names.map (Entries.get? entries))
  | .array items =>
    some ((List.range names.length).map fun index => items[index]?)
  | .tables elements =>
    some ((List.range names.length).map fun index =>
      elements[index]?.map (Item.table .header))
  | .dateTime => some (names.map fun _ => none)
  | _ => none

def natural? : Item → Option Nat
  | .integer value => if 0 ≤ value then some value.toNat else none
  | _ => none

def word? : Item → Option Word
  | .integer value => Word.ofInt? value
  | _ => none

def string? : Item → Option String
  | .string text => some text
  | _ => none

def isEmpty : Item → Bool
  | .table _ [] | .array [] => true
  | _ => false

/-- A channel is named by a string, or by the only key of a table, whose item is
empty. -/
def channel? : Item → Option ChannelKind
  | .string name => ChannelKind.ofName? name
  | .table _ [(name, item)] =>
    if isEmpty item then ChannelKind.ofName? name else none
  | _ => none

/-- A field that may be left out in favour of a default. -/
def orDefault {α : Type} (default : α) (read : Item → Option α) :
    Option Item → Option α
  | none => some default
  | some item => read item

/-- The limits of machines.  What is left out is not limited. -/
def machine? (item : Item) : Option Limits := do
  match ← fields? ["max_steps", "max_memory"] item with
  | [steps, memory] =>
    return {
      steps := ← orDefault none (fun item => (natural? item).map some) steps
      memory := ← orDefault none (fun item => (natural? item).map some) memory }
  | _ => none

def pipeline? (item : Item) : Option PipelineSettings := do
  match ← fields? ["seed", "channel", "capacity"] item with
  | [seed, channel, capacity] =>
    return {
      seed := ← orDefault 0 word? seed
      channel := ← orDefault .unbounded channel? channel
      capacity := ← orDefault 16 natural? capacity }
  | _ => none

/-- The filter of the log.  An array has to give it, while a table need not. -/
def logFilter? : Item → Option (Option String)
  | .array [] => none
  | item => do
    match ← fields? ["filter"] item with
    | [filter] => orDefault none (fun item => (string? item).map some) filter
    | _ => none

/-- The settings in a document, from the three tables that are known. -/
def ofEntries? (entries : Entries) : Option Settings :=
  return {
    machine := ← orDefault {} machine? (entries.get? "machine")
    pipeline := ← orDefault {} pipeline? (entries.get? "pipeline")
    logFilter := ← orDefault none logFilter? (entries.get? "log") }

/-! ## Loading -/

/-- Why settings of the right types cannot work; the capacity is looked at
first. -/
def problem? (settings : Settings) : Option String :=
  let channel := settings.pipeline.channel
  if settings.pipeline.capacity < channel.leastCapacity then
    some (s!"pipeline.capacity must be at least {natText channel.leastCapacity} " ++
      s!"for {channel.title} channels")
  else if settings.machine.memory = some 0 then
    some "machine.max_memory must be at least 1"
  else none

/-- Reads the text of a settings file, whose path is there for the error. -/
def parse (path text : String) : Except SettingsError Settings :=
  match (Toml.parse text).bind ofEntries? with
  | none => .error (.malformed path)
  | some settings =>
    match settings.problem? with
    | some reason => .error (.invalid path reason)
    | none => .ok settings

variable {m : Type → Type} [Monad m] (files : FileAccess m)

def load (path : String) : m (Except SettingsError Settings) := do
  match ← files.readText path with
  | .error error => return .error (.unreadable path error)
  | .ok text => return parse path text

/-- The settings in the first of some directories that has a file for them, with
its path. -/
def findIn : List String → m (Except SettingsError (Option (String × Settings)))
  | [] => return .ok none
  | directory :: later => do
    let path := Path.join directory fileName
    if ← files.isFile path then
      return (← load files path).map fun settings => some (path, settings)
    else findIn later

/-- The settings that hold in a directory, with the path of their file. -/
def find (directory : String) :
    m (Except SettingsError (Option (String × Settings))) :=
  findIn files (Path.ancestors directory)

/-- The settings in the file at an explicit path, or else those that hold in the
current directory, with the path of their file if there is one. -/
def resolve (explicit : Option String) :
    m (Except SettingsError (Option String × Settings)) := do
  match explicit with
  | some path =>
    return (← load files path).map fun settings => (some path, settings)
  | none =>
    match ← files.currentDirectory with
    | none => return .ok (none, {})
    | some directory =>
      return (← find files directory).map fun
        | some (path, settings) => (some path, settings)
        | none => (none, {})

/-! ## The log -/

/-- The filter of the log: the one from the environment unless it is blank, or
else the one from the settings, or else warnings only. -/
def logDirective (environment configured : Option String) : String :=
  match environment with
  | some filter =>
    if (trim filter.toList).isEmpty then configured.getD "warn" else filter
  | none => configured.getD "warn"

/-- The content of a new settings file, in which everything has its default. -/
def template : String :=
  "# ringvm configuration\n" ++
  "\n" ++
  "[machine]\n" ++
  "# Fault once a machine has executed this many instructions.\n" ++
  "# max_steps = 10000000\n" ++
  "# Fault once a machine's memory would grow past this many cells.\n" ++
  "# max_memory = 16777216\n" ++
  "\n" ++
  "[pipeline]\n" ++
  "seed = 0\n" ++
  "# \"unbounded\", \"fail-fast\" or \"backpressure\"\n" ++
  "channel = \"unbounded\"\n" ++
  "# At least 2 for \"fail-fast\", at least 1 for \"backpressure\".\n" ++
  "capacity = 16\n" ++
  "\n" ++
  "[log]\n" ++
  "# Overridden by RUST_LOG.\n" ++
  "# filter = \"info\"\n"

end Settings

end CellMachines
