import CellMachines.Command

/-!
# The command line

Arguments are read from left to right.  A word in front of which no option waits
for a value is the name of a command, or after that the file that the command is
about.  Options begin with one or two hyphens and may have their value attached
or in the next argument, which then must not look like an option itself, except
for a negative number where numbers are expected.  After two hyphens alone
nothing is an option.  Flags and the path of the settings are given once;
options that take numbers may be repeated and collect them all.

The settings are resolved before the program file is read, so errors in them
come first.
-/

namespace CellMachines.CommandLine

open Text

/-! ## What can be asked for -/

/-- A command with its own arguments. -/
inductive Task where
  | run (file : String) (inputs : List Word) (json memory : Bool)
  | disassemble (file : String)
  | amplify (file : String) (phases : List Word) (feedback json : Bool)
  | search (file : String) (candidates : List Word) (feedback json : Bool)
  | init
  deriving DecidableEq, Repr

/-- What is asked for, and the path of the settings if one is given. -/
structure Request where
  settings : Option String
  task : Task
  deriving DecidableEq, Repr

/-- Why no request can be made of the arguments. -/
inductive Refusal where
  | version
  | help
  | usage
  deriving DecidableEq, Repr

/-! ## Arguments of a command -/

/-- The arguments that a command understands besides the path of the settings.
-/
structure Form where
  takesFile : Bool := true
  numbers : Option String := none
  short : Option Char := none
  /-- Whether one value of that option may give several numbers with commas
  between them. -/
  separated : Bool := false
  flags : List String := []

/-- The arguments of a command as far as they have been read. -/
structure Arguments where
  settings : Option String := none
  file : Option String := none
  numbers : List Word := []
  flags : List String := []

namespace Arguments

def setSettings (arguments : Arguments) (path : String) :
    Except Refusal Arguments :=
  if path.isEmpty || arguments.settings.isSome then .error .usage
  else .ok { arguments with settings := some path }

def setFile (form : Form) (arguments : Arguments) (path : String) :
    Except Refusal Arguments :=
  if !form.takesFile || path.isEmpty || arguments.file.isSome then .error .usage
  else .ok { arguments with file := some path }

def addFlag (arguments : Arguments) (flag : String) :
    Except Refusal Arguments :=
  if flag ∈ arguments.flags then .error .usage
  else .ok { arguments with flags := flag :: arguments.flags }

def addNumbers (form : Form) (arguments : Arguments) (value : String) :
    Except Refusal Arguments :=
  let parts := if form.separated then value.splitOn "," else [value]
  match parts.mapM fun part => Decimal.word? part.toList with
  | some words => .ok { arguments with numbers := arguments.numbers ++ words }
  | none => .error .usage

end Arguments

/-- Whether an argument looks like an option.  A hyphen alone does not. -/
def isHyphenated (argument : String) : Bool :=
  argument.startsWith "-" && argument ≠ "-"

def isNegativeNumber (argument : String) : Bool :=
  match argument.toList with
  | '-' :: digit :: digits => digit.isDigit && digits.all Char.isDigit
  | _ => false

/-- An option as it is written: its name, and the value attached to it. -/
structure WrittenOption where
  name : String
  value : Option String

/-- Takes a long option apart at its first equals sign. -/
def longOption (argument : String) : WrittenOption :=
  let text := argument.toList.drop 2
  let name := text.takeWhile fun character => character ≠ '='
  let value :=
    match text.dropWhile fun character => character ≠ '=' with
    | _ :: value => some (String.ofList value)
    | [] => none
  { name := String.ofList name, value }

/-- What a short option with the rest of its argument has attached to it. -/
def attached : List Char → Option String
  | [] => none
  | '=' :: value => some (String.ofList value)
  | value => some (String.ofList value)

/-- Reads the arguments behind the name of a command, added to those already
read. -/
def readArguments (form : Form) (read : Arguments) :
    List String → Except Refusal Arguments
  | [] => .ok read
  | argument :: later =>
    if argument = "--" then later.foldlM (Arguments.setFile form) read
    else if argument.startsWith "--" then
      let option := longOption argument
      if option.name = "config" then
        match option.value, later with
        | some path, later => do
          readArguments form (← read.setSettings path) later
        | none, path :: later =>
          if isHyphenated path then .error .usage
          else do readArguments form (← read.setSettings path) later
        | none, [] => .error .usage
      else if form.numbers = some option.name then
        match option.value, later with
        | some value, later => do
          readArguments form (← read.addNumbers form value) later
        | none, value :: later =>
          if isHyphenated value && !isNegativeNumber value then .error .usage
          else do readArguments form (← read.addNumbers form value) later
        | none, [] => .error .usage
      else if option.value.isNone && option.name = "help" then .error .help
      else if option.value.isNone && option.name ∈ form.flags then do
        readArguments form (← read.addFlag option.name) later
      else .error .usage
    else if isHyphenated argument then
      match argument.toList with
      | _ :: letter :: rest =>
        if form.short = some letter then
          match attached rest, later with
          | some value, later => do
            readArguments form (← read.addNumbers form value) later
          | none, value :: later =>
            if isHyphenated value && !isNegativeNumber value then .error .usage
            else do readArguments form (← read.addNumbers form value) later
          | none, [] => .error .usage
        else if letter = 'h' then .error .help
        else .error .usage
      | _ => .error .usage
    else do readArguments form (← read.setFile form argument) later

/-! ## Commands -/

/-- The form of a command, and the task that its arguments amount to when
nothing is missing. -/
def command? : String → Option (Form × (Arguments → Option Task))
  | "run" =>
    some
      ({  numbers := some "input"
          short := some 'i'
          flags := ["json", "memory"] },
        fun arguments => do
          let file ← arguments.file
          return .run file arguments.numbers ("json" ∈ arguments.flags)
            ("memory" ∈ arguments.flags))
  | "disasm" => some ({}, fun arguments => arguments.file.map Task.disassemble)
  | "amplify" =>
    some
      ({  numbers := some "phases"
          separated := true
          flags := ["feedback", "json"] },
        fun arguments => do
          let file ← arguments.file
          if arguments.numbers.isEmpty then none
          else
            return .amplify file arguments.numbers
              ("feedback" ∈ arguments.flags) ("json" ∈ arguments.flags))
  | "search" =>
    some
      ({  numbers := some "candidates"
          separated := true
          flags := ["feedback", "json"] },
        fun arguments => do
          let file ← arguments.file
          if arguments.numbers.isEmpty then none
          else
            return .search file arguments.numbers ("feedback" ∈ arguments.flags)
              ("json" ∈ arguments.flags))
  | "init" => some ({ takesFile := false }, fun _ => some .init)
  | _ => none

/-- What becomes of a request for help on what is named by the arguments after
it: on nothing in particular, or on one command, of which help is one. -/
def helpOn : List String → Refusal
  | [] => .help
  | [topic] =>
    if topic = "help" || (command? topic).isSome then .help else .usage
  | _ => .usage

/-- Reads all arguments, after a path of the settings that has been given
already.  A path that is given after the command takes the place of one that is
given before it. -/
def parseFrom (settings : Option String) : List String → Except Refusal Request
  | [] => .error .usage
  | argument :: later =>
    if argument = "--" then .error .usage
    else if argument.startsWith "--" then
      let option := longOption argument
      if option.name = "config" && settings.isNone then
        match option.value, later with
        | some path, later =>
          if path.isEmpty then .error .usage else parseFrom (some path) later
        | none, path :: later =>
          if isHyphenated path || path.isEmpty then .error .usage
          else parseFrom (some path) later
        | none, [] => .error .usage
      else if option.value.isNone && option.name = "version" then
        .error .version
      else if option.value.isNone && option.name = "help" then .error .help
      else .error .usage
    else if argument.startsWith "-V" then .error .version
    else if argument.startsWith "-h" then .error .help
    else if argument = "help" then .error (helpOn later)
    else
      match command? argument with
      | none => .error .usage
      | some (form, taskOf) => do
        let arguments ← readArguments form {} later
        match taskOf arguments with
        | some task =>
          return { settings := arguments.settings <|> settings, task }
        | none => .error .usage

def parse (arguments : List String) : Except Refusal Request :=
  parseFrom none arguments

/-! ## Carrying out a request -/

/-- What a run of the program leaves behind: its exit status and what it
printed. -/
structure Finished where
  code : Nat
  output : String
  errors : String
  deriving DecidableEq, Repr

def Finished.success (output : String) : Finished := ⟨0, output, ""⟩

def Finished.failure (message : String) : Finished :=
  ⟨1, "", Terminal.red "error:" ++ " " ++ message ++ "\n"⟩

def Finished.refused : Refusal → Finished
  | .version => .success "ringvm 0.1.0\n"
  | .help =>
    .success ("Integer-cell virtual machine and pipeline runner\n\n" ++
      "Usage: ringvm [--config PATH] run|disasm|amplify|search|init\n")
  | .usage => ⟨2, "", "error: invalid arguments\n"⟩

variable {m : Type → Type} [Monad m] (files : FileAccess m)

/-- What an action prints for the program in a file. -/
def withProgram (path : String) (action : Program → Printed) :
    m (Option (Except CommandError String)) := do
  match ← Command.loadProgram files path with
  | .error error => return some (.error error)
  | .ok program => return (action program).run

def perform (settings : Settings) (budget : Nat) (task : Task) :
    m (Option (Except CommandError String)) := do
  match task with
  | .run file inputs json memory =>
    withProgram files file fun program =>
      Command.run program inputs settings json memory budget
  | .disassemble file =>
    withProgram files file fun program => return Command.disassemble program
  | .amplify file phases feedback json =>
    withProgram files file fun program =>
      Command.amplify program phases feedback settings json budget
  | .search file candidates feedback json =>
    withProgram files file fun program =>
      Command.search program candidates feedback settings json budget
  | .init =>
    let directory := (← files.currentDirectory).getD "."
    match ← Command.createSettings files directory with
    | .error error => return some (.error error)
    | .ok path =>
      return some (.ok (Terminal.statusLabel "Created" ++ " " ++
        Terminal.green (Terminal.bold path) ++ "\n"))

/-- Everything from the arguments to what is printed. -/
def runWith (arguments : List String) (budget : Nat) : m Finished := do
  match parse arguments with
  | .error refusal => return .refused refusal
  | .ok request =>
    match ← Settings.resolve files request.settings with
    | .error error => return .failure (CommandError.settings error).message
    | .ok (_, settings) =>
      match ← perform files settings budget request.task with
      | some (.ok output) => return .success output
      | some (.error error) => return .failure error.message
      | none => return .failure "the program does not end"

end CellMachines.CommandLine
