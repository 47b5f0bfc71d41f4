import CellMachines.CommandLine

/-!
# The program

The command line of the library, on the real file system.
-/

namespace CellMachines

/-- What kind of refusal an error of the system is.  Some requests give the
number of an error with its sign turned. -/
def FileError.ofSystem : IO.Error → FileError
  | .noFileOrDirectory .. => .notFound
  | .inappropriateType _ 21 _ => .isDirectory
  | .inappropriateType .. => .notDirectory
  | .invalidArgument file code details =>
    if code = 36 || -code = 36 then .nameTooLong
    else .other (IO.Error.invalidArgument file code details).toString
  | error => .other error.toString

/-- Whether something is at a path of the file system, and where a file is asked
for, whether it is no directory. -/
def isThere (path : String) (asFile : Bool) : IO Bool := do
  if (Path.problem? path).isSome then return false
  try
    let place := (← IO.currentDir) / path
    return (← place.pathExists) && !(asFile && (← place.isDir))
  catch _ => return false

/-- Requests served by the file system of the machine that the program runs on.
-/
def systemFiles : FileAccess IO where
  readText path := do
    if let some error := Path.problem? path then return .error error
    try
      let content ← IO.FS.readBinFile path
      match String.fromUTF8? content with
      | some text => return .ok text
      | none => return .error .notText
    catch error => return .error (.ofSystem error)
  writeText path content := do
    if let some error := Path.problem? path then return .error error
    try
      IO.FS.writeFile path content
      return .ok ()
    catch error => return .error (.ofSystem error)
  isFile path := isThere path true
  doesExist path := isThere path false
  currentDirectory := do
    try
      return some (← IO.currentDir).toString
    catch _ => return none

end CellMachines

open CellMachines in
def main (arguments : List String) : IO UInt32 := do
  let finished ← CommandLine.runWith systemFiles arguments ample
  IO.print finished.output
  IO.eprint finished.errors
  return finished.code.toUInt32
