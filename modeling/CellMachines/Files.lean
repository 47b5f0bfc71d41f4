/-!
# Files

What the program asks of a file system, and why it may be refused.  `FileAccess`
lists the requests for any monad in which they can be served.  `FileTree` serves
them from a tree of files that is held in memory, under the names and the rules
of a Unix file system without links.
-/

namespace CellMachines

inductive FileError where
  | notFound | notDirectory | isDirectory | notText
  /-- A path holds the character NUL, which no name can hold. -/
  | nulInPath
  | nameTooLong
  | other (message : String)
  deriving DecidableEq, Repr

def FileError.message : FileError → String
  | .notFound => "No such file or directory (os error 2)"
  | .notDirectory => "Not a directory (os error 20)"
  | .isDirectory => "Is a directory (os error 21)"
  | .notText => "stream did not contain valid UTF-8"
  | .nulInPath => "file name contained an unexpected NUL byte"
  | .nameTooLong => "File name too long (os error 36)"
  | .other message => message

/-- Requests to a file system, all by path. -/
structure FileAccess (m : Type → Type) where
  /-- The content of a file that holds UTF-8 text. -/
  readText : String → m (Except FileError String)
  /-- Creates a file, or replaces the content of one. -/
  writeText : String → String → m (Except FileError Unit)
  isFile : String → m Bool
  doesExist : String → m Bool
  currentDirectory : m (Option String)

namespace Path

/-- Whether a name adds nothing to a path: the directory itself is meant. -/
def isIdle (name : String) : Bool :=
  name = "" || name = "."

/-- The names in a path that add something to it. -/
def names (path : String) : List String :=
  (path.splitOn "/").filter fun name => !isIdle name

/-- The absolute path that is made of the given names. -/
def ofNames (names : List String) : String :=
  "/" ++ String.intercalate "/" names

def isAbsolute (path : String) : Bool :=
  path.startsWith "/"

def maxBytes : Nat := 4095

def maxNameBytes : Nat := 255

/-- Why a path cannot be followed at all, wherever it leads. -/
def problem? (path : String) : Option FileError :=
  if path.contains '\x00' then some .nulInPath
  else if path.isEmpty then some .notFound
  else if path.utf8ByteSize > maxBytes then some .nameTooLong
  else none

def join (directory name : String) : String :=
  if directory.isEmpty || directory.endsWith "/" then directory ++ name
  else directory ++ "/" ++ name

/-- The directory above an absolute path, spelled as in the path; there is none
above the root. -/
def parent? (path : String) : Option String :=
  match (path.splitOn "/").reverse.dropWhile isIdle with
  | [] => none
  | _ :: above =>
    match above.dropWhile isIdle with
    | [] => some "/"
    | spelled => some (String.intercalate "/" spelled.reverse)

/-- An absolute path and all directories above it, innermost first. -/
def ancestors (path : String) : List String :=
  let rec above : Nat → String → List String
    | 0, path => [path]
    | count + 1, path =>
      match parent? path with
      | some parent => path :: above count parent
      | none => [path]
  above (names path).length path

end Path

inductive FileEntry where
  | file (content : ByteArray)
  | directory

structure FileTree where
  /-- The entries by the names that lead to them; the root directory is not
  among them. -/
  entries : List (List String × FileEntry)
  current : String

namespace FileTree

/-- What is at a place; the root directory always is. -/
def get? (tree : FileTree) (place : List String) : Option FileEntry :=
  if place.isEmpty then some .directory
  else (tree.entries.find? fun entry => entry.1 = place).map Prod.snd

/-- The tree with an entry at a place, in the stead of what was there. -/
def set (tree : FileTree) (place : List String) (entry : FileEntry) :
    FileTree :=
  { tree with
    entries :=
      tree.entries.filter (fun existing => existing.1 ≠ place) ++
        [(place, entry)] }

/-- The place that names lead to from the root, in a tree with all directories
on the way: those that are missing are made. -/
def makeDirectory (tree : FileTree) (names : List String) :
    FileTree × List String :=
  names.foldl
    (fun (tree, place) name =>
      if name = ".." then (tree, place.dropLast)
      else
        let place := place ++ [name]
        (if (tree.get? place).isSome then tree
          else tree.set place .directory, place))
    (tree, [])

/-- A file under the last of some names, and the directories on the way to it.
-/
def makeFile (tree : FileTree) (names : List String) (content : ByteArray) :
    FileTree :=
  match names.getLast? with
  | some name =>
    let (tree, above) := tree.makeDirectory names.dropLast
    tree.set (above ++ [name]) (.file content)
  | none => tree

/-- Follows names from a place that has been reached. -/
def follow (tree : FileTree) (place : List String) :
    List String → Except FileError (List String)
  | [] => .ok place
  | name :: later =>
    match tree.get? place with
    | some .directory =>
      if name = ".." then tree.follow place.dropLast later
      else if name.utf8ByteSize > Path.maxNameBytes then .error .nameTooLong
      else
        let place := place ++ [name]
        match tree.get? place, later with
        | none, _ :: _ => .error .notFound
        | _, _ => tree.follow place later
    | some (.file _) => .error .notDirectory
    | none => .error .notFound

/-- The place that a path means, whether or not something is there. -/
def locate (tree : FileTree) (path : String) : Except FileError (List String) :=
  match Path.problem? path with
  | some error => .error error
  | none => do
    let start := if Path.isAbsolute path then [] else Path.names tree.current
    let place ← tree.follow start (Path.names path)
    match tree.get? place with
    | some (.file _) =>
      if path.endsWith "/" || path.endsWith "/." then .error .notDirectory
      else return place
    | _ => return place

def lookUp (tree : FileTree) (path : String) : Except FileError FileEntry := do
  match tree.get? (← tree.locate path) with
  | some entry => return entry
  | none => .error .notFound

def readText (tree : FileTree) (path : String) : Except FileError String := do
  match ← tree.lookUp path with
  | .directory => .error .isDirectory
  | .file content =>
    match String.fromUTF8? content with
    | some text => return text
    | none => .error .notText

def writeText (tree : FileTree) (path content : String) :
    Except FileError FileTree := do
  let place ← tree.locate path
  match tree.get? place with
  | some .directory => .error .isDirectory
  | some (.file _) => return tree.set place (.file content.toUTF8)
  | none => return tree.set place (.file content.toUTF8)

def isFile (tree : FileTree) (path : String) : Bool :=
  match tree.lookUp path with
  | .ok (.file _) => true
  | _ => false

def doesExist (tree : FileTree) (path : String) : Bool :=
  (tree.lookUp path).isOk

def list (tree : FileTree) (place : List String) : List String :=
  tree.entries.filterMap fun (entry, _) =>
    if entry.length = place.length + 1 && entry.take place.length = place then
      entry.getLast?
    else none

/-- The tree with another current directory; its path is made of the names that
lead to it. -/
def enter (tree : FileTree) (directory : String) : FileTree :=
  match tree.locate directory with
  | .ok place => { tree with current := Path.ofNames place }
  | .error _ => { tree with current := directory }

/-- Requests served by a tree that is carried along. -/
def access : FileAccess (StateM FileTree) where
  readText path := return (← get).readText path
  writeText path content := modifyGet fun tree =>
    match tree.writeText path content with
    | .ok after => (.ok (), after)
    | .error error => (.error error, tree)
  isFile path := return (← get).isFile path
  doesExist path := return (← get).doesExist path
  currentDirectory := return some (← get).current

end FileTree

end CellMachines
