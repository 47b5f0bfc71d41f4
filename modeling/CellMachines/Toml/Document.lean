import CellMachines.Toml.Scalar

/-!
# TOML documents

A document is a sequence of lines: assignments, headers in brackets, comments
and blank lines.  Arrays and inline tables nest at most 79 deep and dotted keys
have at most 79 parts.  `parse` reads a document and builds its table; it yields
nothing for a text that is no document.
-/

namespace CellMachines.Toml

/-- The rest after spaces, line breaks and comments.  `commented` tells that a
comment has begun. -/
def skipBlank (commented : Bool) : List Char → List Char
  | [] => []
  | '\r' :: '\n' :: rest => skipBlank false rest
  | '\n' :: rest => skipBlank false rest
  | character :: rest =>
    if commented then
      if isTextual character then skipBlank true rest else character :: rest
    else if character = '#' then skipBlank true rest
    else if character = ' ' ∨ character = '\t' then skipBlank false rest
    else character :: rest

/-- The rest after the end of a line, which may have a comment. -/
def lineEnd? (text : List Char) : Option (List Char) :=
  let text := skipSpaces text
  let text :=
    match text with
    | '#' :: comment => comment.dropWhile isTextual
    | _ => text
  match text with
  | [] => some []
  | _ => newline? text

/-! ## Keys -/

def isBareKey (character : Char) : Bool :=
  character.isAlphanum || character = '-' || character = '_'

def simpleKey? (text : List Char) : Option (String × List Char) :=
  match text with
  | '"' :: _ | '\'' :: _ => lineString? text
  | _ =>
    match text.takeWhile isBareKey with
    | [] => none
    | bare => some (String.ofList bare, text.dropWhile isBareKey)

/-- The parts of a key after those read so far in reverse, of which at most
`count` follow. -/
def keyParts? (read : List String) : Nat → Reader (List String)
  | 0, _ => none
  | count + 1, text =>
    match simpleKey? (skipSpaces text) with
    | none => none
    | some (part, text) =>
      match skipSpaces text with
      | '.' :: rest => keyParts? (part :: read) count rest
      | rest => some (part :: read, rest)

/-- How deep values nest and how many parts a key has, at most. -/
def depthLimit : Nat := 79

/-- A key: the path to its table and its last part. -/
def key? (text : List Char) : Option ((List String × String) × List Char) :=
  match keyParts? [] depthLimit text with
  | some (last :: before, rest) => some ((before.reverse, last), rest)
  | _ => none

/-! ## Values -/

/-- A key with a value that `value?` reads. -/
def assignment? (value? : Reader Item) (text : List Char) :
    Option (Assignment × List Char) := do
  let ((path, key), text) ← key? text
  let text ← expect? '=' text
  let (item, rest) ← value? (skipSpaces text)
  return ({ path, key, item }, rest)

/-- The items of an array after those read so far in reverse. -/
def arrayItems? (value? : Reader Item) (read : List Item) :
    Nat → Reader (List Item)
  | 0, _ => none
  | count + 1, text =>
    match skipBlank false text with
    | ']' :: rest => some (read.reverse, rest)
    | text =>
      match value? text with
      | none => none
      | some (item, text) =>
        match skipBlank false text with
        | ',' :: rest => arrayItems? value? (item :: read) count rest
        | ']' :: rest => some ((item :: read).reverse, rest)
        | _ => none

/-- The assignments of an inline table after those read so far in reverse. -/
def inlineAssignments? (value? : Reader Item) (read : List Assignment) :
    Nat → Reader (List Assignment)
  | 0, _ => none
  | count + 1, text =>
    match assignment? value? text with
    | none => none
    | some (assignment, text) =>
      match skipSpaces text with
      | ',' :: rest => inlineAssignments? value? (assignment :: read) count rest
      | '}' :: rest => some ((assignment :: read).reverse, rest)
      | _ => none

/-- A value that nests at most `depth` deep. -/
def value? (depth : Nat) (text : List Char) : Option (Item × List Char) :=
  match depth, text with
  | depth + 1, '[' :: rest =>
    (arrayItems? (value? depth) [] text.length rest).map fun (items, rest) =>
      (.array items, rest)
  | depth + 1, '{' :: rest =>
    match skipSpaces rest with
    | '}' :: rest => some (.table .inline [], rest)
    | rest => do
      let (assignments, rest) ←
        inlineAssignments? (value? depth) [] text.length rest
      let entries ← Entries.assignAll [] assignments
      return (.table .inline entries, rest)
  | _, _ => scalar? text

/-! ## Lines -/

/-- A header in single or double brackets. -/
def header? : Reader Header
  | '[' :: '[' :: text => do
    let ((path, key), text) ← key? text
    let text ← expect? ']' text
    let rest ← expect? ']' text
    return (.element path key, rest)
  | text => do
    let text ← expect? '[' text
    let ((path, key), text) ← key? text
    let rest ← expect? ']' text
    return (.table path key, rest)

/-- A table under construction: its entries so far, and the section that is
being read. -/
structure Draft where
  entries : Entries
  header : Option Header
  /-- The assignments of the section, the last one first. -/
  assignments : List Assignment

namespace Draft

/-- The entries once the section at hand is complete. -/
def finish (draft : Draft) : Option Entries :=
  match draft.header with
  | none => draft.entries.assignAll draft.assignments.reverse
  | some header =>
    draft.entries.addSection
      { header, assignments := draft.assignments.reverse }

def readLines (draft : Draft) : Nat → List Char → Option Entries
  | 0, _ => none
  | count + 1, text =>
    match skipSpaces text with
    | [] => draft.finish
    | '[' :: rest => do
      let (header, rest) ← header? ('[' :: rest)
      let rest ← lineEnd? rest
      let entries ← draft.finish
      readLines { entries, header := some header, assignments := [] } count rest
    | first :: rest =>
      if first = '#' ∨ first = '\n' ∨ first = '\r' then do
        readLines draft count (← lineEnd? (first :: rest))
      else do
        let (assignment, rest) ← assignment? (value? depthLimit) (first :: rest)
        let rest ← lineEnd? rest
        readLines { draft with assignments := assignment :: draft.assignments }
          count rest

end Draft

/-- Reads a document.  A byte order mark at its front is not part of it. -/
def parse (text : String) : Option Entries :=
  let text :=
    match text.toList with
    | '\ufeff' :: rest => rest
    | characters => characters
  Draft.readLines { entries := [], header := none, assignments := [] }
    (text.length + 1) text

end CellMachines.Toml
