/-!
# TOML tables

A TOML document is a table of items.  Besides its entries a table remembers how
it came to be, because that decides whether it may still be extended: a table
under its own header is complete except for sub-tables, a table that only the
header of a sub-table implies may still get a header of its own, a table made by
dotted keys may only get further dotted keys, and an inline table is complete as
it stands.
-/

namespace CellMachines.Toml

/-- How a table came to be. -/
inductive Origin where
  | header | implied | dotted | inline
  deriving DecidableEq, Repr

inductive Item where
  | string (text : String)
  | integer (value : Int)
  | float
  | boolean (value : Bool)
  | dateTime
  | array (items : List Item)
  | table (origin : Origin) (entries : List (String × Item))
  /-- Tables that stand under headers in double brackets, the first one first.
  -/
  | tables (elements : List (List (String × Item)))

/-- The entries of a table, in the order in which they were made. -/
abbrev Entries := List (String × Item)

namespace Entries

def get? (entries : Entries) (key : String) : Option Item :=
  (entries.find? fun entry => entry.1 = key).map Prod.snd

/-- The entries with a new item under a key, in the place of the old one if
there was one. -/
def set (entries : Entries) (key : String) (item : Item) : Entries :=
  if entries.any fun entry => entry.1 = key then
    entries.map fun entry => if entry.1 = key then (key, item) else entry
  else entries ++ [(key, item)]

def erase (entries : Entries) (key : String) : Entries :=
  entries.filter fun entry => entry.1 ≠ key

/-- Changes the last of several tables. -/
def changeLast (change : Entries → Option Entries) :
    List Entries → Option (List Entries)
  | [] => none
  | [last] => (change last).map fun changed => [changed]
  | first :: later => (changeLast change later).map (first :: ·)

/-- Adds an item under a key that may be dotted: `path` leads to the table and
`key` stands in it.  Tables on the way are made as needed; a table that stands
under a header of its own cannot be entered, and one that was not made by dotted
keys cannot be added to. -/
def insertDotted (entries : Entries) (path : List String) (key : String)
    (item : Item) : Option Entries :=
  match path with
  | [] =>
    if (entries.get? key).isSome then none else some (entries ++ [(key, item)])
  | first :: later =>
    match entries.get? first with
    | none => do
      let inner ← insertDotted [] later key item
      some (entries ++ [(first, .table .dotted inner)])
    | some (.table .dotted inner) => do
      let inner ← insertDotted inner later key item
      some (entries.set first (.table .dotted inner))
    | some (.table .implied inner) =>
      if later.isEmpty then none
      else do
        let inner ← insertDotted inner later key item
        some (entries.set first (.table .implied inner))
    | some (.tables elements) =>
      if later.isEmpty then none
      else do
        let elements ←
          changeLast (fun inner => insertDotted inner later key item) elements
        some (entries.set first (.tables elements))
    | some _ => none

/-- Changes the table that the path of a header leads to.  Tables on the way are
implied as needed, and of several tables under one name the last one is meant.
-/
def changeAt (entries : Entries) (path : List String)
    (change : Entries → Option Entries) : Option Entries :=
  match path with
  | [] => change entries
  | first :: later =>
    match entries.get? first with
    | none => do
      let inner ← changeAt [] later change
      some (entries ++ [(first, .table .implied inner)])
    | some (.table .inline _) => none
    | some (.table origin inner) => do
      let inner ← changeAt inner later change
      some (entries.set first (.table origin inner))
    | some (.tables elements) => do
      let elements ←
        changeLast (fun inner => changeAt inner later change) elements
      some (entries.set first (.tables elements))
    | some _ => none

end Entries

/-- A key with its value; the key is its last part, and the path is what comes
before it. -/
structure Assignment where
  path : List String
  key : String
  item : Item

inductive Header where
  | table (path : List String) (key : String)
  | element (path : List String) (key : String)

structure Section where
  header : Header
  assignments : List Assignment

namespace Entries

def assignAll (entries : Entries) (assignments : List Assignment) :
    Option Entries :=
  assignments.foldlM
    (fun entries assignment =>
      entries.insertDotted assignment.path assignment.key assignment.item)
    entries

/-- Adds a section.  A table must not have been there before, except that the
header of one of its sub-tables may have implied it. -/
def addSection (entries : Entries) (addition : Section) : Option Entries :=
  match addition.header with
  | .table path key =>
    entries.changeAt path fun parent =>
      match parent.get? key with
      | none => do
        let inner ← assignAll [] addition.assignments
        some (parent ++ [(key, .table .header inner)])
      | some (.table .implied inner) => do
        let inner ← assignAll inner addition.assignments
        some (parent.erase key ++ [(key, .table .header inner)])
      | some _ => none
  | .element path key =>
    entries.changeAt path fun parent =>
      match parent.get? key with
      | none => do
        let inner ← assignAll [] addition.assignments
        some (parent ++ [(key, .tables [inner])])
      | some (.tables elements) => do
        let inner ← assignAll [] addition.assignments
        some (parent.set key (.tables (elements ++ [inner])))
      | some _ => none

end Entries

end CellMachines.Toml
