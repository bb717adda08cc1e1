import BlockFetch.Document

/-!
# Tables of a configuration file

A file builds nested tables from headers and assignments. A table is defined by its header, or
implied by the header of a table within it, or made by a dotted key. A key gets a value once, a
header defines a table once, and dotted keys may only extend tables that dotted keys have made.
-/
namespace BlockFetch.Document.Toml

/-- How a table came to be. -/
inductive TableKind where
  | defined
  | implied
  | dotted
  deriving DecidableEq, Repr

/-- What stands under a key: a finished value, a table, or a list of tables. -/
inductive Item where
  | value (document : Document)
  | table (kind : TableKind) (entries : List (String × Item))
  | tables (elements : List (List (String × Item)))

/-- The entries of a table. -/
abbrev Entries := List (String × Item)

/-- A key with its dots resolved. -/
abbrev Path := List String

def replace (entries : Entries) (key : String) (item : Item) : Entries :=
  entries.map fun entry => if entry.1 = key then (key, item) else entry

def changeLast? (elements : List Entries) (change : Entries → Option Entries) :
    Option (List Entries) := do
  let last ← elements.getLast?
  return elements.dropLast ++ [← change last]

/-- Assigns a value to a path. `extensible` tells whether the table may get new keys. -/
def assign? (value : Document) : Path → (extensible : Bool) → Entries → Option Entries
  | [], _, _ => none
  | [key], extensible, entries =>
    if extensible && (entries.lookup key).isNone then some (entries ++ [(key, .value value)])
    else none
  | key :: rest, _, entries =>
    match entries.lookup key with
    | none => do
      let made ← assign? value rest true []
      return entries ++ [(key, .table .dotted made)]
    | some (.table kind inner) =>
      if kind = .defined then none
      else do
        let changed ← assign? value rest (kind = .dotted) inner
        return replace entries key (.table kind changed)
    | some (.tables elements) => do
      let changed ← changeLast? elements (assign? value rest false)
      return replace entries key (.tables changed)
    | some (.value _) => none

def defineTable (entries : Entries) (key : String) : Option Entries :=
  match entries.lookup key with
  | none => some (entries ++ [(key, .table .defined [])])
  | some (.table .implied inner) => some (replace entries key (.table .defined inner))
  | _ => none

def addTable (entries : Entries) (key : String) : Option Entries :=
  match entries.lookup key with
  | none => some (entries ++ [(key, .tables [[]])])
  | some (.tables elements) => some (replace entries key (.tables (elements ++ [[]])))
  | _ => none

/-- Follows a header to its last key, and makes the tables on the way that are missing. -/
def declare? (define : Entries → String → Option Entries) : Path → Entries → Option Entries
  | [], _ => none
  | [key], entries => define entries key
  | key :: rest, entries =>
    match entries.lookup key with
    | none => do
      let made ← declare? define rest []
      return entries ++ [(key, .table .implied made)]
    | some (.table kind inner) => do
      let changed ← declare? define rest inner
      return replace entries key (.table kind changed)
    | some (.tables elements) => do
      let changed ← changeLast? elements (declare? define rest)
      return replace entries key (.tables changed)
    | some (.value _) => none

/-- Changes the table that a header has led to. -/
def within? (change : Entries → Option Entries) : Path → Entries → Option Entries
  | [], entries => change entries
  | key :: rest, entries =>
    match entries.lookup key with
    | some (.table kind inner) => do
      let changed ← within? change rest inner
      return replace entries key (.table kind changed)
    | some (.tables elements) => do
      let changed ← changeLast? elements (within? change rest)
      return replace entries key (.tables changed)
    | _ => none

mutual

def Item.toDocument : Item → Document
  | .value document => document
  | .table _ entries => .record (entriesToFields entries)
  | .tables elements => .list (elementsToDocuments elements)

def entriesToFields : List (String × Item) → List (String × Document)
  | [] => []
  | (key, item) :: rest => (key, item.toDocument) :: entriesToFields rest

def elementsToDocuments : List (List (String × Item)) → List Document
  | [] => []
  | entries :: rest => .record (entriesToFields entries) :: elementsToDocuments rest

end

def inlineTable? (assignments : List (Path × Document)) : Option Document := do
  let entries ← assignments.foldlM (fun entries (path, value) => assign? value path true entries) []
  return .record (entriesToFields entries)

/-- A line of a configuration file. -/
inductive Statement where
  | header (path : Path)
  | elementHeader (path : Path)
  | assignment (path : Path) (value : Document)

/-- All tables of a file, and the header that the next assignments belong to. -/
structure Build where
  root : Entries
  current : Path

def Build.add? (build : Build) : Statement → Option Build
  | .header path => do
    return ⟨← declare? defineTable path build.root, path⟩
  | .elementHeader path => do
    return ⟨← declare? addTable path build.root, path⟩
  | .assignment path value => do
    return { build with root := ← within? (assign? value path true) build.current build.root }

def ofStatements? (statements : List Statement) : Option Document := do
  let build ← statements.foldlM Build.add? ⟨[], []⟩
  return .record (entriesToFields build.root)

end BlockFetch.Document.Toml
