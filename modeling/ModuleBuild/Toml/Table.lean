import ModuleBuild.Config.Value
/-!
Tables that are being defined. A table may be opened once by a header, may hold tables opened by
longer headers, and may be built from keys with dots; a key is never given two meanings.
-/

namespace ModuleBuild.Toml

open Config (Value)

inductive Origin where
  /-- By a header of its own, or as the document. -/
  | header
  /-- By a longer header only. -/
  | passed
  /-- By keys with dots. -/
  | dotted
deriving DecidableEq

inductive Node where
  | value (value : Value)
  | table (origin : Origin) (entries : List (String × Node))
  /-- Tables opened by headers in double brackets, the latest first. -/
  | tables (items : List (List (String × Node)))

abbrev Entries := List (String × Node)

mutual

def Node.toValue : Node → Value
  | .value value => value
  | .table _ entries => .table (valuesOf entries)
  | .tables items => .list (tablesOf items).reverse

def valuesOf : List (String × Node) → List (String × Value)
  | [] => []
  | entry :: rest => valueOf entry :: valuesOf rest

def valueOf : String × Node → String × Value
  | (key, node) => (key, node.toValue)

def tablesOf : List (List (String × Node)) → List Value
  | [] => []
  | entries :: rest => .table (valuesOf entries) :: tablesOf rest

end

/-- Changes the entries below the parts of a header; those that are missing are passed through. In a
list of tables the latest one is meant. -/
def below (change : Entries → Option Entries) : List String → Entries → Option Entries
  | [], entries => change entries
  | key :: keys, entries =>
    let place (node : Node) : Entries := OrderedMap.assign key node entries
    match OrderedMap.lookup key entries with
    | none => (below change keys []).map fun inner => place (.table .passed inner)
    | some (.table origin inner) =>
      (below change keys inner).map fun inner => place (.table origin inner)
    | some (.tables (latest :: earlier)) =>
      (below change keys latest).map fun latest => place (.tables (latest :: earlier))
    | some (.tables []) | some (.value _) => none

/-- Gives a value to a key with dots. Tables on the way may not have headers of their own, and the one
that takes the value has to come from such keys alone, which `isOpen` says of the table at hand. -/
def assignDotted (value : Value) (isOpen : Bool) : List String → Entries → Option Entries
  | [], _ => none
  | [key], entries =>
    if isOpen ∧ OrderedMap.lookup key entries = none then
      some (OrderedMap.assign key (.value value) entries)
    else none
  | key :: keys, entries =>
    let place (node : Node) : Entries := OrderedMap.assign key node entries
    match OrderedMap.lookup key entries with
    | none => (assignDotted value true keys []).map fun inner => place (.table .dotted inner)
    | some (.table .dotted inner) =>
      (assignDotted value true keys inner).map fun inner => place (.table .dotted inner)
    | some (.table .passed inner) =>
      (assignDotted value false keys inner).map fun inner => place (.table .passed inner)
    | some (.tables (latest :: earlier)) =>
      (assignDotted value false keys latest).map fun latest => place (.tables (latest :: earlier))
    | some (.table .header _) | some (.tables []) | some (.value _) => none

/-- What a header finds in its table: nothing, or the tables of longer headers. -/
def entriesAt? : List String → Entries → Option Entries
  | [], _ => none
  | [key], entries =>
    match OrderedMap.lookup key entries with
    | none => some []
    | some (.table .passed inner) => some inner
    | some _ => none
  | key :: keys, entries =>
    match OrderedMap.lookup key entries with
    | none => some []
    | some (.table _ inner) => entriesAt? keys inner
    | some (.tables (latest :: _)) => entriesAt? keys latest
    | some (.tables []) | some (.value _) => none

/-- The tables of a document: those before the open section, and the section itself. -/
structure Document where
  root : Entries := []
  /-- The parts of the header of the open section; the section that a document begins with has
  none. -/
  path : List String := []
  isList : Bool := false
  current : Entries := []

namespace Document

def closed? (document : Document) : Option Entries :=
  match document.path.getLast? with
  | none => some document.current
  | some key =>
    let place (parent : Entries) : Option Entries :=
      if document.isList then
        match OrderedMap.lookup key parent with
        | none => some (OrderedMap.assign key (.tables [document.current]) parent)
        | some (.tables items) =>
          some (OrderedMap.assign key (.tables (document.current :: items)) parent)
        | some _ => none
      else some (OrderedMap.assign key (.table .header document.current) parent)
    below place document.path.dropLast document.root

def open? (document : Document) (path : List String) (isList : Bool) : Option Document := do
  let root ← document.closed?
  let current ← if isList then some [] else entriesAt? path root
  return { root, path, isList, current }

def set? (document : Document) (path : List String) (value : Value) : Option Document :=
  (assignDotted value true path document.current).map fun current => { document with current }

def toValue? (document : Document) : Option Value :=
  document.closed?.map fun entries => .table (valuesOf entries)

end Document

end ModuleBuild.Toml
