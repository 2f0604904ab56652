import ModuleBuild.ModuleRecord
import ModuleBuild.OrderedMap
/-!
The module graph: records in order of first mention, and for every specifier its importers. These
are known for specifiers without a record too, so that the importers of a deleted file can still be
found.
-/

namespace ModuleBuild

structure ModuleGraph where
  records : OrderedMap Specifier ModuleRecord := .empty
  /-- The modules with an edge to a specifier; none occurs twice. -/
  importers : OrderedMap Specifier (List Specifier) := .empty

namespace ModuleGraph

/-- An operation named a specifier without a record. -/
structure UnknownModule where
  specifier : Specifier

def UnknownModule.message (error : UnknownModule) : String := s!"Unknown module: {error.specifier}"

def empty : ModuleGraph := {}

def size (graph : ModuleGraph) : Nat := graph.records.size

def modules (graph : ModuleGraph) : List ModuleRecord := graph.records.values

def specifiers (graph : ModuleGraph) : List Specifier := graph.records.keys

def get? (graph : ModuleGraph) (specifier : Specifier) : Option ModuleRecord :=
  graph.records.get? specifier

def contains (graph : ModuleGraph) (specifier : Specifier) : Bool :=
  graph.records.contains specifier

def errored (graph : ModuleGraph) : List ModuleRecord :=
  graph.modules.filter (·.error?.isSome)

def dependencies (graph : ModuleGraph) (specifier : Specifier) : List DependencyEdge :=
  match graph.get? specifier with
  | some record => record.dependencies
  | none => []

def importersOf (graph : ModuleGraph) (target : Specifier) : List Specifier :=
  (graph.importers.get? target).getD []

/-- The modules that import a specifier, sorted. -/
def dependents (graph : ModuleGraph) (target : Specifier) : List Specifier :=
  (graph.importersOf target).mergeSort fun a b => (compare a b).isLE

def link (importer : Specifier) (edges : List DependencyEdge)
    (importers : OrderedMap Specifier (List Specifier)) : OrderedMap Specifier (List Specifier) :=
  edges.foldl (fun importers edge =>
    let known := (importers.get? edge.target).getD []
    if importer ∈ known then importers
    else importers.insert edge.target (importer :: known)) importers

/-- Forgets that a module imports each of the given targets. -/
def unlink (importer : Specifier) (edges : List DependencyEdge)
    (importers : OrderedMap Specifier (List Specifier)) : OrderedMap Specifier (List Specifier) :=
  edges.foldl (fun importers edge =>
    match importers.get? edge.target with
    | none => importers
    | some known =>
      let left := known.filter (· ≠ importer)
      if left.isEmpty then importers.erase edge.target
      else importers.insert edge.target left) importers

/-- Sets the record of a module, in its old place if it has one. -/
def insert (graph : ModuleGraph) (record : ModuleRecord) : ModuleGraph :=
  let importers :=
    match graph.get? record.specifier with
    | some previous => unlink previous.specifier previous.dependencies graph.importers
    | none => graph.importers
  { records := graph.records.insert record.specifier record
    importers := link record.specifier record.dependencies importers }

/-- The record of a module, added if there was none, and whether it was added. -/
def getOrCreate (graph : ModuleGraph) (specifier : Specifier) :
    ModuleGraph × ModuleRecord × Bool :=
  match graph.get? specifier with
  | some record => (graph, record, false)
  | none =>
    let record := ModuleRecord.awaiting specifier
    ({ graph with records := graph.records.insert specifier record }, record, true)

def mention (graph : ModuleGraph) (specifier : Specifier) : ModuleGraph :=
  (graph.getOrCreate specifier).1

/-- Changes the record of a module, and the importers of others if its imports changed. -/
def update (graph : ModuleGraph) (specifier : Specifier)
    (change : ModuleRecord → ModuleRecord) :
    Except UnknownModule (ModuleGraph × ModuleRecord) :=
  match graph.get? specifier with
  | none => .error ⟨specifier⟩
  | some previous =>
    let record := change previous
    let importers :=
      if record.dependencies = previous.dependencies then graph.importers
      else
        link record.specifier record.dependencies
          (unlink previous.specifier previous.dependencies graph.importers)
    .ok ({ records := graph.records.insert specifier record, importers }, record)

/-- Changes the record of a module if it has one. -/
def modify (graph : ModuleGraph) (specifier : Specifier)
    (change : ModuleRecord → ModuleRecord) : ModuleGraph :=
  match graph.update specifier change with
  | .ok (changed, _) => changed
  | .error _ => graph

def setDependencies (graph : ModuleGraph) (specifier : Specifier) (edges : List DependencyEdge) :
    Except UnknownModule (ModuleGraph × ModuleRecord) :=
  graph.update specifier fun record => { record with dependencies := edges }

/-- Takes out the record of a module and its edges to others; edges to it remain. -/
def erase (graph : ModuleGraph) (specifier : Specifier) : ModuleGraph × Option ModuleRecord :=
  match graph.get? specifier with
  | none => (graph, none)
  | some record =>
    ({ records := graph.records.erase specifier
       importers := unlink record.specifier record.dependencies graph.importers }, some record)

def clear (_ : ModuleGraph) : ModuleGraph := empty

end ModuleGraph

end ModuleBuild
