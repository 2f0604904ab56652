import ModuleBuild.Bundle.Forest
import ModuleBuild.Fresh
import ModuleBuild.Json.Basic
import ModuleBuild.OrderedMap
/-!
How a module graph is split over chunks: the import trees of all entries, and from them the modules
of the shared chunk and of each entry, imports before importers.
-/

namespace ModuleBuild.Bundle

/-- A chunk to be built: the modules it starts from. -/
structure EntryPoint where
  name : String
  modules : List Specifier
  /-- The chunk is loaded ahead of the code of the page. -/
  isPreloaded : Bool := false
deriving DecidableEq

/-- Whether a chunk is loaded with the page, or when a dynamic import asks for it. -/
inductive EntryKind where
  | sync
  | async
deriving DecidableEq

def EntryKind.name : EntryKind → String
  | sync => "sync"
  | async => "async"

/-- An entry with the numbers of the nodes of its modules. -/
structure EntryTree where
  name : String
  kind : EntryKind
  isPreloaded : Bool
  roots : List Nat
deriving DecidableEq

structure Analysis where
  forest : Forest := .empty
  entries : List EntryTree := []
  /-- The number of the first occurrence of each module. -/
  primary : OrderedMap Specifier Nat := .empty
  /-- The first occurrences that another entry reached too, in the order in which that was found. -/
  shared : List Nat := []

namespace Analysis

def entryNamed? (analysis : Analysis) (name : String) : Option EntryTree :=
  analysis.entries.find? (·.name = name)

def asyncEntries (analysis : Analysis) : List EntryTree :=
  analysis.entries.filter (·.kind = .async)

/-- Whether the first occurrence of a module was reached by another entry itself. Modules that are
shared only because something above them is do not count. -/
def isShared (analysis : Analysis) (specifier : Specifier) : Bool :=
  ((analysis.primary.get? specifier).bind analysis.forest.get?).any (·.isShared)

/-- A module that is being gathered, with the nodes below it that are still to be looked at. The
outermost frame holds the nodes to start from and has no module. -/
structure Frame where
  specifier? : Option Specifier
  pending : List Nat

def occurring (analysis : Analysis) : List Specifier :=
  analysis.forest.nodes.toList.map (·.specifier)

/-- The nodes below a module: those of its first occurrence. -/
def below (analysis : Analysis) (node : Occurrence) : List Nat :=
  (((analysis.primary.get? node.specifier).bind analysis.forest.get?).getD node).children

theorem mem_occurring_of_get? {analysis : Analysis} {number : Nat} {node : Occurrence}
    (found : analysis.forest.get? number = some node) :
    node.specifier ∈ analysis.occurring := by
  refine List.mem_map.2 ⟨node, ?_, rfl⟩
  rw [Forest.get?] at found
  exact Array.mem_toList_iff.2 (Array.mem_of_getElem? found)

/-- Gathers modules from the frames on a path, each after what is below it and no module twice;
`seen` holds the modules that were met, and `gathered` those that are complete, the latest first. -/
def gather (analysis : Analysis) (excluded : List Specifier) (path : List Frame)
    (seen gathered : List Specifier) : List Specifier :=
  match path with
  | [] => gathered.reverse
  | ⟨specifier?, []⟩ :: outer =>
    gather analysis excluded outer seen (specifier?.toList ++ gathered)
  | ⟨specifier?, number :: pending⟩ :: outer =>
    let path := ⟨specifier?, pending⟩ :: outer
    match _found : analysis.forest.get? number with
    | none => gather analysis excluded path seen gathered
    | some node =>
      if _taken : ¬ node.role.isIncluded ∨ node.specifier ∈ excluded ∨ node.specifier ∈ seen then
        gather analysis excluded path seen gathered
      else
        gather analysis excluded (⟨some node.specifier, analysis.below node⟩ :: path)
          (node.specifier :: seen) gathered
termination_by
  (freshCount analysis.occurring seen, (path.flatMap (·.pending)).length + path.length)
decreasing_by
  · exact Prod.Lex.right _ (by simp)
  · exact Prod.Lex.right _ (by simp +arith)
  · exact Prod.Lex.right _ (by simp +arith)
  · refine Prod.Lex.left _ _ (freshCount_cons_lt (mem_occurring_of_get? _found) ?_)
    exact fun met => _taken (Or.inr (Or.inr met))

def collect (analysis : Analysis) (roots : List Nat) (excluded : List Specifier) :
    List Specifier :=
  analysis.gather excluded [⟨none, roots⟩] [] []

/-- The modules of the shared chunk. -/
def sharedModules (analysis : Analysis) : List Specifier := analysis.collect analysis.shared []

/-- The modules that belong to one entry alone. -/
def entryModules (analysis : Analysis) (name : String) : List Specifier :=
  match analysis.entryNamed? name with
  | some entry => analysis.collect entry.roots analysis.sharedModules
  | none => []

end Analysis

/-! ## The report -/

mutual

def Tree.toJson : Tree → Json
  | .node occurrence children =>
    .ofMembers
      [("specifier", .ofString occurrence.specifier.text),
        ("external", .bool (occurrence.role == .external)),
        ("preload", .bool occurrence.isPreloaded),
        ("dynamic", .bool (occurrence.role == .dynamic)),
        ("loop", .bool (occurrence.role == .loop)),
        ("shared", .bool occurrence.isShared),
        ("missing", .bool (occurrence.role == .missing)),
        ("deps", .array (treesToJson children))]

def treesToJson : List Tree → List Json
  | [] => []
  | tree :: trees => tree.toJson :: treesToJson trees

end

namespace Analysis

def treesAt (analysis : Analysis) (roots : List Nat) : Json :=
  .array (treesToJson (roots.filterMap analysis.forest.tree?))

def modulesJson (modules : List Specifier) : Json := .ofStrings (modules.map (·.text))

/-- The shared modules and those of each entry, with their import trees. -/
def report (analysis : Analysis) : Json :=
  .ofMembers
    [("shared", .ofMembers
        [("modules", modulesJson analysis.sharedModules),
          ("graph", analysis.treesAt analysis.shared)]),
      ("entries", .array (analysis.entries.map fun entry =>
        .ofMembers
          [("name", .ofString entry.name),
            ("kind", .ofString entry.kind.name),
            ("preload", .bool entry.isPreloaded),
            ("modules", modulesJson (analysis.entryModules entry.name)),
            ("graph", analysis.treesAt entry.roots)]))]

end Analysis

end ModuleBuild.Bundle
