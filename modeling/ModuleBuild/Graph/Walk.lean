import ModuleBuild.Graph.Basic
import ModuleBuild.Fresh
/-!
The depth-first walk over a module graph.

A walk enters every specifier it meets at most once and reports later meetings as revisits. It ends
on every graph: each step either enters one more of the finitely many specifiers at the ends of
edges, or uses up a step that was still to be taken from a module on the current path.
-/

namespace ModuleBuild

/-- Which edges a walk follows. -/
inductive Direction where
  /-- From a module to what it imports statically. -/
  | static
  /-- From a module to everything it imports. -/
  | all
  /-- From a module to the modules that import it. -/
  | dependents
deriving DecidableEq

inductive WalkControl where
  | continue
  | skipChildren
  | stop
deriving DecidableEq

inductive WalkOutcome where
  | completed
  | stopped
deriving DecidableEq

/-- What is done at each event of a walk, with a state of its own. `enter` is given the number of
modules that were entered and not yet left, and `revisit` whether the specifier is one of these. -/
structure Visitor (σ : Type) where
  enter : Specifier → Option ModuleRecord → Nat → σ → σ × WalkControl
  leave : Specifier → Option ModuleRecord → σ → σ := fun _ _ state => state
  revisit : Specifier → Option ModuleRecord → Bool → σ → σ := fun _ _ _ state => state

structure WalkResult (σ : Type) where
  outcome : WalkOutcome
  /-- All specifiers met, those before the walk included; the latest comes first. -/
  traced : List Specifier
  state : σ

namespace ModuleGraph

/-- Where the edges of a module lead. -/
def children (graph : ModuleGraph) (direction : Direction) (specifier : Specifier) :
    List Specifier :=
  match direction with
  | .static =>
    match graph.get? specifier with
    | some record => record.staticDependencies.map (·.target)
    | none => []
  | .all => (graph.dependencies specifier).map (·.target)
  | .dependents => graph.dependents specifier

def ends (graph : ModuleGraph) : Direction → List Specifier
  | .static | .all => graph.modules.flatMap fun record => record.dependencies.map (·.target)
  | .dependents => graph.importers.values.flatten

theorem mem_modules_of_get? {graph : ModuleGraph} {specifier : Specifier} {record : ModuleRecord}
    (found : graph.get? specifier = some record) : record ∈ graph.modules :=
  OrderedMap.mem_values_of_get? found

theorem mem_ends_of_mem_children {graph : ModuleGraph} {direction : Direction}
    {specifier child : Specifier} (member : child ∈ graph.children direction specifier) :
    child ∈ graph.ends direction := by
  cases direction with
  | static =>
    simp only [children] at member
    split at member
    · rename_i record found
      obtain ⟨edge, inside, rfl⟩ := List.mem_map.1 member
      refine List.mem_flatMap.2 ⟨record, mem_modules_of_get? found, List.mem_map.2 ⟨edge, ?_, rfl⟩⟩
      exact (List.mem_filter.1 inside).1
    · exact absurd member List.not_mem_nil
  | all =>
    simp only [children, dependencies] at member
    split at member
    · rename_i record found
      exact List.mem_flatMap.2 ⟨record, mem_modules_of_get? found, member⟩
    · exact absurd member List.not_mem_nil
  | dependents =>
    simp only [children, ModuleGraph.dependents, importersOf, List.mem_mergeSort] at member
    cases found : graph.importers.get? specifier with
    | none => simp [found] at member
    | some importers =>
      simp only [found, Option.getD_some] at member
      exact List.mem_flatten.2 ⟨importers, OrderedMap.mem_values_of_get? found, member⟩

namespace Walk

abbrev End (graph : ModuleGraph) (direction : Direction) :=
  { specifier : Specifier // specifier ∈ graph.ends direction }

/-- A module on the current path, with the steps still to be taken from it. -/
structure Frame (graph : ModuleGraph) (direction : Direction) where
  specifier : Specifier
  pending : List (End graph direction)

def frame (graph : ModuleGraph) (direction : Direction) (specifier : Specifier) :
    Frame graph direction :=
  ⟨specifier, (graph.children direction specifier).attachWith _ fun _ => mem_ends_of_mem_children⟩

/-- The steps to be taken from the modules on a path, leaving them included. -/
def steps {graph : ModuleGraph} {direction : Direction} (path : List (Frame graph direction)) :
    Nat :=
  (path.flatMap (·.pending)).length + path.length

variable {σ : Type}

/-- Walks on from a path, its innermost module first. -/
def run (graph : ModuleGraph) (direction : Direction) (visitor : Visitor σ)
    (path : List (Frame graph direction)) (traced : List Specifier) (state : σ) : WalkResult σ :=
  match path with
  | [] => ⟨.completed, traced, state⟩
  | ⟨specifier, []⟩ :: outer =>
    run graph direction visitor outer traced
      (visitor.leave specifier (graph.get? specifier) state)
  | ⟨specifier, child :: pending⟩ :: outer =>
    let path := ⟨specifier, pending⟩ :: outer
    let record? := graph.get? child.val
    if _met : child.val ∈ traced then
      let onPath := path.any (·.specifier = child.val)
      run graph direction visitor path traced (visitor.revisit child.val record? onPath state)
    else
      match visitor.enter child.val record? path.length state with
      | (state, .stop) => ⟨.stopped, child.val :: traced, state⟩
      | (state, .skipChildren) =>
        run graph direction visitor path (child.val :: traced)
          (visitor.leave child.val record? state)
      | (state, .continue) =>
        run graph direction visitor (frame graph direction child.val :: path)
          (child.val :: traced) state
termination_by (freshCount (graph.ends direction) traced, steps path)
decreasing_by
  · exact Prod.Lex.right _ (by simp [steps])
  · exact Prod.Lex.right _ (by simp +arith [steps])
  · exact Prod.Lex.left _ _ (freshCount_cons_lt child.property _met)
  · exact Prod.Lex.left _ _ (freshCount_cons_lt child.property _met)

end Walk

variable {σ : Type}

/-- Walks from a specifier, treating those in `traced` as already met. -/
def walk (graph : ModuleGraph) (start : Specifier) (direction : Direction)
    (traced : List Specifier) (visitor : Visitor σ) (state : σ) : WalkResult σ :=
  let record? := graph.get? start
  if start ∈ traced then ⟨.completed, traced, visitor.revisit start record? false state⟩
  else
    match visitor.enter start record? 0 state with
    | (state, .stop) => ⟨.stopped, start :: traced, state⟩
    | (state, .skipChildren) =>
      ⟨.completed, start :: traced, visitor.leave start record? state⟩
    | (state, .continue) =>
      Walk.run graph direction visitor [Walk.frame graph direction start] (start :: traced) state

/-- The modules that import a specifier, directly or through others, in the order of the walk. -/
def transitiveDependents (graph : ModuleGraph) (specifier : Specifier) : List Specifier :=
  let visitor : Visitor (List Specifier) :=
    { enter := fun met _ depth found => (if depth = 0 then found else met :: found, .continue) }
  (graph.walk specifier .dependents [] visitor []).state.reverse

/-- Whether a walk along static imports meets one specifier below another. -/
def dependsOn (graph : ModuleGraph) (importer imported : Specifier) : Bool :=
  let visitor : Visitor Unit :=
    { enter := fun met _ depth _ =>
        ((), if depth > 0 ∧ met = imported then .stop else .continue) }
  (graph.walk importer .static [] visitor ()).outcome == .stopped

end ModuleGraph

end ModuleBuild
