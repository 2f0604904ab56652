import ModuleBuild.Proofs.Bundle.Entries
import ModuleBuild.Proofs.Bundle.Targets
/-!
Walking all entries. They are walked one by one, and more of them come up on the way; in the end there is one
for each target of a dynamic import, and what is shared is what two of them need.
-/

namespace ModuleBuild

open Relation

namespace ModuleGraph

/-- A module that has code imports another one, statically or dynamically. -/
def Loads (graph : ModuleGraph) (specifier target : Specifier) : Prop :=
  graph.IsBundled specifier ∧ ∃ edge ∈ graph.dependencies specifier, edge.target = target

/-- A module is reached from some others by any imports. -/
def Reaches (graph : ModuleGraph) (roots : List Specifier) (specifier : Specifier) : Prop :=
  ∃ root ∈ roots, ReflTransGen graph.Loads root specifier

variable {graph : ModuleGraph} {roots : List Specifier} {specifier target : Specifier}

theorem Needs.bundled (needs : graph.Needs roots specifier) : graph.IsBundled specifier := by
  obtain ⟨root, -, bundled, leads⟩ := needs
  cases leads with
  | refl => exact bundled
  | tail _ pulls => exact pulls.2

theorem Needs.reaches {starts : List Specifier} (needs : graph.Needs roots specifier)
    (reached : ∀ root ∈ roots, graph.Reaches starts root) : graph.Reaches starts specifier := by
  obtain ⟨root, member, bundled, leads⟩ := needs
  induction leads with
  | refl => exact reached root member
  | @tail middle _ before pulls ih =>
    obtain ⟨start, starts, way⟩ := ih
    obtain ⟨⟨edge, inside, -, target⟩, -⟩ := pulls
    have above : graph.IsBundled middle := Needs.bundled ⟨root, member, bundled, before⟩
    exact ⟨start, starts, way.tail ⟨above, edge, inside, target⟩⟩

end ModuleGraph

namespace Bundle

open ModuleGraph

variable {graph : ModuleGraph} {given : List EntryPoint}

structure EntryTree.IsOf (graph : ModuleGraph) (forest : Forest) (tree : EntryTree)
    (entry : EntryPoint × EntryKind) : Prop where
  name : tree.name = entry.1.name
  kind : tree.kind = entry.2
  roots : List.Forall₂ (forest.StandsFor graph) tree.roots entry.1.modules

structure Visited (graph : ModuleGraph) (done : List (EntryPoint × EntryKind)) (analysis : Analysis) :
    Prop where
  mirrors : analysis.Mirrors graph
  entries : List.Forall₂ (EntryTree.IsOf graph analysis.forest) analysis.entries done
  knows : ∀ specifier, analysis.Knows specifier ↔ ∃ entry ∈ done, graph.Needs entry.1.modules specifier
  shares : ∀ specifier, analysis.SharesBelow graph specifier ↔
    ∃ first ∈ done, ∃ second ∈ done, first.1.name ≠ second.1.name ∧
      graph.Needs first.1.modules specifier ∧ graph.Needs second.1.modules specifier

theorem visited_nil (graph : ModuleGraph) : Visited graph [] {} where
  mirrors := Analysis.mirrors_empty graph
  entries := .nil
  knows specifier := by
    constructor
    · rintro ⟨owner, known⟩
      cases known
    · rintro ⟨entry, none, -⟩
      cases none
  shares specifier := by
    constructor
    · rintro ⟨top, shared, -⟩
      cases shared
    · rintro ⟨first, none, -⟩
      cases none

variable {done waiting : List (EntryPoint × EntryKind)} {analysis after : Analysis}
  {entry : EntryPoint} {kind : EntryKind} {discovered : List (ModuleGraph.Walk.End graph .all)}

theorem Visited.enter (visited : Visited graph done analysis)
    (entered : Entered graph analysis after entry kind discovered)
    (other : ∀ earlier ∈ done, earlier.1.name ≠ entry.name) :
    Visited graph (done ++ [(entry, kind)]) after where
  mirrors := entered.mirrors
  entries := by
    obtain ⟨numbers, entries, stand⟩ := entered.entries
    rw [entries]
    refine List.rel_append (visited.entries.imp ?_) (.cons ⟨rfl, rfl, stand⟩ .nil)
    intro tree earlier isOf
    refine { isOf with roots := isOf.roots.imp ?_ }
    rintro number root ⟨included, label, isIncluded⟩
    exact ⟨included, entered.extend.kept number _ label, isIncluded⟩
  knows specifier := by
    rw [entered.knows, visited.knows]
    simp [or_and_right, exists_or]
  shares specifier := by
    rw [entered.shares, visited.shares, visited.knows]
    constructor
    · rintro (⟨first, isDone, second, isDone', rest⟩ | ⟨⟨first, isDone, needs⟩, needs'⟩)
      · exact ⟨first, List.mem_append_left _ isDone, second, List.mem_append_left _ isDone', rest⟩
      · exact ⟨first, List.mem_append_left _ isDone, (entry, kind), by simp, other first isDone, needs,
          needs'⟩
    · rintro ⟨first, isDone, second, isDone', apart, needs, needs'⟩
      rcases List.mem_append.1 isDone with isDone | isNew <;>
        rcases List.mem_append.1 isDone' with isDone' | isNew'
      · exact .inl ⟨first, isDone, second, isDone', apart, needs, needs'⟩
      · obtain rfl := List.mem_singleton.1 isNew'
        exact .inr ⟨⟨first, isDone, needs⟩, needs'⟩
      · obtain rfl := List.mem_singleton.1 isNew
        exact .inr ⟨⟨second, isDone', needs'⟩, needs⟩
      · obtain rfl := List.mem_singleton.1 isNew
        obtain rfl := List.mem_singleton.1 isNew'
        exact absurd rfl apart

/-- Which entries are walked and which wait. The entries for dynamic imports, `made`, start from one of the
`targets` each, and no other module is imported dynamically from what is walked. -/
structure Scheduled (graph : ModuleGraph) (given made : List EntryPoint) (targets : List Specifier)
    (done waiting : List (EntryPoint × EntryKind)) (names : List String) (roots : List Specifier) :
    Prop where
  queue : done ++ waiting = given.map (·, .sync) ++ made.map (·, .async)
  taken : names.Perm ((done ++ waiting).map (·.1.name))
  distinct : names.Nodup
  modules : made.map (·.modules) = targets.map ([·])
  nodup : targets.Nodup
  starts : ∀ root, root ∈ roots ↔ root ∈ given.flatMap (·.modules) ∨ root ∈ targets
  apart : ∀ target ∈ targets, target ∉ given.flatMap (·.modules)
  deferred : ∀ target ∈ targets, ∃ entry ∈ done, ∃ specifier, graph.Needs entry.1.modules specifier ∧
    graph.Defers specifier target
  complete : ∀ entry ∈ done, ∀ specifier target, graph.Needs entry.1.modules specifier →
    graph.Defers specifier target → target ∈ roots
  reached : ∀ target ∈ targets, graph.Reaches (given.flatMap (·.modules)) target
  stems : ∀ name, '-' ∉ name.toList → name ∉ given.map (·.name) →
    (name ∈ made.map (·.name) ↔ ∃ target ∈ targets, chunkStem target = name)
  spelled : ∀ name ∈ made.map (·.name), '/' ∉ name.toList

theorem scheduled_start (graph : ModuleGraph) (distinct : (given.map (·.name)).Nodup) :
    Scheduled graph given [] [] [] (given.map (·, .sync)) (given.map (·.name))
      (given.flatMap (·.modules)) where
  queue := by simp
  taken := by simp [Function.comp_def]
  distinct := distinct
  modules := rfl
  nodup := .nil
  starts := by simp
  apart := by simp
  deferred := by simp
  complete := by simp
  reached := by simp
  stems := by simp
  spelled := by simp

namespace Scheduled

variable {made : List EntryPoint} {targets : List Specifier} {names : List String} {roots : List Specifier}

theorem root_iff (scheduled : Scheduled graph given made targets done waiting names roots)
    (root : Specifier) : root ∈ roots ↔ ∃ entry ∈ done ++ waiting, root ∈ entry.1.modules := by
  have asTarget : root ∈ targets ↔ ∃ entry ∈ made, root ∈ entry.modules := by
    have flat := congrArg List.flatten scheduled.modules
    rw [← List.flatMap_def, ← List.flatMap_def, List.flatMap_singleton'] at flat
    rw [← flat, List.mem_flatMap]
  rw [scheduled.starts, scheduled.queue, asTarget]
  simp [or_and_right, exists_or]

theorem reaches (scheduled : Scheduled graph given made targets done waiting names roots)
    {entry : EntryPoint × EntryKind} (member : entry ∈ done ++ waiting) {specifier : Specifier}
    (needs : graph.Needs entry.1.modules specifier) :
    graph.Reaches (given.flatMap (·.modules)) specifier := by
  refine needs.reaches fun root inside => ?_
  rcases (scheduled.starts root).1 ((scheduled.root_iff root).2 ⟨entry, member, inside⟩) with start | target
  · exact ⟨root, start, .refl⟩
  · exact scheduled.reached root target

theorem name_ne (scheduled : Scheduled graph given made targets done ((entry, kind) :: waiting) names roots) :
    ∀ earlier ∈ done, earlier.1.name ≠ entry.name := by
  have nodup := scheduled.taken.nodup_iff.1 scheduled.distinct
  rw [List.map_append, List.nodup_append] at nodup
  intro earlier member
  exact nodup.2.2 _ (List.mem_map.2 ⟨earlier, member, rfl⟩) _ (by simp)

theorem enter (scheduled : Scheduled graph given made targets done ((entry, kind) :: waiting) names roots)
    (visited : Visited graph done analysis)
    (entered : Entered graph analysis after entry kind discovered)
    {more : List EntryPoint} {names' : List String} {roots' fresh : List Specifier}
    (named : NamesTargets names roots discovered more names' roots' fresh) :
    Scheduled graph given (made ++ more) (targets ++ fresh) (done ++ [(entry, kind)])
      (waiting ++ more.map (·, .async)) names' roots' := by
  have queue : (done ++ [(entry, kind)]) ++ (waiting ++ more.map (·, .async)) =
      (done ++ (entry, kind) :: waiting) ++ more.map (·, .async) := by simp
  have isFresh : ∀ target ∈ fresh, target ∉ roots ∧ ∃ specifier, graph.Needs entry.modules specifier ∧
      graph.Defers specifier target := by
    intro target member
    obtain ⟨unknown, found⟩ := (named.fresh target).1 member
    obtain ⟨specifier, -, needs, defers⟩ := (entered.discovered target).1 found
    exact ⟨unknown, specifier, needs, defers⟩
  refine
    { queue := by rw [queue, scheduled.queue, List.map_append, List.append_assoc]
      taken := ?taken
      distinct := named.distinct scheduled.distinct
      modules := by rw [List.map_append, List.map_append, scheduled.modules, named.modules]
      nodup := ?nodup
      starts := ?starts
      apart := ?apart
      deferred := ?deferred
      complete := ?complete
      reached := ?reached
      stems := ?stems
      spelled := ?spelled }
  case taken =>
    rw [queue, List.map_append]
    refine named.named.trans (scheduled.taken.append ?_)
    simp [Function.comp_def]
  case nodup =>
    refine List.nodup_append.2 ⟨scheduled.nodup, named.nodup, ?_⟩
    rintro target old _ new rfl
    exact (isFresh target new).1 ((scheduled.starts target).2 (.inr old))
  case starts =>
    intro root
    rw [named.roots, scheduled.starts, List.mem_append, or_assoc]
  case apart =>
    intro target member
    rcases List.mem_append.1 member with old | new
    · exact scheduled.apart target old
    · exact fun start => (isFresh target new).1 ((scheduled.starts target).2 (.inl start))
  case deferred =>
    intro target member
    rcases List.mem_append.1 member with old | new
    · obtain ⟨earlier, isDone, rest⟩ := scheduled.deferred target old
      exact ⟨earlier, List.mem_append_left _ isDone, rest⟩
    · exact ⟨(entry, kind), by simp, (isFresh target new).2⟩
  case complete =>
    intro earlier member specifier target needs defers
    rw [named.roots, or_iff_not_imp_left]
    intro unknown
    rcases List.mem_append.1 member with old | new
    · exact absurd (scheduled.complete earlier old specifier target needs defers) unknown
    obtain rfl := List.mem_singleton.1 new
    refine (named.fresh target).2 ⟨unknown, (entered.discovered target).2 ⟨specifier, ?_, needs, defers⟩⟩
    -- otherwise an earlier entry that needs the module met its target too
    intro known
    obtain ⟨earlier, isDone, needs'⟩ := (visited.knows specifier).1 known
    exact unknown (scheduled.complete earlier isDone specifier target needs' defers)
  case reached =>
    intro target member
    rcases List.mem_append.1 member with old | new
    · exact scheduled.reached target old
    obtain ⟨-, specifier, needs, edge, inside, -, isTarget⟩ := isFresh target new
    obtain ⟨root, start, leads⟩ := scheduled.reaches (by simp : (entry, kind) ∈ _) needs
    exact ⟨root, start, leads.tail ⟨needs.bundled, edge, inside, isTarget⟩⟩
  case stems =>
    intro name plain free
    rw [List.map_append, List.mem_append, scheduled.stems name plain free]
    simp only [List.mem_append, or_and_right, exists_or]
    refine or_congr_right' fun unmade => named.stems name plain ?_
    rw [scheduled.taken.mem_iff, scheduled.queue]
    rw [← scheduled.stems name plain free] at unmade
    simpa [Function.comp_def] using And.intro free unmade
  case spelled =>
    rw [List.map_append]
    exact List.forall_mem_append.2 ⟨scheduled.spelled, named.spelled⟩

end Scheduled

theorem analyzeFrom_ok (analysis : Analysis) (names : List String) (roots : List Specifier)
    (waiting : List (EntryPoint × EntryKind)) {made : List EntryPoint} {targets : List Specifier}
    {done : List (EntryPoint × EntryKind)} (visited : Visited graph done analysis)
    (scheduled : Scheduled graph given made targets done waiting names roots) :
    ∃ made' targets' done' names' roots', Scheduled graph given made' targets' done' [] names' roots' ∧
      Visited graph done' (analyzeFrom graph analysis names roots waiting) := by
  induction analysis, names, roots, waiting using analyzeFrom.induct graph generalizing made targets done
  case case1 analysis names roots =>
    rw [analyzeFrom]
    exact ⟨made, targets, done, names, roots, scheduled, visited⟩
  case case2 analysis names roots entry kind rest after discovered walked named ih =>
    have entered := Survey.visitEntry_ok visited.mirrors entry kind
    rw [walked] at entered
    obtain ⟨fresh, isNamed⟩ := nameTargets_ok discovered names roots
    rw [analyzeFrom, walked]
    exact ih (visited.enter entered scheduled.name_ne) (scheduled.enter visited entered isNamed)

end Bundle

end ModuleBuild
