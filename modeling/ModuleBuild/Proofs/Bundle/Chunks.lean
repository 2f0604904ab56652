import ModuleBuild.Bundle.Chunk
import ModuleBuild.Proofs.Bundle.Collection
import ModuleBuild.Proofs.Bundle.Schedule
/-!
How a graph is split over entries: every module that has to be loaded lies in one chunk, and which one that is
depends on nothing but the entries that need it.
-/

namespace ModuleBuild.Bundle

open ModuleGraph Relation

variable {graph : ModuleGraph} {given : List EntryPoint}

/-- The modules that an entry starts from. -/
def Analysis.modulesOf (analysis : Analysis) (entry : EntryTree) : List Specifier :=
  entry.roots.filterMap fun number => (analysis.forest.get? number).map (·.specifier)

theorem EntryTree.IsOf.modulesOf {analysis : Analysis} {tree : EntryTree} {entry : EntryPoint × EntryKind}
    (isOf : tree.IsOf graph analysis.forest entry) : analysis.modulesOf tree = entry.1.modules := by
  obtain ⟨-, -, stand⟩ := isOf
  unfold Analysis.modulesOf
  generalize tree.roots = numbers, entry.1.modules = modules at stand ⊢
  induction stand with
  | nil => rfl
  | cons stands _ ih =>
    obtain ⟨_, label, -⟩ := stands
    obtain ⟨node, found, same⟩ := Option.map_eq_some_iff.1 label
    rw [List.filterMap_cons_some (by rw [found, Option.map_some, (Prod.mk.inj same).1]), ih]

theorem Forest.StandsFor.label_iff {forest : Forest} {number : Nat} {root : Specifier}
    (stands : forest.StandsFor graph number root) (top : Specifier) :
    forest.label? number = some (top, true) ↔ top = root ∧ graph.IsBundled top := by
  obtain ⟨included, label, isIncluded⟩ := stands
  rw [label]
  constructor
  · intro same
    cases same
    exact ⟨rfl, isIncluded.1 rfl⟩
  · rintro ⟨rfl, bundled⟩
    rw [isIncluded.2 bundled]

theorem Visited.map_entries {done : List (EntryPoint × EntryKind)} {analysis : Analysis}
    (visited : Visited graph done analysis) :
    analysis.entries.map (fun tree => (tree.name, tree.kind, analysis.modulesOf tree)) =
      done.map fun entry => (entry.1.name, entry.2, entry.1.modules) := by
  have entries := visited.entries
  generalize analysis.entries = trees at entries ⊢
  clear visited
  induction entries with
  | nil => rfl
  | cons isOf _ ih => rw [List.map_cons, List.map_cons, ih, isOf.name, isOf.kind, isOf.modulesOf]

namespace Analysis

variable {analysis : Analysis}

theorem Mirrors.mem_sharedModules (mirrors : analysis.Mirrors graph) (specifier : Specifier) :
    specifier ∈ analysis.sharedModules ↔ analysis.SharesBelow graph specifier := by
  have isTop (top : Specifier) : (∃ number ∈ analysis.shared,
      analysis.forest.label? number = some (top, true)) ↔ analysis.isShared top = true := by
    rw [mirrors.sound.isShared]
    refine exists_congr fun number => and_congr_right fun listed => ?_
    obtain ⟨node, found, role⟩ := (mirrors.sound.shared number).1 listed
    have label : analysis.forest.label? number = some (node.specifier, true) := by
      simp [Forest.label?, found, role, Role.isIncluded]
    have known := mirrors.sound.first number node found (by simp [role, Role.isFirst])
    rw [label]
    constructor
    · rintro same
      cases same
      exact known
    · intro owner
      rw [mirrors.sound.eq_of_owner owner known]
  rw [sharedModules, (collect_ok mirrors _ _).2]
  simp only [NeededFrom, isTop, List.not_mem_nil, not_false_eq_true, and_true, true_and]
  rfl

theorem Mirrors.mem_sharedModules_of_leads (mirrors : analysis.Mirrors graph) {top specifier : Specifier}
    (shared : top ∈ analysis.sharedModules) (leads : ReflTransGen graph.Pulls top specifier) :
    specifier ∈ analysis.sharedModules := by
  rw [mirrors.mem_sharedModules] at shared ⊢
  obtain ⟨start, isShared, below⟩ := shared
  exact ⟨start, isShared, below.trans leads⟩

theorem Mirrors.mem_entryModules (mirrors : analysis.Mirrors graph) {tree : EntryTree}
    (named : analysis.entryNamed? tree.name = some tree) {modules : List Specifier}
    (stand : List.Forall₂ (analysis.forest.StandsFor graph) tree.roots modules) (specifier : Specifier) :
    specifier ∈ analysis.entryModules tree.name ↔
      graph.Needs modules specifier ∧ specifier ∉ analysis.sharedModules := by
  have isTop (top : Specifier) : (∃ number ∈ tree.roots, analysis.forest.label? number = some (top, true)) ↔
      top ∈ modules ∧ graph.IsBundled top := by
    generalize tree.roots = numbers at stand
    induction stand with
    | nil => simp
    | cons stands _ ih =>
      rw [List.exists_mem_cons_iff, stands.label_iff, ih, ← or_and_right, List.mem_cons]
  simp only [entryModules, named]
  rw [(collect_ok mirrors _ _).2]
  constructor
  · rintro ⟨top, starts, allowed, leads⟩
    obtain ⟨member, bundled⟩ := (isTop top).1 starts
    refine ⟨⟨top, member, bundled, leads.lift id fun _ _ step => step.1⟩, ?_⟩
    cases leads with
    | refl => exact allowed
    | tail _ step => exact step.2
  · rintro ⟨⟨root, member, bundled, leads⟩, unshared⟩
    -- nothing on the way is shared, for the module itself would be
    have free {middle : Specifier} (rest : ReflTransGen graph.Pulls middle specifier) :
        middle ∉ analysis.sharedModules :=
      fun shared => unshared (mirrors.mem_sharedModules_of_leads shared rest)
    refine ⟨root, (isTop root).2 ⟨member, bundled⟩, free leads, ?_⟩
    clear member bundled
    induction leads using ReflTransGen.head_induction_on with
    | refl => exact .refl
    | head pulls rest ih => exact .head ⟨pulls, free rest⟩ ih

end Analysis

/-- How a graph is split over entries, where `targets` are the modules that got entries of their own. -/
structure Partitions (graph : ModuleGraph) (given : List EntryPoint) (targets : List Specifier)
    (analysis : Analysis) : Prop where
  names : (analysis.entries.map (·.name)).Nodup
  sync : (analysis.entries.filter (·.kind = .sync)).map
    (fun entry => (entry.name, analysis.modulesOf entry)) =
      given.map fun entry => (entry.name, entry.modules)
  made : analysis.asyncEntries.map analysis.modulesOf = targets.map ([·])
  once : targets.Nodup
  deferred : ∀ target, target ∈ targets ↔ target ∉ given.flatMap (·.modules) ∧
    ∃ entry ∈ analysis.entries, ∃ specifier, graph.Needs (analysis.modulesOf entry) specifier ∧
      graph.Defers specifier target
  reached : ∀ target ∈ targets, graph.Reaches (given.flatMap (·.modules)) target
  sharedNodup : analysis.sharedModules.Nodup
  shared : ∀ specifier, specifier ∈ analysis.sharedModules ↔
    ∃ first ∈ analysis.entries, ∃ second ∈ analysis.entries, first.name ≠ second.name ∧
      graph.Needs (analysis.modulesOf first) specifier ∧ graph.Needs (analysis.modulesOf second) specifier
  ownNodup : ∀ entry ∈ analysis.entries, (analysis.entryModules entry.name).Nodup
  own : ∀ entry ∈ analysis.entries, ∀ specifier, specifier ∈ analysis.entryModules entry.name ↔
    graph.Needs (analysis.modulesOf entry) specifier ∧
      ∀ other ∈ analysis.entries, other.name ≠ entry.name →
        ¬ graph.Needs (analysis.modulesOf other) specifier
  inOneChunk : ∀ specifier, graph.IsBundled specifier →
    graph.Reaches (given.flatMap (·.modules)) specifier →
    (plans analysis).countP (specifier ∈ ·.modules) = 1

variable {made : List EntryPoint} {targets : List Specifier} {done : List (EntryPoint × EntryKind)}
  {analysis : Analysis} {names : List String} {roots : List Specifier}

theorem Visited.exists_iff (visited : Visited graph done analysis) (holds : String → List Specifier → Prop) :
    (∃ tree ∈ analysis.entries, holds tree.name (analysis.modulesOf tree)) ↔
      ∃ entry ∈ done, holds entry.1.name entry.1.modules := by
  calc (∃ tree ∈ analysis.entries, holds tree.name (analysis.modulesOf tree)) ↔
        ∃ shape ∈ analysis.entries.map fun tree => (tree.name, tree.kind, analysis.modulesOf tree),
          holds shape.1 shape.2.2 := by simp only [List.mem_map, exists_exists_and_eq_and]
    _ ↔ _ := by rw [visited.map_entries]; simp only [List.mem_map, exists_exists_and_eq_and]

theorem Visited.filter_kind (visited : Visited graph done analysis) (kind : EntryKind) :
    (analysis.entries.filter (·.kind = kind)).map (fun tree => (tree.name, analysis.modulesOf tree)) =
      (done.filter (·.2 = kind)).map fun entry => (entry.1.name, entry.1.modules) := by
  have same := congrArg (fun shapes => (shapes.filter (·.2.1 = kind)).map fun shape => (shape.1, shape.2.2))
    visited.map_entries
  simpa [List.filter_map, Function.comp_def] using same

theorem Visited.isOf (visited : Visited graph done analysis) {tree : EntryTree}
    (member : tree ∈ analysis.entries) : ∃ entry, tree.IsOf graph analysis.forest entry := by
  obtain ⟨index, inside, rfl⟩ := List.mem_iff_getElem.1 member
  exact ⟨_, visited.entries.get inside (visited.entries.length_eq ▸ inside)⟩

theorem Analysis.entryNamed?_self (nodup : (analysis.entries.map (·.name)).Nodup) {tree : EntryTree}
    (member : tree ∈ analysis.entries) : analysis.entryNamed? tree.name = some tree := by
  cases found : analysis.entryNamed? tree.name with
  | none => simpa using List.find?_eq_none.1 found tree member
  | some other =>
    have same : other.name = tree.name := by simpa using List.find?_some found
    rw [List.inj_on_of_nodup_map nodup (List.mem_of_find?_eq_some found) member same]

theorem countP_plans (analysis : Analysis) (specifier : Specifier) :
    (plans analysis).countP (specifier ∈ ·.modules) =
      analysis.entries.countP (specifier ∈ analysis.entryModules ·.name) +
        if specifier ∈ analysis.sharedModules then 1 else 0 := by
  have filled (plan : ChunkPlan) : (decide (specifier ∈ plan.modules) && !plan.modules.isEmpty) =
      decide (specifier ∈ plan.modules) := by
    cases plan.modules <;> simp
  simp only [plans, List.countP_filter, filled, List.countP_cons, List.countP_map, decide_eq_true_eq]
  rfl

theorem countP_eq_one {α : Type} [DecidableEq α] {list : List α} (nodup : list.Nodup) {item : α}
    (member : item ∈ list) {holds : α → Bool} (only : ∀ other ∈ list, holds other ↔ other = item) :
    list.countP holds = 1 := by
  rw [← List.count_eq_one_of_mem nodup member]
  exact List.countP_congr fun other inside => (only other inside).trans beq_iff_eq.symm

theorem Visited.mem_sharedModules (visited : Visited graph done analysis) (specifier : Specifier) :
    specifier ∈ analysis.sharedModules ↔
      ∃ first ∈ analysis.entries, ∃ second ∈ analysis.entries, first.name ≠ second.name ∧
        graph.Needs (analysis.modulesOf first) specifier ∧
        graph.Needs (analysis.modulesOf second) specifier := by
  rw [visited.mirrors.mem_sharedModules, visited.shares,
    ← visited.exists_iff fun name modules => ∃ second ∈ done, name ≠ second.1.name ∧
      graph.Needs modules specifier ∧ graph.Needs second.1.modules specifier]
  refine exists_congr fun first => and_congr_right fun _ => ?_
  exact (visited.exists_iff fun name modules => first.name ≠ name ∧
    graph.Needs (analysis.modulesOf first) specifier ∧ graph.Needs modules specifier).symm

theorem Visited.mem_entryModules (visited : Visited graph done analysis)
    (distinct : (analysis.entries.map (·.name)).Nodup) {tree : EntryTree}
    (member : tree ∈ analysis.entries) (specifier : Specifier) :
    specifier ∈ analysis.entryModules tree.name ↔
      graph.Needs (analysis.modulesOf tree) specifier ∧
        ∀ other ∈ analysis.entries, other.name ≠ tree.name →
          ¬ graph.Needs (analysis.modulesOf other) specifier := by
  obtain ⟨entry, isOf⟩ := visited.isOf member
  rw [visited.mirrors.mem_entryModules (Analysis.entryNamed?_self distinct member) isOf.roots,
    visited.mem_sharedModules, ← isOf.modulesOf]
  refine and_congr_right fun needs => ⟨?_, ?_⟩
  · intro alone other inside apart needs'
    exact alone ⟨other, inside, tree, member, apart, needs', needs⟩
  · rintro only ⟨first, inside, second, inside', apart, needs', needs''⟩
    by_cases same : first.name = tree.name
    · exact only second inside' (fun same' => apart (same.trans same'.symm)) needs''
    · exact only first inside same needs'

theorem Visited.countP_plans (visited : Visited graph done analysis)
    (distinct : (analysis.entries.map (·.name)).Nodup) {tree : EntryTree} (member : tree ∈ analysis.entries)
    {specifier : Specifier} (needs : graph.Needs (analysis.modulesOf tree) specifier) :
    (plans analysis).countP (specifier ∈ ·.modules) = 1 := by
  rw [Bundle.countP_plans]
  split
  -- the shared chunk alone holds it
  · next shared =>
    obtain ⟨first, inside, second, inside', apart, needs', needs''⟩ :=
      (visited.mem_sharedModules specifier).1 shared
    rw [Nat.add_eq_right, List.countP_eq_zero]
    intro other isEntry
    rw [decide_eq_true_eq, visited.mem_entryModules distinct isEntry]
    rintro ⟨-, only⟩
    by_cases same : first.name = other.name
    · exact only second inside' (fun same' => apart (same.trans same'.symm)) needs''
    · exact only first inside same needs'
  -- the chunk of the only entry that needs it holds it
  · next alone =>
    have only (other : EntryTree) (inside : other ∈ analysis.entries)
        (needs' : graph.Needs (analysis.modulesOf other) specifier) : other.name = tree.name := by
      by_contra apart
      exact alone ((visited.mem_sharedModules specifier).2
        ⟨other, inside, tree, member, apart, needs', needs⟩)
    rw [Nat.add_zero]
    refine countP_eq_one (List.Nodup.of_map _ distinct) member fun other inside => ?_
    rw [decide_eq_true_eq, visited.mem_entryModules distinct inside]
    constructor
    · rintro ⟨needs', -⟩
      exact List.inj_on_of_nodup_map distinct inside member (only other inside needs')
    · rintro rfl
      exact ⟨needs, fun third inside' apart needs' => apart (only third inside' needs')⟩

theorem Scheduled.needed (scheduled : Scheduled graph given made targets done [] names roots)
    {specifier : Specifier} (reaches : graph.Reaches (given.flatMap (·.modules)) specifier)
    (bundled : graph.IsBundled specifier) : ∃ entry ∈ done, graph.Needs entry.1.modules specifier := by
  have start {root : Specifier} (taken : root ∈ roots) (bundled : graph.IsBundled root) :
      ∃ entry ∈ done, graph.Needs entry.1.modules root := by
    obtain ⟨entry, member, inside⟩ := (scheduled.root_iff root).1 taken
    rw [List.append_nil] at member
    exact ⟨entry, member, .root inside bundled⟩
  obtain ⟨root, isGiven, leads⟩ := reaches
  induction leads with
  | refl => exact start ((scheduled.starts root).2 (.inl isGiven)) bundled
  | @tail middle target _ loads ih =>
    obtain ⟨bundled', edge, inside, isTarget⟩ := loads
    obtain ⟨entry, isDone, needs⟩ := ih bundled'
    cases kind : edge.isDynamic with
    | true => exact start (scheduled.complete entry isDone _ _ needs ⟨edge, inside, kind, isTarget⟩) bundled
    | false => exact ⟨entry, isDone, needs.pulls ⟨⟨edge, inside, kind, isTarget⟩, bundled⟩⟩

theorem partitions_of_scheduled (visited : Visited graph done analysis)
    (scheduled : Scheduled graph given made targets done [] names roots) :
    Partitions graph given targets analysis := by
  have queue := scheduled.queue
  rw [List.append_nil] at queue
  have distinct : (analysis.entries.map (·.name)).Nodup := by
    have same := congrArg (List.map (·.1)) visited.map_entries
    simp only [List.map_map, Function.comp_def] at same
    rw [same]
    simpa using scheduled.taken.nodup_iff.1 scheduled.distinct
  refine
    { names := distinct
      sync := ?sync
      made := ?made
      once := scheduled.nodup
      deferred := ?deferred
      reached := scheduled.reached
      sharedNodup := (Analysis.collect_ok visited.mirrors _ _).1
      shared := visited.mem_sharedModules
      ownNodup := ?ownNodup
      own := fun tree member => visited.mem_entryModules distinct member
      inOneChunk := ?inOneChunk }
  case sync =>
    rw [visited.filter_kind, queue]
    simp [List.filter_map, Function.comp_def]
  case made =>
    have same := congrArg (List.map (·.2)) (visited.filter_kind .async)
    rw [queue] at same
    simpa [List.filter_map, Function.comp_def, Analysis.asyncEntries, scheduled.modules] using same
  case deferred =>
    intro target
    rw [visited.exists_iff fun _ modules => ∃ specifier, graph.Needs modules specifier ∧
      graph.Defers specifier target]
    constructor
    · intro member
      exact ⟨scheduled.apart target member, scheduled.deferred target member⟩
    · rintro ⟨apart, entry, isDone, specifier, needs, defers⟩
      have taken := scheduled.complete entry isDone specifier target needs defers
      exact ((scheduled.starts target).1 taken).resolve_left apart
  case ownNodup =>
    intro tree member
    rw [Analysis.entryModules, Analysis.entryNamed?_self distinct member]
    exact (Analysis.collect_ok visited.mirrors _ _).1
  case inOneChunk =>
    intro specifier bundled reaches
    obtain ⟨tree, member, needs⟩ := (visited.exists_iff fun _ modules => graph.Needs modules specifier).2
      (scheduled.needed reaches bundled)
    exact visited.countP_plans distinct member needs

theorem Partitions.entry_of_given (partitions : Partitions graph given targets analysis) {entry : EntryPoint}
    (member : entry ∈ given) :
    ∃ tree ∈ analysis.entries, tree.name = entry.name ∧ analysis.modulesOf tree = entry.modules := by
  have listed : (entry.name, entry.modules) ∈ given.map fun entry => (entry.name, entry.modules) :=
    List.mem_map_of_mem member
  rw [← partitions.sync] at listed
  obtain ⟨tree, walked, same⟩ := List.mem_map.1 listed
  exact ⟨tree, List.mem_of_mem_filter walked, Prod.mk.inj same⟩

theorem analyze_partitions (graph : ModuleGraph) (given : List EntryPoint)
    (distinct : (given.map (·.name)).Nodup) :
    ∃ targets, Partitions graph given targets (analyze graph given) := by
  obtain ⟨made, targets, done, names, roots, scheduled, visited⟩ :=
    analyzeFrom_ok _ _ _ _ (visited_nil graph) (scheduled_start graph distinct)
  exact ⟨targets, partitions_of_scheduled visited scheduled⟩

/-- Two modules that import each other, and a third one that is imported dynamically. -/
def ring : ModuleGraph :=
  ((ModuleGraph.empty.insert (.awaiting ⟨"/lazy.js"⟩)).insert
    { ModuleRecord.awaiting ⟨"/b.js"⟩ with dependencies := [{ target := ⟨"/a.js"⟩ }] }).insert
    { ModuleRecord.awaiting ⟨"/a.js"⟩ with
      dependencies := [{ target := ⟨"/b.js"⟩ }, { target := ⟨"/lazy.js"⟩, isDynamic := true }] }

def ringEntries : List EntryPoint :=
  [{ name := "left", modules := [⟨"/a.js"⟩] }, { name := "right", modules := [⟨"/b.js"⟩] }]

/-- Both entries need both modules of the ring, which are shared, and the third one gets an entry. -/
theorem analyze_partitions_ring : (ringEntries.map (·.name)).Nodup ∧
    ∃ targets, Partitions ring ringEntries targets (analyze ring ringEntries) ∧ ⟨"/lazy.js"⟩ ∈ targets ∧
      ⟨"/a.js"⟩ ∈ (analyze ring ringEntries).sharedModules := by
  have distinct : (ringEntries.map (·.name)).Nodup := by decide
  obtain ⟨targets, partitions⟩ := analyze_partitions ring ringEntries distinct
  have entry (name : String) (modules : List Specifier)
      (isGiven : (name, modules) ∈ ringEntries.map fun entry => (entry.name, entry.modules)) :
      ∃ tree ∈ (analyze ring ringEntries).entries, tree.name = name ∧
        (analyze ring ringEntries).modulesOf tree = modules := by
    rw [← partitions.sync] at isGiven
    obtain ⟨tree, member, same⟩ := List.mem_map.1 isGiven
    exact ⟨tree, List.mem_of_mem_filter member, Prod.mk.inj same⟩
  obtain ⟨left, isEntry, leftName, leftModules⟩ := entry "left" [⟨"/a.js"⟩] (by decide)
  obtain ⟨right, isEntry', rightName, rightModules⟩ := entry "right" [⟨"/b.js"⟩] (by decide)
  have bundled : ring.IsBundled ⟨"/a.js"⟩ := ⟨_, rfl, rfl⟩
  have bundled' : ring.IsBundled ⟨"/b.js"⟩ := ⟨_, rfl, rfl⟩
  have needs : ring.Needs [⟨"/a.js"⟩] ⟨"/a.js"⟩ := .root (by simp) bundled
  have needs' : ring.Needs [⟨"/b.js"⟩] ⟨"/a.js"⟩ :=
    (Needs.root (by simp) bundled').pulls ⟨⟨{ target := ⟨"/a.js"⟩ }, by decide, rfl, rfl⟩, bundled⟩
  refine ⟨distinct, targets, partitions, (partitions.deferred _).2 ⟨by decide, left, isEntry, ⟨"/a.js"⟩, ?_⟩,
    (partitions.shared _).2 ⟨left, isEntry, right, isEntry', ?_⟩⟩
  · rw [leftModules]
    exact ⟨needs, { target := ⟨"/lazy.js"⟩, isDynamic := true }, by decide, rfl, rfl⟩
  · rw [leftModules, rightModules, leftName, rightName]
    exact ⟨by decide, needs, needs'⟩

end ModuleBuild.Bundle
