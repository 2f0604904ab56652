import ModuleBuild.Proofs.Compile.RepeatedRepair
import ModuleBuild.Proofs.Compile.StockCalls
/-!
Work that is done again without effect: a token that is in its slot is written again, a record is changed to
itself, and a module whose output agrees with the graph is refreshed.
-/

namespace ModuleBuild

open ModuleGraph Workspace ArtifactStore

namespace OrderedMap

variable {κ β : Type} [DecidableEq κ] {map : OrderedMap κ β} {key : κ}

theorem insert_of_get? {value : β} (found : map.get? key = some value) : map.insert key value = map := by
  obtain ⟨entries, distinct⟩ := map
  refine OrderedMap.ext ?_
  change assign key value entries = entries
  change lookup key entries = some value at found
  clear distinct
  induction entries with
  | nil => cases found
  | cons entry rest ih =>
    obtain ⟨k, old⟩ := entry
    by_cases same : k = key
    · simp only [lookup, if_pos same, Option.some.injEq] at found
      rw [assign, if_pos same, found]
    · simp only [lookup, if_neg same] at found
      rw [assign, if_neg same, ih found]

theorem insert_insert (first second : β) : (map.insert key first).insert key second = map.insert key second := by
  obtain ⟨entries, distinct⟩ := map
  refine OrderedMap.ext ?_
  change assign key second (assign key first entries) = assign key second entries
  clear distinct
  induction entries with
  | nil => simp [assign]
  | cons entry rest ih =>
    obtain ⟨k, old⟩ := entry
    by_cases same : k = key
    · simp [assign, same]
    · simp [assign, same, ih]

end OrderedMap

namespace ModuleGraph

variable {graph : ModuleGraph} {specifier : Specifier} {record : ModuleRecord}

theorem modify_of_fixed (found : graph.get? specifier = some record) {change : ModuleRecord → ModuleRecord}
    (fixed : change record = record) : graph.modify specifier change = graph := by
  have same : graph.records.insert specifier record = graph.records := OrderedMap.insert_of_get? found
  simp [modify, update, found, fixed, same]

theorem modify_congr (found : graph.get? specifier = some record) {first second : ModuleRecord → ModuleRecord}
    (same : first record = second record) : graph.modify specifier first = graph.modify specifier second := by
  simp only [modify, update, found, same]

theorem modify_modify_of_fixed (found : graph.get? specifier = some record)
    {first second : ModuleRecord → ModuleRecord} (kept : (first record).dependencies = record.dependencies)
    (back : second (first record) = record) :
    (graph.modify specifier first).modify specifier second = graph := by
  have same : (graph.records.insert specifier (first record)).insert specifier record = graph.records := by
    rw [OrderedMap.insert_insert]
    exact OrderedMap.insert_of_get? found
  have there : (graph.modify specifier first).get? specifier = some (first record) := by
    rw [get?_modify, if_pos rfl, found, Option.map_some]
  have whole : graph.modify specifier first =
      { records := graph.records.insert specifier (first record), importers := graph.importers } := by
    simp [modify, update, found, kept]
  rw [modify, update, there]
  dsimp only
  rw [whole]
  simp [back, kept, same]

def IsMet (graph : ModuleGraph) (specifier : Specifier) : Prop :=
  ∃ record, graph.get? specifier = some record ∧ ¬ (record.isPending = true ∧ record.sourceHash = "")

theorem mentionExternal_of_isMet (met : graph.IsMet specifier) : graph.mentionExternal specifier = graph := by
  obtain ⟨record, found, there⟩ := met
  have old : ((graph.get? specifier).isNone ||
      ((graph.get? specifier).getD (.awaiting specifier)).isPending &&
        ((graph.get? specifier).getD (.awaiting specifier)).sourceHash == "") = false := by
    simpa [found] using there
  simp only [mentionExternal, getOrCreate_eq]
  rw [old, if_neg Bool.false_ne_true, mention_of_get? found]

theorem mentionExternals_of_isMet {externals : List Specifier} (met : ∀ target ∈ externals, graph.IsMet target) :
    externals.foldl mentionExternal graph = graph := by
  induction externals with
  | nil => rfl
  | cons target rest ih =>
    rw [List.foldl_cons, mentionExternal_of_isMet (met target List.mem_cons_self)]
    exact ih fun other member => met other (List.mem_cons_of_mem _ member)

theorem mentionAll_of_get? {targets : List Specifier}
    (recorded : ∀ target ∈ targets, ∃ record, graph.get? target = some record) :
    graph.mentionAll targets = graph := by
  induction targets with
  | nil => rfl
  | cons target rest ih =>
    obtain ⟨record, found⟩ := recorded target List.mem_cons_self
    rw [mentionAll, List.foldl_cons, mention_of_get? found]
    exact ih fun other member => recorded other (List.mem_cons_of_mem _ member)

theorem updateEntryFlag_of_current (found : graph.get? specifier = some record)
    (current : record.flags.isDynamicEntryOnly = graph.isDynamicEntry specifier) :
    graph.updateEntryFlag specifier = graph := by
  simp only [updateEntryFlag, found, current, if_true]

end ModuleGraph

/-! ## Refreshes -/

namespace Workspace

variable {workspace : Workspace} {record : ModuleRecord}

/-- Refreshing a module whose output agrees with the graph makes it ready, and changes nothing else. -/
theorem refresh_of_consistent (inOrder : workspace.store.faults = .empty) (tokens : HasTokens workspace.graph)
    (found : workspace.graph.get? record.specifier = some record) (folds : record.folds)
    (consistent : Consistent workspace.graph workspace.store record) (filed : Filed workspace.store record) :
    ∃ refreshed after, workspace.refresh record.specifier none = (.ok (some refreshed), after) ∧
      refreshed.hashChanged = false ∧ SameContents workspace.store after.store ∧
      after.graph = workspace.graph.modify record.specifier ({ · with state := .ready }) := by
  obtain ⟨output, code, own, key, stored, fit, stamped⟩ := consistent.stored
  obtain ⟨_, code', -, stored', length⟩ := filed output own
  obtain rfl := Option.some.inj (stored.symm.trans stored')
  obtain ⟨patched, patches, same, unchanged⟩ := patchEdges_of_stamped tokens.cuts (.of_slotsFit tokens fit) stamped
  have read : storedCode workspace.store record =
      (.ok code, { workspace.store with blobReads := workspace.store.blobReads + 1 }) := by
    simp [storedCode, outputKey, own, ArtifactStore.get, attempt_eq inOrder, stored]
  have contents : SameContents workspace.store
      { workspace.store with blobReads := workspace.store.blobReads + 1 } := ⟨rfl, rfl, rfl, rfl, rfl⟩
  have idle : (false || patched.isChanged ||
      record.output?.map (·.key) != some (artifactKey record.specifier record.contentHash)) = false := by
    simp [unchanged, own, key]
  unfold refresh
  simp only [found, folds, Bool.not_true, Bool.false_eq_true, if_false, read, patches, settle,
    consistent.hashed, Option.getD_some, Option.isSome_none, idle, bne_self_eq_false, Bool.not_false,
    true_and]
  by_cases ready : record.isReady = true
  · have state : record.state = .ready := by simpa [ModuleRecord.isReady] using ready
    rw [if_pos ready]
    exact ⟨_, _, rfl, rfl, contents, (modify_of_fixed found (by rw [← state])).symm⟩
  · rw [if_neg ready]
    simp only [update_of_get? _ found, Nat.lt_irrefl, or_self, if_false]
    refine ⟨_, _, rfl, rfl, contents, modify_congr found ?_⟩
    rw [own, same, ← key, ← length]

structure SameAs (first second : Workspace) : Prop where
  graph : second.graph = first.graph
  contents : SameContents first.store second.store

theorem SameAs.refl (workspace : Workspace) : SameAs workspace workspace := ⟨rfl, .refl _⟩

theorem SameAs.trans {first second third : Workspace} (one : SameAs first second) (two : SameAs second third) :
    SameAs first third :=
  ⟨two.graph.trans one.graph, one.contents.trans two.contents⟩

theorem rests_of_consistent {specifier : Specifier} (tokens : HasTokens workspace.graph)
    (each : ∀ record, workspace.graph.get? specifier = some record → record.folds →
      record.isReady = true ∧ Consistent workspace.graph workspace.store record) :
    workspace.Rests specifier := by
  intro record patched restamp
  obtain ⟨found, folds, code, stored, patches⟩ := restamp_eq_some restamp
  obtain ⟨ready, consistent⟩ := each record found folds
  obtain ⟨output, code', own, key, stored', fit, stamped⟩ := consistent.stored
  rw [outputKey_of_output? own, stored', Option.some.injEq] at stored
  subst stored
  obtain ⟨_, patches', -, unchanged⟩ := patchEdges_of_stamped tokens.cuts (.of_slotsFit tokens fit) stamped
  obtain rfl := Except.ok.inj (patches.symm.trans patches')
  exact ⟨unchanged, ready, consistent.hashed, by rw [own, Option.map_some, key]⟩

/-- Refreshing ready modules whose output agrees with the graph changes nothing. -/
theorem refreshAll_of_consistent (work : List Specifier) (workspace : Workspace) (propagation : Propagation)
    (inOrder : workspace.store.faults = .empty) (tokens : HasTokens workspace.graph)
    (each : ∀ other ∈ work, ∀ record, workspace.graph.get? other = some record → record.folds →
      record.isReady = true ∧ Consistent workspace.graph workspace.store record) :
    SameAs workspace (refreshAll workspace propagation work).2 := by
  obtain ⟨reads, run⟩ := refreshAll_of_rests work inOrder tokens.cuts
    (fun other member => rests_of_consistent tokens (each other member)) propagation
  rw [run]
  exact ⟨rfl, rfl, rfl, rfl, rfl, rfl⟩

end Workspace

/-- Repairing importers whose output agrees with the graph changes nothing. -/
theorem Stocks.propagate_of_consistent {astray : String → Prop} {workspace : Workspace}
    (stocks : Stocks astray .clear workspace) (changed : Specifier)
    (consistent : ∀ other ∈ affected workspace.graph changed, ∀ record,
      workspace.graph.get? other = some record → record.folds →
        Consistent workspace.graph workspace.store record) :
    SameAs workspace (workspace.propagate changed).2 := by
  refine refreshAll_of_consistent _ workspace {} stocks.inOrder stocks.hasTokens
    fun other member record found folds => ?_
  obtain ⟨_, there, ready⟩ := isReady_of_mem_affected member
  obtain rfl := Option.some.inj (found.symm.trans there)
  exact ⟨ready, consistent other member record found folds⟩

end ModuleBuild
