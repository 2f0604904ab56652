import ModuleBuild.Proofs.Compile.Deletion
import ModuleBuild.Proofs.Compile.EntryNotes
/-!
Which modules are noted as dynamic entries after any calls. When a module is settled, what it gets noted is
right. Importers that are lost afterwards, without the module being settled again, leave the note as it was, so
that it may grant more or less than there is; but a module that is noted as a dynamic entry never has an import
that is not dynamic.
-/

namespace ModuleBuild

open ModuleGraph Workspace ArtifactStore Pass Relation

/-- Whether a call compiles what it meets along imports, too. -/
def Call.FollowsImports : Call → Prop
  | .compile _ options => options.ignoreDependencies = false
  | .notice _ => True

namespace Workspace

/-- What a call reports of each module it touched. -/
def outcomesOf (workspace : Workspace) (tools : Toolchain) : Call → Outcomes
  | .compile roots options => (workspace.compileAll tools roots options).1.outcomes
  | .notice specifier => (workspace.sourceChanged tools specifier).1.report.outcomes

theorem notesEntries_perform {workspace : Workspace} (indexed : workspace.graph.Indexed) (tools : Toolchain)
    {call : Call} (follows : call.FollowsImports) :
    NotesEntries workspace.graph (workspace.outcomesOf tools call) (workspace.perform tools call).graph := by
  cases call with
  | compile roots options => exact notesEntries_compileAll indexed tools follows roots
  | notice specifier => exact notesEntries_sourceChanged indexed tools specifier

variable {start : Workspace} {calls : List (Toolchain × Call)}

theorem indexed_performAll (indexed : start.graph.Indexed) (follow : ∀ call ∈ calls, call.2.FollowsImports) :
    (start.performAll calls).graph.Indexed := by
  induction calls generalizing start with
  | nil => exact indexed
  | cons call rest ih =>
    have notes := notesEntries_perform indexed call.1 (follow call List.mem_cons_self)
    exact ih notes.indexed fun other member => follow other (List.mem_cons_of_mem _ member)

/-- A module was settled by a call in which nothing failed for the store, and since then it was not settled
again, stayed ready, and lost no importer. -/
inductive KeepsImporters (start : Workspace) (target : Specifier) : List (Toolchain × Call) → Prop
  | settled {calls : List (Toolchain × Call)} {call : Toolchain × Call}
    (settled : SettledIn ((start.performAll calls).outcomesOf call.1 call.2) target)
    (stored : AllStored ((start.performAll calls).outcomesOf call.1 call.2)) :
    KeepsImporters start target (calls ++ [call])
  | passed {calls : List (Toolchain × Call)} {call : Toolchain × Call}
    (keeps : KeepsImporters start target calls)
    (unsettled : ¬ SettledIn ((start.performAll calls).outcomesOf call.1 call.2) target)
    (ready : (start.performAll calls).graph.IsReady target)
    (importers : ∀ importer, (start.performAll calls).graph.Imports importer target →
      (start.performAll (calls ++ [call])).graph.Imports importer target) :
    KeepsImporters start target (calls ++ [call])

/-- The note that grants a module to be a dynamic entry never overlooks an import that is not dynamic. -/
theorem onlyDynamic_performAll (indexed : start.graph.Indexed)
    (noted : ∀ specifier record, start.graph.get? specifier = some record → record.isReady = true →
      record.flags.isDynamicEntryOnly = true → start.graph.OnlyDynamic specifier)
    (follow : ∀ call ∈ calls, call.2.FollowsImports) {target : Specifier} {record : ModuleRecord}
    (found : (start.performAll calls).graph.get? target = some record) (ready : record.isReady = true)
    (granted : record.flags.isDynamicEntryOnly = true) : (start.performAll calls).graph.OnlyDynamic target := by
  induction calls using List.reverseRecOn generalizing record with
  | nil => exact noted target record found ready granted
  | append_singleton earlier call ih =>
    have follow' : ∀ call ∈ earlier, call.2.FollowsImports := fun other member =>
      follow other (List.mem_append_left _ member)
    have notes := notesEntries_perform (indexed_performAll indexed follow') call.1
      (follow call (List.mem_append_right _ List.mem_cons_self))
    rw [performAll_concat] at found ⊢
    by_cases settled : SettledIn ((start.performAll earlier).outcomesOf call.1 call.2) target
    · obtain ⟨past, recalls, -⟩ := notes.settled target record settled found ready
      have only := ((isDynamicEntry_iff recalls.indexed).1 (recalls.entry.symm.trans granted)).2
      exact only.of_dropsTo (recalls.drops.dropsTo target)
    · obtain ⟨drops, ⟨old, was, wasReady, flags⟩ | ⟨denied, -⟩⟩ := notes.unsettled target record settled found ready
      · exact (ih follow' was wasReady (flags ▸ granted)).of_dropsTo drops
      · cases denied.symm.trans granted

theorem isDynamicEntry_performAll (indexed : start.graph.Indexed)
    (follow : ∀ call ∈ calls, call.2.FollowsImports) {target : Specifier} (keeps : KeepsImporters start target calls)
    {record : ModuleRecord} (found : (start.performAll calls).graph.get? target = some record)
    (ready : record.isReady = true) :
    record.flags.isDynamicEntryOnly = (start.performAll calls).graph.isDynamicEntry target := by
  induction keeps generalizing record with
  | @settled earlier call settled stored =>
    have indexed' := indexed_performAll indexed fun other member => follow other (List.mem_append_left _ member)
    have notes := notesEntries_perform indexed' call.1 (follow call (List.mem_append_right _ List.mem_cons_self))
    rw [performAll_concat] at found ⊢
    obtain ⟨past, recalls, same⟩ := notes.settled target record settled found ready
    rw [recalls.entry, isDynamicEntry_congr recalls.indexed notes.indexed (same stored)]
  | @passed earlier call keeps unsettled wasReady importers ih =>
    have follow' : ∀ call ∈ earlier, call.2.FollowsImports := fun other member =>
      follow other (List.mem_append_left _ member)
    have indexed' := indexed_performAll indexed follow'
    have notes := notesEntries_perform indexed' call.1 (follow call (List.mem_append_right _ List.mem_cons_self))
    rw [performAll_concat] at found importers ⊢
    obtain ⟨drops, ⟨old, was, isReady, flags⟩ | ⟨-, unready⟩⟩ :=
      notes.unsettled target record unsettled found ready
    · rw [flags, ih follow' was isReady, isDynamicEntry_of_dropsTo indexed' notes.indexed drops importers]
    · exact absurd wasReady unready

/-- After any calls that follow imports, whatever the sources and the store do in between: if a ready module is
noted as a dynamic entry, each import of it is dynamic. If it was settled and has lost no importer since, it is
noted as one exactly if it has importers and each import of it is dynamic. -/
theorem performAll_isDynamicEntryOnly (store : ArtifactStore) (calls : List (Toolchain × Call))
    (follow : ∀ call ∈ calls, call.2.FollowsImports) {target : Specifier} {record : ModuleRecord}
    (found : (({ store } : Workspace).performAll calls).graph.get? target = some record)
    (ready : record.isReady = true) :
    let graph := (({ store } : Workspace).performAll calls).graph
    (record.flags.isDynamicEntryOnly = true → graph.OnlyDynamic target) ∧
      (KeepsImporters { store } target calls →
        (record.flags.isDynamicEntryOnly = true ↔
          (∃ importer, graph.Imports importer target) ∧ graph.OnlyDynamic target)) := by
  have indexed : ({ store } : Workspace).graph.Indexed := .empty
  refine ⟨fun granted => ?_, fun keeps => ?_⟩
  · exact onlyDynamic_performAll indexed (fun _ _ found => by cases found) follow found ready granted
  · rw [isDynamicEntry_performAll indexed follow keeps found ready]
    exact isDynamicEntry_iff (indexed_performAll indexed follow)

end Workspace

section Lazy

def lazy : Toolchain where
  sources := (OrderedMap.empty.insert ⟨"app:a"⟩ (.source ⟨[], .javaScript⟩)).insert ⟨"app:c"⟩
    (.source ⟨[], .javaScript⟩)
  transpiler := fun specifier code _ => .ok
    { code
      imports := if specifier = ⟨"app:a"⟩ then [⟨"app:c", true, none⟩] else []
      hasSideEffects := false }

/-- The page is left, and what imported it is gone. -/
def orphaned : Toolchain := lazy.edited ⟨"app:a"⟩ none

def IsLazy (tools : Toolchain) : Prop := tools = lazy ∨ tools = orphaned

def lazyModules : List Specifier := [⟨"app:a"⟩, ⟨"app:c"⟩]

def lazyImage : Image where
  bytes := []
  kind := .javaScript
  code := []
  hasSideEffects := false
  imports := [(⟨"app:c", true, none⟩, ⟨⟨"app:c"⟩, false⟩)]

def pageImage : Image := { lazyImage with imports := [] }

theorem image?_lazy : lazy.image? ⟨"app:a"⟩ = .ok lazyImage := rfl

theorem image?_page : lazy.image? ⟨"app:c"⟩ = .ok pageImage := rfl

theorem edges_lazyImage : lazyImage.edges = [⟨⟨"app:c"⟩, true, none⟩] := rfl

theorem edges_pageImage : pageImage.edges = [] := rfl

theorem closed_lazy (tools : Toolchain) (is : IsLazy tools) : ∀ importer ∈ lazyModules,
    ∀ item ∈ tools.resolutions importer, item.2.isExternal = false ∧ item.2.specifier ∈ lazyModules := by
  rcases is with rfl | rfl <;> decide

theorem load_lazy (tools : Toolchain) (specifier : Specifier) (loaded : Source) (is : IsLazy tools)
    (load : tools.sources.load specifier = .ok loaded) : loaded = ⟨[], .javaScript⟩ := by
  refine SourceTree.eq_of_load (fun entry there => ?_) load
  rcases is with rfl | rfl <;>
    simp only [orphaned, lazy, Toolchain.edited, OrderedMap.get?_insert, OrderedMap.get?_erase,
      OrderedMap.get?_empty] at there <;>
    grind

theorem coherent_lazy : Coherent IsLazy [⟨"app:a"⟩] := by
  refine coherent_listed lazyModules (by decide) closed_lazy (by decide +kernel) load_lazy ?_
  rintro one two (rfl | rfl) (rfl | rfl) <;> exact ⟨rfl, rfl⟩

/-- What there is once the page was compiled along with the module that imports it. -/
structure IsLazyGraph (graph : ModuleGraph) : Prop where
  importer : ∃ record, graph.get? ⟨"app:a"⟩ = some record ∧ record.isExternal = false
  page : graph.IsReady ⟨"app:c"⟩
  listed : ∀ specifier record, graph.get? specifier = some record → specifier ∈ lazyModules
  edges : graph.dependencies ⟨"app:a"⟩ = [⟨⟨"app:c"⟩, true, none⟩]
  bare : ∀ specifier, specifier ≠ ⟨"app:a"⟩ → graph.dependencies specifier = []

theorem compileAll_lazy :
    let (report, base) := ({} : Workspace).compileAll lazy [⟨"app:a"⟩]
    IsLazyGraph base.graph ∧ SettledIn report.outcomes ⟨"app:c"⟩ ∧ AllStored report.outcomes := by
  have blank : ({} : Workspace).IsBlank := ⟨rfl, rfl, rfl, rfl⟩
  have scope := coherent_lazy.scope
  have listed {specifier : Specifier} {isExternal : Bool} :=
    @reached_listed IsLazy [⟨"app:a"⟩] lazyModules (by decide) closed_lazy specifier isExternal
  have run := compileAll_ok scope blank.sound (.inl rfl) blank.givesBack fun root member => .root member
  generalize ({} : Workspace).compileAll lazy [⟨"app:a"⟩] = result at run ⊢
  obtain ⟨report, base⟩ := result
  obtain ⟨touched, errors, compiled, reaches, reports⟩ := run
  have inner (specifier : Specifier) : ¬ Reached IsLazy [⟨"app:a"⟩] specifier true :=
    fun isLeaf => Bool.noConfusion (listed isLeaf).1
  have first : (⟨"app:a"⟩ : Specifier) ∈ touched := reaches.done (⟨"app:a"⟩, false) List.mem_cons_self
  obtain ⟨clear, importer, found, describes, -⟩ := (compiled.fresh blank.get? first).ready (inner _) image?_lazy
  have edges : base.graph.dependencies ⟨"app:a"⟩ = [⟨⟨"app:c"⟩, true, none⟩] := by
    rw [dependencies_of_get? found, describes.edges, edges_lazyImage]
  have second : (⟨"app:c"⟩ : Specifier) ∈ touched := compiled.closed rfl _ first (blank.get? _)
    ⟨⟨"app:c"⟩, true, none⟩ (edges ▸ List.mem_cons_self)
  obtain ⟨clear', page, found', describes', ready⟩ :=
    (compiled.fresh blank.get? second).ready (inner _) image?_page
  have within (specifier : Specifier) (record : ModuleRecord)
      (found : base.graph.get? specifier = some record) : specifier ∈ lazyModules := by
    cases (compiled.sound scope blank.sound (.inl rfl)).record found with
    | left isLeaf => exact (listed isLeaf).2
    | awaiting own => exact (listed own).2
    | failed own => exact (listed own).2
    | compiled own => exact (listed own).2
  have either {specifier : Specifier} {record : ModuleRecord} (there : base.graph.get? specifier = some record) :
      specifier = ⟨"app:a"⟩ ∨ specifier = ⟨"app:c"⟩ := by simpa [lazyModules] using within specifier record there
  have settled := settledIn_of_clear reports second clear' found'
  have stored : AllStored report.outcomes := by
    refine allStored_of_clear reports fun specifier member => ?_
    obtain ⟨record, there⟩ := compiled.get?_of_mem member
    rcases either there with rfl | rfl
    · exact clear
    · exact clear'
  refine ⟨⟨⟨importer, found, describes.compiled⟩, ⟨page, found', ready⟩, within, edges,
    fun specifier differ => ?_⟩, settled, stored⟩
  cases there : base.graph.get? specifier with
  | none => exact dependencies_of_get?_eq_none there
  | some record =>
    obtain rfl := (either there).resolve_left differ
    exact (dependencies_of_get? found').trans (describes'.edges.trans edges_pageImage)

def lazyCalls : List (Toolchain × Call) := [(lazy, .compile [⟨"app:a"⟩] {})]

theorem IsLazyGraph.importer_eq {graph : ModuleGraph} (is : IsLazyGraph graph) {importer target : Specifier}
    (imports : graph.Imports importer target) : importer = ⟨"app:a"⟩ := by
  by_contra differ
  obtain ⟨edge, member, -⟩ := imports
  rw [is.bare importer differ] at member
  cases member

theorem IsLazyGraph.isDynamicEntry {graph : ModuleGraph} (is : IsLazyGraph graph) :
    (∃ importer, graph.Imports importer ⟨"app:c"⟩) ∧ graph.OnlyDynamic ⟨"app:c"⟩ := by
  refine ⟨⟨⟨"app:a"⟩, ⟨⟨"app:c"⟩, true, none⟩, is.edges ▸ List.mem_cons_self, rfl⟩,
    fun importer edge member leads => ?_⟩
  obtain rfl := is.importer_eq ⟨edge, member, leads⟩
  rw [is.edges, List.mem_singleton] at member
  rw [member]

theorem keepsImporters_lazy : KeepsImporters {} ⟨"app:c"⟩ lazyCalls :=
  have run := compileAll_lazy
  @KeepsImporters.settled {} ⟨"app:c"⟩ [] (lazy, .compile [⟨"app:a"⟩] {}) run.2.1 run.2.2

/-- Once it is compiled, the page is noted as the dynamic entry that it is. -/
theorem performAll_isDynamicEntryOnly_lazy :
    ∃ record, (({} : Workspace).performAll lazyCalls).graph.get? ⟨"app:c"⟩ = some record ∧
      record.isReady = true ∧ record.flags.isDynamicEntryOnly = true := by
  have is := compileAll_lazy.1
  obtain ⟨page, found, ready⟩ := is.page
  refine ⟨page, found, ready, ?_⟩
  exact ((performAll_isDynamicEntryOnly {} lazyCalls (by simp [lazyCalls, Call.FollowsImports]) found ready).2
    keepsImporters_lazy).2 is.isDynamicEntry

theorem distinct_met_lazy {calls : List (Toolchain × Call)} (used : ∀ call ∈ calls, IsLazy call.1)
    (rooted : ∀ call ∈ calls, ∀ root ∈ call.2.roots, root ∈ [(⟨"app:a"⟩ : Specifier)]) :
    DigestsDistinct (Met {} calls) := by
  have reached {specifier : Specifier} (met : Met {} calls specifier) :
      Reached IsLazy [⟨"app:a"⟩] specifier false := by
    obtain ⟨isExternal, reached⟩ := coherent_lazy.reached_of_met ⟨rfl, rfl, rfl, rfl⟩ rfl used
      (fun call member root inside => .root (rooted call member root inside)) met
    exact (reached_listed lazyModules (by decide) closed_lazy reached).1 ▸ reached
  exact fun first second one two => coherent_lazy.distinct first second (reached one) (reached two)

/-- When the only module that imports the page is deleted, the page stays noted as a dynamic entry. -/
theorem orphaned_page_stays_entry :
    let graph := (({} : Workspace).performAll (lazyCalls ++ [(orphaned, .notice ⟨"app:a"⟩)])).graph
    (∃ record, graph.get? ⟨"app:c"⟩ = some record ∧ record.isReady = true ∧
      record.flags.isDynamicEntryOnly = true) ∧ ∀ importer, ¬ graph.Imports importer ⟨"app:c"⟩ := by
  have is : IsLazyGraph (({} : Workspace).performAll lazyCalls).graph := compileAll_lazy.1
  have indexed : (({} : Workspace).performAll lazyCalls).graph.Indexed :=
    indexed_performAll .empty (by simp [lazyCalls, Call.FollowsImports])
  obtain ⟨page, found, ready⟩ := is.page
  have noted : page.flags.isDynamicEntryOnly = true :=
    (isDynamicEntry_performAll .empty (by simp [lazyCalls, Call.FollowsImports]) keepsImporters_lazy found
      ready).trans ((isDynamicEntry_iff indexed).2 is.isDynamicEntry)
  -- the only importer goes, and the page is not looked at
  have whole := performAll_concat {} lazyCalls (orphaned, .notice ⟨"app:a"⟩)
  have distinct : DigestsDistinct (Met {} (lazyCalls ++ [(orphaned, .notice ⟨"app:a"⟩)])) :=
    distinct_met_lazy (by simp [lazyCalls, IsLazy]) (by simp [lazyCalls, Call.roots])
  have stocks := IsBlank.stocks_performAll ⟨rfl, rfl, rfl, rfl⟩ distinct lazyCalls (List.prefix_append _ _)
  have within {other : Specifier} {record : ModuleRecord}
      (there : (({} : Workspace).performAll lazyCalls).graph.get? other = some record ∨
        ((({} : Workspace).performAll lazyCalls).sourceChanged orphaned ⟨"app:a"⟩).2.graph.get? other =
          some record) : Met {} (lazyCalls ++ [(orphaned, .notice ⟨"app:a"⟩)]) other := by
    rcases there with there | there
    · exact ⟨lazyCalls, List.prefix_append _ _, record, there⟩
    · exact ⟨_, List.prefix_rfl, record, whole ▸ there⟩
  obtain ⟨importer, found', compiled⟩ := is.importer
  have missing : orphaned.sources.get? ⟨"app:a"⟩ = none := by decide
  have apart : ¬ TransGen (({} : Workspace).performAll lazyCalls).graph.Imports ⟨"app:c"⟩ ⟨"app:a"⟩ := by
    intro leads
    obtain ⟨target, imports, -⟩ := TransGen.head'_iff.1 leads
    exact absurd (is.importer_eq imports) (by decide)
  obtain ⟨absent, -, dependencies⟩ := sourceChanged_gone distinct stocks within found' compiled missing
  have stays := sourceChanged_gone_apart distinct stocks within found' compiled missing (by decide) apart
  rw [whole]
  refine ⟨⟨page, stays.trans found, ready, noted⟩, fun other imports => ?_⟩
  by_cases same : other = ⟨"app:a"⟩
  · subst same
    obtain ⟨record, there⟩ := imports.get?
    cases absent.symm.trans there
  · exact same (is.importer_eq ((imports_congr _ (dependencies other same)).1 imports))

end Lazy

end ModuleBuild
