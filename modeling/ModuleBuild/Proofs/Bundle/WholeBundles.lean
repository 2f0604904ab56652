import ModuleBuild.Proofs.Bundle.ChunkFiles
import ModuleBuild.Proofs.Bundle.Gate
import ModuleBuild.Proofs.Compile.Deletion
import ModuleBuild.Proofs.Compile.Outsiders
/-!
Bundles of what a compiler made. The gate lets through what is compiled, and all of that has its code in the
store, so nothing is left to go wrong but a write: what passes is bundled in whole, each module once.
-/

namespace ModuleBuild

open ModuleGraph Workspace Relation

namespace Bundle

variable {graph : ModuleGraph} {given : List EntryPoint} {analysis : Analysis} {specifier : Specifier}

/-! ## The modules of all chunks -/

theorem cases_of_mem_plans {plan : ChunkPlan} (listed : plan ∈ plans analysis) :
    plan.name = sharedName ∧ plan.modules = analysis.sharedModules ∨
      ∃ entry ∈ analysis.entries, plan.name = entry.name ∧ plan.modules = analysis.entryModules entry.name := by
  rw [plans] at listed
  rcases List.mem_cons.1 (List.mem_filter.1 listed).1 with rfl | isEntry
  · exact .inl ⟨rfl, rfl⟩
  · obtain ⟨entry, inside, rfl⟩ := List.mem_map.1 isEntry
    exact .inr ⟨entry, inside, rfl, rfl⟩

theorem nodup_flatMap {plans : List ChunkPlan} (nodup : ∀ plan ∈ plans, plan.modules.Nodup)
    (once : ∀ specifier, plans.countP (specifier ∈ ·.modules) ≤ 1) : (plans.flatMap (·.modules)).Nodup := by
  induction plans with
  | nil => exact .nil
  | cons plan rest ih =>
    obtain ⟨here, others⟩ := List.forall_mem_cons.1 nodup
    have fewer (specifier : Specifier) := once specifier
    simp only [List.countP_cons] at fewer
    rw [List.flatMap_cons]
    refine here.append (ih others fun specifier => Nat.le_of_add_right_le (fewer specifier)) ?_
    intro specifier inside later
    obtain ⟨other, listed, member⟩ := List.mem_flatMap.1 later
    have second : 0 < rest.countP (specifier ∈ ·.modules) :=
      List.countP_pos_iff.2 ⟨other, listed, decide_eq_true member⟩
    have both := fewer specifier
    rw [if_pos (decide_eq_true inside)] at both
    omega

section

variable {made : List EntryPoint} {targets roots : List Specifier} {done : List (EntryPoint × EntryKind)}
  {names : List String} (scheduled : Scheduled graph given made targets done [] names roots)
  (visited : Visited graph done analysis)

include scheduled visited

theorem Scheduled.exists_mem_plans : (∃ plan ∈ plans analysis, specifier ∈ plan.modules) ↔
    graph.IsBundled specifier ∧ graph.Reaches (given.flatMap (·.modules)) specifier := by
  have partitions := partitions_of_scheduled visited scheduled
  have needed (needs : ∃ tree ∈ analysis.entries, graph.Needs (analysis.modulesOf tree) specifier) :
      graph.IsBundled specifier ∧ graph.Reaches (given.flatMap (·.modules)) specifier := by
    obtain ⟨entry, isDone, needs⟩ := (visited.exists_iff fun _ modules => graph.Needs modules specifier).1 needs
    exact ⟨needs.bundled, scheduled.reaches (List.mem_append_left _ isDone) needs⟩
  constructor
  · rintro ⟨plan, listed, member⟩
    rcases cases_of_mem_plans listed with ⟨-, modules⟩ | ⟨tree, inside, -, modules⟩
    · obtain ⟨first, inside, -, -, -, needs, -⟩ := (partitions.shared specifier).1 (modules ▸ member)
      exact needed ⟨first, inside, needs⟩
    · exact needed ⟨tree, inside, ((partitions.own tree inside specifier).1 (modules ▸ member)).1⟩
  · rintro ⟨bundled, reaches⟩
    have once := partitions.inOneChunk specifier bundled reaches
    obtain ⟨plan, listed, member⟩ := List.countP_pos_iff.1 (once ▸ Nat.one_pos)
    exact ⟨plan, listed, of_decide_eq_true member⟩

theorem Scheduled.nodup_plans : ((plans analysis).flatMap (·.modules)).Nodup := by
  have partitions := partitions_of_scheduled visited scheduled
  refine nodup_flatMap (fun plan listed => ?_) fun specifier => ?_
  · rcases cases_of_mem_plans listed with ⟨-, modules⟩ | ⟨entry, inside, -, modules⟩
    · exact modules ▸ partitions.sharedNodup
    · exact modules ▸ partitions.ownNodup entry inside
  · by_cases held : ∃ plan ∈ plans analysis, specifier ∈ plan.modules
    · obtain ⟨bundled, reaches⟩ := (scheduled.exists_mem_plans visited).1 held
      exact Nat.le_of_eq (partitions.inOneChunk specifier bundled reaches)
    · rw [List.countP_eq_zero.2 fun plan listed member => held ⟨plan, listed, of_decide_eq_true member⟩]
      exact Nat.zero_le 1

theorem Scheduled.slash_notMem_plans (spelled : ∀ entry ∈ given, '/' ∉ entry.name.toList) :
    ∀ plan ∈ plans analysis, '/' ∉ plan.name.toList := by
  intro plan listed
  rcases cases_of_mem_plans listed with ⟨name, -⟩ | ⟨entry, inside, name, -⟩
  · rw [name]
    decide
  rw [name]
  have named : entry.name ∈ given.map (·.name) ++ made.map (·.name) :=
    scheduled.map_name visited ▸ List.mem_map.2 ⟨entry, inside, rfl⟩
  rcases List.mem_append.1 named with isGiven | isMade
  · obtain ⟨other, member, same⟩ := List.mem_map.1 isGiven
    exact same ▸ spelled other member
  · exact scheduled.spelled entry.name isMade

end

/-! ## What is reached -/

def EndsOutside (graph : ModuleGraph) : Prop :=
  ∀ specifier record, graph.get? specifier = some record → record.isExternal = true → record.dependencies = []

variable (ends : EndsOutside graph)

include ends

theorem EndsOutside.bundled {target : Specifier} (imports : graph.Imports specifier target) :
    graph.IsBundled specifier := by
  obtain ⟨record, found⟩ := imports.get?
  refine ⟨record, found, Bool.eq_false_iff.2 fun left => ?_⟩
  obtain ⟨edge, inside, -⟩ := imports
  rw [dependencies_of_get? found, ends specifier record found left] at inside
  cases inside

theorem EndsOutside.reaches_iff (roots : List Specifier) :
    graph.Reaches roots specifier ↔ ∃ root ∈ roots, ReflTransGen graph.Imports root specifier := by
  have same : graph.Loads = graph.Imports := by
    funext importer target
    exact propext ⟨And.right, fun imports => ⟨ends.bundled imports, imports⟩⟩
  rw [Reaches, same]

theorem EndsOutside.get?_of_passes (passes : check graph given = .ok ()) {root : Specifier}
    (named : root ∈ given.flatMap (·.modules)) (leads : ReflTransGen graph.Imports root specifier) :
    ∃ record, graph.get? specifier = some record ∧ (record.isExternal = true ∨ record.isReady = true) := by
  have clear (other : Specifier) (way : ReflTransGen graph.Imports root other) :=
    (fault?_eq_none_iff _ _ _).1 ((check_eq_ok _ _).1 passes root named other way)
  have own := clear specifier leads
  suffices ∃ record, graph.get? specifier = some record by
    obtain ⟨record, found⟩ := this
    rw [found] at own
    exact ⟨record, found, own.imp_right fun fine => by rw [ModuleRecord.isReady, fine.1]; rfl⟩
  cases leads with
  | refl =>
    cases found : graph.get? specifier with
    | some record => exact ⟨record, rfl⟩
    | none =>
      rw [found] at own
      exact absurd named own
  | @tail importer _ before imports =>
    -- the importer is compiled, and the gate has looked for each of its targets
    obtain ⟨record, found, compiled⟩ := ends.bundled imports
    have above := clear importer before
    rw [found] at above
    obtain ⟨edge, inside, rfl⟩ := imports
    rw [dependencies_of_get? found] at inside
    obtain ⟨-, -, complete⟩ := above.resolve_left (by simp [compiled])
    exact Option.isSome_iff_exists.1 (by rw [← contains_eq]; exact complete edge inside)

end Bundle

/-! ## Bundles of what was compiled -/

theorem Stocks.storedText {astray : String → Prop} {workspace : Workspace}
    (stocks : Stocks astray .clear workspace) {specifier : Specifier} {record : ModuleRecord}
    (found : workspace.graph.get? specifier = some record) (ready : record.isReady = true)
    (compiled : record.isExternal = false) : Bundle.StoredText workspace.graph workspace.store specifier := by
  have ample := (stocks.record found).of_ready ready compiled
  obtain ⟨code, source, fits⟩ := ample.code
  obtain ⟨-, output, -, own, -, stored⟩ := source.resolve_left (by simp)
  obtain ⟨text, isText⟩ := fits.isText
  refine ⟨text, ?_⟩
  rw [Bundle.artifact?, found, Option.bind_some, own, Option.bind_some, stored, isText]

namespace Bundle

/-- A bundle holds all that can be reached from its entries and is not left alone, each module once. If no two
chunks have the same file, each file has the code of the modules of its chunk one after another. -/
structure IsWhole (options : BundleOptions) (graph : ModuleGraph) (entries : List EntryPoint)
    (store : ArtifactStore) (chunks : List Chunk) (files : FileTree) : Prop where
  once : (chunks.flatMap (·.modules)).Nodup
  listed : ∀ specifier, specifier ∈ chunks.flatMap (·.modules) ↔
    (∃ root ∈ entries.flatMap (·.modules), ReflTransGen graph.Imports root specifier) ∧
      ∀ record, graph.get? specifier = some record → record.isExternal = false
  stored : ∀ specifier ∈ chunks.flatMap (·.modules), StoredText graph store specifier
  holds : (chunks.map (·.file)).Nodup → ∀ chunk ∈ chunks,
    files.read (options.pathOf chunk.file) = .ok (chunkCode graph store chunk.modules)

theorem flatMap_plan (chunks : List Chunk) :
    chunks.flatMap (·.modules) = (chunks.map Chunk.plan).flatMap (·.modules) := by
  rw [List.flatMap_map]
  rfl

variable {workspace : Workspace} {options : BundleOptions} {entries : List EntryPoint} {files : FileTree}

theorem bundle_of_passes {astray : String → Prop} (stocks : Stocks astray .clear workspace)
    (ends : EndsOutside workspace.graph) (absolute : Path.isAbsolute options.directory = true)
    (emits : options.emitter = concatenate) (named : (entries.map (·.name)).Nodup)
    (spelled : ∀ entry ∈ entries, '/' ∉ entry.name.toList)
    (passes : check workspace.graph entries = .ok ()) :
    Unwritten (bundle options workspace.graph entries { store := workspace.store, files }) ∨
      ∃ output after, bundle options workspace.graph entries { store := workspace.store, files } =
        (.ok output, after) ∧
        IsWhole options workspace.graph entries workspace.store output.manifest.chunks after.files := by
  obtain ⟨made, targets, done, names, roots, scheduled, visited⟩ := analyze_scheduled workspace.graph named
  have stored (specifier : Specifier)
      (held : ∃ plan ∈ plans (analyze workspace.graph entries), specifier ∈ plan.modules) :
      StoredText workspace.graph workspace.store specifier := by
    obtain ⟨⟨record, found, compiled⟩, reaches⟩ := (scheduled.exists_mem_plans visited).1 held
    obtain ⟨root, start, leads⟩ := (ends.reaches_iff _).1 reaches
    obtain ⟨record', found', fine⟩ := ends.get?_of_passes passes start leads
    obtain rfl := Option.some.inj (found'.symm.trans found)
    exact stocks.storedText found (fine.resolve_left (by simp [compiled])) compiled
  refine (bundle_cases absolute emits stocks.inOrder passes (scheduled.slash_notMem_plans visited spelled)
    fun plan listed specifier member => stored specifier ⟨plan, listed, member⟩).imp_right ?_
  rintro ⟨output, after, written, isOf, holds⟩
  refine ⟨output, after, written, ?_⟩
  have inside (specifier : Specifier) : specifier ∈ output.manifest.chunks.flatMap (·.modules) ↔
      ∃ plan ∈ plans (analyze workspace.graph entries), specifier ∈ plan.modules := by
    rw [flatMap_plan, isOf, List.mem_flatMap]
  refine
    { once := by rw [flatMap_plan, isOf]; exact scheduled.nodup_plans visited
      listed := fun specifier => ?listed
      stored := fun specifier member => stored specifier ((inside specifier).1 member)
      holds := holds }
  case listed =>
    rw [inside, scheduled.exists_mem_plans visited, ends.reaches_iff, and_comm]
    refine and_congr_right fun ⟨root, start, leads⟩ => ?_
    obtain ⟨record, found, -⟩ := ends.get?_of_passes passes start leads
    simp [IsBundled, found]

end Bundle

/-- No module that was loaded is found to import itself as one that is left alone. -/
def SparesLoaded (calls : List (Toolchain × Call)) (graph : ModuleGraph) : Prop :=
  ∀ specifier record, graph.get? specifier = some record → record.sourceHash ≠ "" →
    ∀ call ∈ calls, call.1.SparesItself specifier

/-- After any calls on a compiler that began with nothing, what the gate stops leaves no trace, and what it lets
through is bundled in whole, if it can be written: no module that is ready lacks its code, or has code that is
not a text. -/
theorem bundle_whole_or_untouched (workspace : Workspace) (blank : workspace.IsBlank)
    (calls : List (Toolchain × Call)) (distinct : DigestsDistinct (Met workspace calls))
    (spares : SparesLoaded calls (workspace.performAll calls).graph)
    (options : Bundle.BundleOptions) (emits : options.emitter = Bundle.concatenate)
    (absolute : Path.isAbsolute options.directory = true) (entries : List Bundle.EntryPoint)
    (named : (entries.map (·.name)).Nodup) (spelled : ∀ entry ∈ entries, '/' ∉ entry.name.toList)
    (files : FileTree)
    (written : ¬ Bundle.Unwritten (Bundle.bundle options (workspace.performAll calls).graph entries
      { store := (workspace.performAll calls).store, files })) :
    let base := workspace.performAll calls
    let desk : Bundle.Desk := { store := base.store, files }
    (∀ specifier record, base.graph.get? specifier = some record → record.isReady = true →
      record.isExternal = false → Bundle.StoredText base.graph base.store specifier) ∧
    ((∃ error, Bundle.check base.graph entries = .error error ∧
        Bundle.bundle options base.graph entries desk = (.error (.fatal error), desk)) ∨
      Bundle.check base.graph entries = .ok () ∧
        ∃ output after, Bundle.bundle options base.graph entries desk = (.ok output, after) ∧
          Bundle.IsWhole options base.graph entries base.store output.manifest.chunks after.files) := by
  intro base desk
  have stocks := blank.stocks_performAll distinct calls List.prefix_rfl
  have ends : Bundle.EndsOutside base.graph := fun specifier record found left =>
    blank.dependencies_performAll distinct found left (spares specifier record found)
  refine ⟨fun specifier record found ready compiled => stocks.storedText found ready compiled, ?_⟩
  cases passes : Bundle.check base.graph entries with
  | error error => exact .inl ⟨error, rfl, by rw [Bundle.bundle, passes]⟩
  | ok _ =>
    exact .inr ⟨rfl,
      (Bundle.bundle_of_passes stocks ends absolute emits named spelled passes).resolve_left written⟩

/-! ## A script -/

section Script

open ModuleBuild.Bundle

def scriptEntries : List EntryPoint := [{ name := "main", modules := [⟨"app:a"⟩] }]

def scriptOptions : BundleOptions := { directory := ['/'] }

set_option maxRecDepth 20000 in
theorem image_script : ∃ image, script.image? ⟨"app:a"⟩ = .ok image ∧ image.edges = [] ∧ image.artifact = [49] := by
  have compiles : (script.image? ⟨"app:a"⟩).toOption.any
      (fun image => image.edges = [] ∧ image.artifact = [49]) = true := by decide +kernel
  cases is : script.image? ⟨"app:a"⟩ with
  | error error => simp [is, Except.toOption] at compiles
  | ok image =>
    simp only [is, Except.toOption, Option.any_some, decide_eq_true_eq] at compiles
    exact ⟨image, rfl, compiles⟩

theorem current_script : ∃ record, scriptBase.graph.get? ⟨"app:a"⟩ = some record ∧
    record.isExternal = false ∧ record.dependencies = [] ∧ record.state = .ready ∧
    scriptBase.graph.isCurrent record = true ∧
    artifact? scriptBase.graph scriptBase.store ⟨"app:a"⟩ = some [49] := by
  have run := compileAll_lone isLone_script
  rw [show scriptBase = (({} : Workspace).compileAll script [⟨"app:a"⟩]).2 from rfl]
  generalize ({} : Workspace).compileAll script [⟨"app:a"⟩] = result at run ⊢
  obtain ⟨report, base⟩ := result
  obtain ⟨-, tracks, ⟨record, found⟩, -⟩ := run
  have alone := lone_of_eq isLone_script
  have scope := scope_single (unambiguous_lone alone) (distinct_lone alone)
  obtain ⟨image, is, edges, artifact⟩ := image_script
  have done := tracks.isCompiled scope rfl (.root List.mem_cons_self) not_false found is
  obtain ⟨code, output⟩ := done.code
  obtain ⟨reference, -, own, -, stored⟩ := output.has
  have same : [49] = code := by
    refine List.ext_getElem? fun index => ?_
    rw [← artifact]
    exact output.of.bytes index (by simp [edges, slotsOf])
  have ready : record.isReady = true := by rw [ModuleRecord.isReady, done.ready]; rfl
  have consistent := (tracks.consistent ⟨"app:a"⟩ record found ready done.describes.folds).resolve_right
    (by rintro ⟨_, dirty, -⟩; exact dirty)
  refine ⟨record, found, done.describes.compiled, done.describes.edges.trans edges, done.ready, ?_, ?_⟩
  · rw [ModuleGraph.isCurrent, consistent.hashed]
    exact beq_self_eq_true _
  · rw [artifact?, found, Option.bind_some, own, Option.bind_some, stored, same]

theorem analyze_alone {graph : ModuleGraph} {record : ModuleRecord}
    (found : graph.get? ⟨"app:a"⟩ = some record) (compiled : record.isExternal = false)
    (bare : record.dependencies = []) :
    analyze graph scriptEntries =
      { forest := Forest.empty.grow ⟨"app:a"⟩ false (.first false)
        entries := [{ name := "main", kind := .sync, isPreloaded := false, roots := [0] }]
        primary := OrderedMap.empty.insert ⟨"app:a"⟩ 0 } := by
  have steps : Survey.stepsFrom graph ⟨"app:a"⟩ = [] := by
    simp [Survey.stepsFrom, dependencies_of_get? found, bare]
  have role : ({} : Survey graph).roleOf [] ⟨"app:a"⟩ = .first false := by
    simp [Survey.roleOf, found, compiled, OrderedMap.contains]
  simp [analyze, scriptEntries, analyzeFrom, Survey.visitEntry, Survey.visitRoot, role, steps, Role.isFirst,
    Survey.run, Survey.occur, nameTargets]
  exact ⟨rfl, rfl⟩

theorem plans_script : plans (analyze scriptBase.graph scriptEntries) =
    [{ name := "main", kind := .sync, modules := [⟨"app:a"⟩] }] := by
  obtain ⟨record, found, compiled, bare, -⟩ := current_script
  rw [analyze_alone found compiled bare]
  cbv

theorem check_script : check scriptBase.graph scriptEntries = .ok () := by
  obtain ⟨record, found, -, bare, ready, current, -⟩ := current_script
  refine (check_eq_ok _ _).2 fun root named specifier leads => ?_
  obtain rfl : root = ⟨"app:a"⟩ := List.mem_singleton.1 named
  rcases leads.cases_head with rfl | ⟨target, ⟨edge, inside, -⟩, -⟩
  · rw [fault?_eq_none_iff, found]
    exact .inr ⟨ready, current, by simp [bare]⟩
  · rw [dependencies_of_get? found, bare] at inside
    cases inside

def scriptCode : List Char := "// app:a\n1\n".toList

/-- The only chunk of the script. -/
def scriptChunk : Chunk :=
  { name := "main", file := chunkFile "main" scriptCode scriptOptions.metadata, kind := .sync
    modules := [⟨"app:a"⟩] }

theorem put_script :
    ((FileTree.empty.put (scriptOptions.pathOf scriptChunk.file) (Utf8.encode scriptCode)).bind fun files =>
      files.put (Path.join scriptOptions.directory manifestFile)
        (Text.bytes (BundleManifest.render ⟨[scriptChunk]⟩))).isOk = true := by
  decide +kernel

theorem writeChunk_script {files : FileTree}
    (put : FileTree.empty.put (scriptOptions.pathOf scriptChunk.file) (Utf8.encode scriptCode) = .ok files) :
    ∃ store, writeChunk scriptOptions scriptBase.graph { store := scriptBase.store, files := .empty }
      { name := "main", kind := .sync, modules := [⟨"app:a"⟩] } = (.ok scriptChunk, { store, files }) := by
  obtain ⟨record, -, -, -, -, -, code⟩ := current_script
  have supplied : ∀ specifier ∈ [(⟨"app:a"⟩ : Specifier)],
      (artifact? scriptBase.graph scriptBase.store specifier).isSome = true := by simp [code]
  obtain ⟨items, store, gathered, -, are⟩ :=
    Desk.gather_ok (show ({ store := scriptBase.store, files := .empty } : Desk).store.faults = .empty from
      stocks_scriptBase.inOrder) supplied
  rw [List.map_singleton, code, Option.getD_some] at are
  subst are
  have emitted : scriptOptions.emitter { name := "main", kind := .sync, modules := [⟨⟨"app:a"⟩, [49]⟩] } =
      .ok scriptCode := by decide
  have absolute : Path.isAbsolute scriptOptions.directory = true := rfl
  have done := @writeChunk_of_written scriptOptions absolute scriptBase.graph _
    ⟨"main", .sync, [⟨"app:a"⟩]⟩ (by decide) _ _ { store, files } scriptCode gathered emitted
  exact ⟨store, done (Desk.write_of_put put)⟩

theorem bundle_script : ∃ output after,
    bundle scriptOptions scriptBase.graph scriptEntries { store := scriptBase.store, files := .empty } =
      (.ok output, after) ∧ output.manifest.chunks = [scriptChunk] := by
  have wrote := put_script
  cases first : FileTree.empty.put (scriptOptions.pathOf scriptChunk.file) (Utf8.encode scriptCode) with
  | error fault => simp [first, Except.bind, Except.isOk, Except.toBool] at wrote
  | ok files =>
    obtain ⟨store, chunk⟩ := writeChunk_script first
    rw [first] at wrote
    simp only [Except.bind] at wrote
    cases second : files.put (Path.join scriptOptions.directory manifestFile)
      (Text.bytes (BundleManifest.render ⟨[scriptChunk]⟩)) with
    | error fault => simp [second, Except.isOk, Except.toBool] at wrote
    | ok files' =>
      have made : Desk.makeDirectory { store := scriptBase.store, files := .empty } scriptOptions.directory =
        (.ok (), { store := scriptBase.store, files := .empty }) := rfl
      rw [bundle, check_script]
      dsimp only
      rw [made]
      dsimp only
      rw [plans_script, writeChunks, chunk]
      dsimp only
      rw [writeChunks]
      dsimp only
      rw [@Desk.write_of_put { store, files } _ _ _ second]
      exact ⟨_, _, rfl, rfl⟩

/-- The script is compiled and bundled into one file. -/
theorem bundle_whole_or_untouched_script : ∃ output after,
    bundle scriptOptions scriptBase.graph scriptEntries { store := scriptBase.store, files := .empty } =
      (.ok output, after) ∧ output.manifest.chunks = [scriptChunk] ∧
    after.files.read (scriptOptions.pathOf scriptChunk.file) = .ok (Utf8.encode scriptCode) := by
  obtain ⟨output, after, written, chunks⟩ := bundle_script
  have alone {specifier : Specifier} (met : Met {} [(script, .compile [⟨"app:a"⟩] {})] specifier) :
      specifier = ⟨"app:a"⟩ := by
    obtain ⟨earlier, before, there⟩ := met
    exact met_script ⟨earlier, before.trans scriptCalls_prefix, there⟩
  obtain ⟨-, refused | ⟨-, output', after', written', whole⟩⟩ := bundle_whole_or_untouched {} ⟨rfl, rfl, rfl, rfl⟩
    [(script, .compile [⟨"app:a"⟩] {})] (fun _ _ one two _ => (alone one).trans (alone two).symm)
    (by
      intro specifier record found _ call member item listed
      obtain rfl := alone ⟨_, List.prefix_rfl, record, found⟩
      rw [List.mem_singleton.1 member, isLone_script.bare] at listed
      cases listed)
    scriptOptions rfl rfl scriptEntries (by decide) (by decide) .empty
    (by
      rintro ⟨place, reason, after', failed⟩
      cases failed.symm.trans written)
  · obtain ⟨error, stopped, -⟩ := refused
    cases stopped.symm.trans check_script
  · obtain ⟨same, rfl⟩ := Prod.mk.inj (written'.symm.trans written)
    obtain rfl := Except.ok.inj same
    refine ⟨output', after', written, chunks, ?_⟩
    have holds := whole.holds (by rw [chunks]; exact List.nodup_singleton _) scriptChunk
      (by rw [chunks]; exact List.mem_singleton_self _)
    obtain ⟨record, -, -, -, -, -, code⟩ := current_script
    rw [holds, chunkCode]
    refine congrArg Except.ok ?_
    rw [scriptChunk, List.flatMap_singleton]
    have code' : artifact? (({} : Workspace).performAll [(script, .compile [⟨"app:a"⟩] {})]).graph
        (({} : Workspace).performAll [(script, .compile [⟨"app:a"⟩] {})]).store ⟨"app:a"⟩ = some [49] := code
    rw [code', Option.getD_some]
    decide

end Script

end ModuleBuild
