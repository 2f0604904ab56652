import ModuleBuild.Proofs.Compile.CallHistory
/-!
What following a changed source leaves out of date. The pass over it may compile other modules that were not
ready, and only the importers of the changed one are repaired after it.
-/

namespace ModuleBuild

open ModuleGraph Workspace ArtifactStore Pass Relation

variable {known : Toolchain → Prop} {modules leaf : Specifier → Prop} {tools : Toolchain}
  {workspace before after : Workspace} {changed : Specifier}

theorem Workspace.Consistent.isCurrent {graph : ModuleGraph} {store : ArtifactStore}
    {record : ModuleRecord} (consistent : Consistent graph store record) :
    graph.isCurrent record = true := by
  rw [ModuleGraph.isCurrent, consistent.hashed, Option.getD_some, beq_self_eq_true]

theorem Describes.foldView? {graph : ModuleGraph} {specifier : Specifier} {record : ModuleRecord}
    {image : Image} (describes : Describes image record)
    (found : graph.get? specifier = some record) :
    graph.foldView? specifier =
      some (image.source, (image.edges.filter (!·.isDynamic)).map (·.target)) := by
  rw [foldView?_of_get? found describes.folds, ModuleRecord.staticDependencies, describes.source,
    describes.edges]

theorem Sound.folds_or_left (sound : Sound known modules leaf workspace) {specifier : Specifier}
    {record : ModuleRecord} (found : workspace.graph.get? specifier = some record)
    (ready : record.isReady) : record.folds ∨ leaf specifier ∧ record.IsLeftAlone specifier := by
  refine ((sound.record found).left_or_compiled ready).symm.imp_left ?_
  rintro ⟨-, image, -, is⟩
  exact is.describes.folds

/-- A ready module is one that content hashes see, or it is left alone and has none. -/
theorem Sound.folds_or_isCurrent (sound : Sound known modules leaf workspace) {specifier : Specifier}
    {record : ModuleRecord} (found : workspace.graph.get? specifier = some record)
    (ready : record.isReady) : record.folds ∨ workspace.graph.isCurrent record = true := by
  refine (sound.folds_or_left found ready).imp_right ?_
  rintro ⟨-, _, rfl⟩
  rw [isCurrent, contentHash?_eq_none]
  · rfl
  · simp [foldView?, ModuleRecord.external, found, ModuleRecord.folds]

/-- A module that was compiled along with the changed one stays ready while importers are repaired. -/
theorem Revived.propagate (scope : Scope known modules leaf) (sound : Sound known modules leaf workspace)
    {specifier : Specifier} (revived : Revived tools before workspace specifier) (changed : Specifier) :
    Revived tools before (workspace.propagate changed).2 specifier := by
  obtain ⟨-, steps, -⟩ := propagate_ok scope sound changed
  obtain ⟨record, found, ready⟩ := revived.ready
  refine ⟨revived.unready, revived.compiled, ?_⟩
  by_cases member : specifier ∈ affected workspace.graph changed
  · have state : record.state = .ready := by simpa [ModuleRecord.isReady] using ready
    obtain ⟨contentHash, output?, found'⟩ := steps.get?_touched found state
    exact ⟨_, found', ready⟩
  · exact ⟨record, (steps.get?_other member).trans found, ready⟩

/-- If all modules are consistent and one changed source is followed, then a module that is not consistent
after it imports another one that was compiled along with the changed one. -/
theorem Sound.sourceChanged_upTo_revived (scope : Scope known modules leaf)
    (sound : Sound known modules leaf workspace) (readable : workspace.store.Readable modules leaf)
    (used : known tools)
    (consistent : ∀ specifier record, workspace.graph.get? specifier = some record → record.isReady →
      record.folds → Consistent workspace.graph workspace.store record)
    (changed : Specifier) :
    let after := (workspace.sourceChanged tools changed).2
    ∀ specifier, ConsistentUpTo (fun other => Revived tools workspace after other ∧ other ≠ changed) after
      specifier := by
  rcases sourceChanged_ok scope sound readable used changed with
    ⟨-, -, same⟩ | ⟨touched, errors, passed, middle, compiled, -, anew, middle?, same⟩
  · intro after specifier record found ready folds
    simp only [after, same] at found ⊢
    exact .inl (consistent specifier record found ready folds)
  have within : ChangesWithin workspace passed changed
      (fun other => Revived tools workspace passed other ∧ other ≠ changed) := by
    intro target _
    by_cases own : target = changed
    · exact .inr (.inl own)
    · exact (compiled.view_or_revived scope sound own).imp_right fun revived => .inr ⟨revived, own⟩
  have unrepaired : Unrepaired known modules leaf
      (fun other => Revived tools workspace passed other ∧ other ≠ changed) changed passed :=
    ⟨compiled.sound scope sound used, fun _ _ found ready folds =>
      compiled.consistent_or scope sound within (fun specifier record found ready folds =>
        .inl (consistent specifier record found ready folds)) anew found ready folds⟩
  have between : Unrepaired known modules leaf
        (fun other => Revived tools workspace passed other ∧ other ≠ changed) changed middle ∧
      ∀ other, other ≠ changed → middle.graph.get? other = passed.graph.get? other := by
    rcases middle? with ⟨rfl, -⟩ | ⟨rfl, own, -, record, found, failed⟩
    · exact ⟨unrepaired, fun _ _ => rfl⟩
    · refine ⟨unrepaired.remove scope own found failed, fun other differ => ?_⟩
      rw [remove_eq unrepaired.sound.store.inOrder found failed.output]
      exact (get?_erase _ _ _).trans (if_neg (Ne.symm differ))
  obtain ⟨unrepaired', kept⟩ := between
  intro after specifier record found ready folds
  simp only [after, same] at found ⊢
  refine (unrepaired'.propagate scope specifier record found ready folds).imp_right ?_
  rintro ⟨other, ⟨⟨revived, differ⟩, -⟩, above⟩
  have revived' : Revived tools workspace middle other :=
    ⟨revived.unready, revived.compiled, by rw [kept other differ]; exact revived.ready⟩
  exact ⟨other, ⟨revived'.propagate scope unrepaired'.sound changed, differ⟩, above⟩

/-- Let a compiler be asked to do anything, and its modules be consistent at some time. If then one changed
source is followed, every ready module is current, but for those that import another module, directly or
through others, which was not ready before and now is. -/
theorem sourceChanged_current_or_above_revived (calls : List (Toolchain × Call)) (tools : Toolchain)
    (changed : Specifier) (workspace : Workspace) (blank : workspace.IsBlank)
    (coherent : Coherent (fun version => version = tools ∨ version ∈ calls.map Prod.fst)
      (calls.flatMap fun call => call.2.roots))
    (readable : workspace.store.Readable
      (Reached (fun version => version = tools ∨ version ∈ calls.map Prod.fst)
        (calls.flatMap fun call => call.2.roots) · false)
      (Reached (fun version => version = tools ∨ version ∈ calls.map Prod.fst)
        (calls.flatMap fun call => call.2.roots) · true)) :
    let before := workspace.performAll calls
    let after := (before.sourceChanged tools changed).2
    (∀ specifier record, before.graph.get? specifier = some record → record.isReady → record.folds →
      Consistent before.graph before.store record) →
    ∀ specifier record, after.graph.get? specifier = some record → record.isReady →
      after.graph.isCurrent record = true ∨
      ∃ other, other ≠ changed ∧ Revived tools before after other ∧
        TransGen after.graph.Imports specifier other := by
  have scope := coherent.scope
  obtain ⟨sound, setup⟩ := blank.sound.performAll scope calls readable
    (fun call member => .inr (List.mem_map.2 ⟨call, member, rfl⟩))
    (fun call member root listed => .root (List.mem_flatMap.2 ⟨call, member, listed⟩))
  have readable' := readable.congr setup
  intro before after consistent specifier record found ready
  obtain ⟨sound', -⟩ := sound_sourceChanged scope sound readable' (.inl rfl) changed
  rcases sound'.folds_or_isCurrent found ready with folds | current
  · have upTo := sound.sourceChanged_upTo_revived scope readable' (.inl rfl) consistent changed
    rcases upTo specifier record found ready folds with fine | ⟨other, ⟨revived, differ⟩, above⟩
    · exact .inl fine.isCurrent
    · exact .inr ⟨other, differ, revived, above⟩
  · exact .inl current

section Fork

/-- Two modules that import a third, which has no source. -/
def fork : Toolchain where
  sources := (OrderedMap.empty.insert ⟨"app:a"⟩ (.source ⟨[], .javaScript⟩)).insert ⟨"app:q"⟩
    (.source ⟨[], .javaScript⟩)
  transpiler := fun specifier code _ => .ok
    { code
      imports := if specifier = ⟨"app:d"⟩ then [] else [⟨"app:d", false, none⟩]
      hasSideEffects := false }

def grownFork : Toolchain := fork.edited ⟨"app:d"⟩ (some (.source ⟨[], .javaScript⟩))

def forkRoots : List Specifier := [⟨"app:a"⟩, ⟨"app:q"⟩]

structure IsFork (tools : Toolchain) : Prop where
  first : (tools.resolutions ⟨"app:a"⟩).map Prod.snd = [⟨⟨"app:d"⟩, false⟩]
  second : (tools.resolutions ⟨"app:q"⟩).map Prod.snd = [⟨⟨"app:d"⟩, false⟩]
  third : tools.resolutions ⟨"app:d"⟩ = []
  source : ∀ specifier entry, tools.sources.get? specifier = some entry →
    entry = .source ⟨[], .javaScript⟩
  resolver : tools.resolver = fork.resolver
  transpiler : tools.transpiler = fork.transpiler

theorem isFork_fork : IsFork fork where
  first := by decide
  second := by decide
  third := rfl
  source specifier entry found := by
    simp only [fork, OrderedMap.get?_insert, OrderedMap.get?_empty] at found
    grind
  resolver := rfl
  transpiler := rfl

theorem isFork_grownFork : IsFork grownFork where
  first := by decide
  second := by decide
  third := rfl
  source specifier entry found := by
    simp only [grownFork, fork, Toolchain.edited, OrderedMap.get?_insert, OrderedMap.get?_empty] at found
    grind
  resolver := rfl
  transpiler := rfl

theorem load_fork {tools : Toolchain} (fork : IsFork tools) {specifier : Specifier} {source : Source}
    (load : tools.sources.load specifier = .ok source) : source = ⟨[], .javaScript⟩ :=
  SourceTree.eq_of_load (fork.source specifier) load

def forkModules : List Specifier := [⟨"app:a"⟩, ⟨"app:q"⟩, ⟨"app:d"⟩]

theorem closed_fork {tools : Toolchain} (fork : IsFork tools) : ∀ importer ∈ forkModules,
    ∀ item ∈ tools.resolutions importer, item.2.isExternal = false ∧ item.2.specifier ∈ forkModules := by
  intro importer inside item member
  have listed : item.2 ∈ (tools.resolutions importer).map Prod.snd := List.mem_map.2 ⟨item, member, rfl⟩
  have third : (⟨"app:d"⟩ : Specifier) ∈ forkModules := by decide
  simp only [forkModules, List.mem_cons, List.not_mem_nil, or_false] at inside
  rcases inside with rfl | rfl | rfl
  · rw [fork.first, List.mem_singleton] at listed
    exact listed ▸ ⟨rfl, third⟩
  · rw [fork.second, List.mem_singleton] at listed
    exact listed ▸ ⟨rfl, third⟩
  · rw [fork.third] at member
    cases member

section Known

variable (forks : ∀ version, known version → IsFork version)

include forks

theorem reached_fork {specifier : Specifier} {isExternal : Bool}
    (reached : Reached known forkRoots specifier isExternal) :
    isExternal = false ∧
      (specifier = ⟨"app:a"⟩ ∨ specifier = ⟨"app:q"⟩ ∨ specifier = ⟨"app:d"⟩) := by
  have listed := reached_listed forkModules (by decide) (fun _ used => closed_fork (forks _ used)) reached
  simpa [forkModules] using listed

set_option maxRecDepth 20000 in
theorem coherent_fork : Coherent known forkRoots :=
  coherent_listed forkModules (by decide) (fun _ used => closed_fork (forks _ used))
    (by decide +kernel) (fun _ _ _ used => load_fork (forks _ used)) fun _ _ used used' =>
      ⟨(forks _ used).resolver.trans (forks _ used').resolver.symm,
        (forks _ used).transpiler.trans (forks _ used').transpiler.symm⟩

end Known

def IsForkVersion (version : Toolchain) : Prop := version = grownFork ∨ version ∈ [fork]

theorem isFork_of_version (version : Toolchain) (is : IsForkVersion version) : IsFork version := by
  rcases is with rfl | member
  · exact isFork_grownFork
  · exact List.mem_singleton.1 member ▸ isFork_fork

/-- What becomes of the fork while its third module has no source. -/
theorem compileAll_fork :
    let before := (({} : Workspace).compileAll fork forkRoots).2
    Tracks IsForkVersion (Reached IsForkVersion forkRoots · false)
        (Reached IsForkVersion forkRoots · true) (fun _ => False) fork before ∧
      (∀ root ∈ forkRoots, ∃ record, before.graph.get? root = some record) ∧
      (∃ reason, before.graph.get? ⟨"app:d"⟩ =
        some ((ModuleRecord.awaiting ⟨"app:d"⟩).failed reason)) ∧
      before.store.keepsText = false := by
  have scope := (coherent_fork isFork_of_version).scope
  have used : IsForkVersion fork := .inr (List.mem_singleton_self _)
  have blank : ({} : Workspace).IsBlank := ⟨rfl, rfl, rfl, rfl⟩
  have run := compileAll_ok scope blank.sound used blank.givesBack fun root member => .root member
  generalize ({} : Workspace).compileAll fork forkRoots = result at run ⊢
  obtain ⟨report, before⟩ := result
  obtain ⟨touched, errors, compiled, reaches, -⟩ := run
  have roots (root : Specifier) (member : root ∈ forkRoots) : root ∈ touched :=
    reaches.done _ (List.mem_map.2 ⟨root, member, rfl⟩)
  refine ⟨.of_fresh blank.get? compiled scope blank.sound used,
    fun root member => compiled.get?_of_mem (roots root member), ?_, compiled.setup.keepsText⟩
  have view : fork.view? ⟨"app:a"⟩ = some ([], [⟨"app:d"⟩]) := by decide
  have cites := cites_of_view view (List.mem_singleton_self _)
    (Reached IsForkVersion forkRoots · false) (.root List.mem_cons_self)
  have member := reaches.onward rfl _ (roots _ List.mem_cons_self)
    (.inl fun _ found => absurd found blank.not_found) _ cites
  have missing : fork.view? ⟨"app:d"⟩ = none := by decide
  cases compiled.fresh blank.get? member with
  | left isLeaf => cases (reached_fork isFork_of_version isLeaf).1
  | failed _ _ found => exact ⟨_, found⟩
  | built _ is => simp [Toolchain.view?, is] at missing

/-- Before the third module gets a source, all is consistent, and the second has the hash of its own source.
-/
theorem consistent_fork :
    let before := (({} : Workspace).compileAll fork forkRoots).2
    (∀ specifier record, before.graph.get? specifier = some record → record.isReady → record.folds →
      Consistent before.graph before.store record) ∧
    ∃ record, before.graph.get? ⟨"app:q"⟩ = some record ∧ record.isReady ∧
      before.graph.foldView? ⟨"app:q"⟩ = some (sourceHash [], [⟨"app:d"⟩]) ∧
      record.contentHash = sourceHash [] := by
  have scope := (coherent_fork isFork_of_version).scope
  have run := compileAll_fork
  generalize ({} : Workspace).compileAll fork forkRoots = result at run ⊢
  obtain ⟨report, before⟩ := result
  obtain ⟨tracks, there, ⟨reason, failed⟩, -⟩ := run
  have consistent (specifier : Specifier) (record : ModuleRecord)
      (found : before.graph.get? specifier = some record) (ready : record.isReady)
      (folds : record.folds) : Consistent before.graph before.store record :=
    (tracks.consistent specifier record found ready folds).resolve_right
      (by rintro ⟨_, dirty, -⟩; exact dirty)
  refine ⟨consistent, ?_⟩
  have member : (⟨"app:q"⟩ : Specifier) ∈ forkRoots := by decide
  obtain ⟨record, found⟩ := there ⟨"app:q"⟩ member
  have seen : fork.view? ⟨"app:q"⟩ = some ([], [⟨"app:d"⟩]) := by decide
  obtain ⟨image, is, bytes, targets⟩ := Toolchain.exists_image seen
  have done := tracks.isCompiled scope (.inr (List.mem_singleton_self _)) (.root member) not_false found is
  have ready : record.isReady := by simp [ModuleRecord.isReady, done.ready]
  have view := done.describes.foldView? found
  rw [Image.source, bytes, targets] at view
  have absent : before.graph.foldView? ⟨"app:d"⟩ = none := by
    simp [ModuleGraph.foldView?, failed, ModuleRecord.failed, ModuleRecord.awaiting, ModuleRecord.folds]
  have hashed := (consistent _ record found ready done.describes.folds).hashed
  obtain named := tracks.sound.indexed.keyed found
  rw [named, contentHash?_over_absent view absent, Option.some.injEq] at hashed
  exact ⟨record, found, ready, view, hashed.symm⟩

theorem target_fork {version : Toolchain} (is : IsForkVersion version) {specifier : Specifier}
    (reached : Reached IsForkVersion forkRoots specifier false) {image : Image}
    (compiled : version.image? specifier = .ok image) {edge : DependencyEdge}
    (inside : edge ∈ image.edges) : edge.target = ⟨"app:d"⟩ := by
  have fork := isFork_of_version version is
  obtain ⟨item, listed, same⟩ := image.mem_edges inside
  rw [← Toolchain.resolutions_of_image? compiled] at listed
  have listed' : item.2 ∈ (version.resolutions specifier).map Prod.snd :=
    List.mem_map.2 ⟨item, listed, rfl⟩
  rcases (reached_fork isFork_of_version reached).2 with rfl | rfl | rfl
  · rw [fork.first, List.mem_singleton] at listed'
    rw [← same, listed']
  · rw [fork.second, List.mem_singleton] at listed'
    rw [← same, listed']
  · rw [fork.third] at listed
    cases listed

theorem imports_fork {workspace : Workspace}
    (sound : Sound IsForkVersion (Reached IsForkVersion forkRoots · false)
      (Reached IsForkVersion forkRoots · true) workspace) {importer target : Specifier}
    (imports : workspace.graph.Imports importer target) : target = ⟨"app:d"⟩ := by
  obtain ⟨record, image, found, own, ⟨version, is, compiled⟩, done⟩ := sound.of_imports imports
  obtain ⟨edge, inside, rfl⟩ := imports
  rw [dependencies_of_get? found, done.describes.edges] at inside
  exact target_fork is own compiled inside

/-- Once the third module has a source and the first is followed, the second imports a module that content
hashes see. -/
theorem sourceChanged_fork :
    let before := (({} : Workspace).compileAll fork forkRoots).2
    let after := (before.sourceChanged grownFork ⟨"app:a"⟩).2
    after.graph.get? ⟨"app:q"⟩ = before.graph.get? ⟨"app:q"⟩ ∧
      after.graph.foldView? ⟨"app:d"⟩ = some (sourceHash [], []) := by
  have scope := (coherent_fork isFork_of_version).scope
  have run := compileAll_fork
  generalize ({} : Workspace).compileAll fork forkRoots = result at run ⊢
  obtain ⟨report, before⟩ := result
  obtain ⟨tracks, there, ⟨reason, failed⟩, keepsText⟩ := run
  obtain ⟨first, found⟩ := there ⟨"app:a"⟩ List.mem_cons_self
  dsimp only at tracks there failed keepsText found ⊢
  have used : IsForkVersion grownFork := .inl rfl
  have sourced : grownFork.sources.get? ⟨"app:a"⟩ ≠ none := by decide
  rcases sourceChanged_ok scope tracks.sound (fun kept => by simp [keepsText] at kept) used
    ⟨"app:a"⟩ with ⟨absent, -⟩ |
    ⟨touched, errors, passed, middle, compiled, reaches, -, ⟨rfl, -⟩ | ⟨-, -, missing, -⟩, same⟩
  · cases absent.symm.trans found
  · have sound := compiled.sound scope tracks.sound used
    obtain ⟨-, steps, -⟩ := propagate_ok scope sound ⟨"app:a"⟩
    have third : middle.graph.foldView? ⟨"app:d"⟩ = some (sourceHash [], []) := by
      have view : grownFork.view? ⟨"app:a"⟩ = some ([], [⟨"app:d"⟩]) := by decide
      have cites := cites_of_view view (List.mem_singleton_self _)
        (Reached IsForkVersion forkRoots · false) (.root List.mem_cons_self)
      have first := reaches.done (⟨"app:a"⟩, true) List.mem_cons_self
      have member := reaches.onward rfl _ first (.inr ⟨[], rfl⟩) _ cites
      have view' : grownFork.view? ⟨"app:d"⟩ = some ([], []) := by decide
      obtain ⟨image, is, bytes, targets⟩ := Toolchain.exists_image view'
      cases compiled.inside _ member with
      | left isLeaf => cases (reached_fork isFork_of_version isLeaf).1
      | kept _ was ready =>
        obtain rfl := Option.some.inj (failed.symm.trans was)
        cases ready
      | restamped _ was ready =>
        obtain rfl := Option.some.inj (failed.symm.trans was)
        cases ready
      | redone redone =>
        cases redone with
        | failed _ fails => cases is.symm.trans fails
        | built _ is' _ finished =>
          obtain rfl := Except.ok.inj (is.symm.trans is')
          rw [finished.describes.foldView? finished.found, Image.source, bytes, targets]
    have untouched : (⟨"app:q"⟩ : Specifier) ∉ touched := by
      intro member
      obtain ⟨item, listed, leads⟩ := reaches.cited _ member
      obtain rfl := List.mem_singleton.1 listed
      rcases ReflTransGen.cases_tail leads with same | ⟨importer, -, own, image, is, edge, inside, target⟩
      · exact absurd same (by decide)
      · exact absurd ((target_fork used own is inside).symm.trans target) (by decide)
    have apart : (⟨"app:q"⟩ : Specifier) ∉ affected middle.graph ⟨"app:a"⟩ := by
      intro member
      obtain ⟨-, above, -⟩ := (mem_affected sound.indexed).1 member
      obtain ⟨importer, -, imports⟩ := TransGen.tail'_iff.1 above
      exact absurd (imports_fork sound imports) (by decide)
    obtain ⟨second, found'⟩ := there ⟨"app:q"⟩ (by decide)
    rw [same]
    refine ⟨(steps.get?_other apart).trans ?_, (steps.revises.foldView? _).trans third⟩
    exact ((compiled.outside _ untouched).1.get?_of_get? found').trans found'.symm
  · exact absurd missing sourced

/-- The second module of the fork may be stale once the first is followed. -/
theorem sourceChanged_current_or_above_revived_fork :
    let before := ({} : Workspace).performAll [(fork, .compile forkRoots {})]
    let after := (before.sourceChanged grownFork ⟨"app:a"⟩).2
    ∃ record, after.graph.get? ⟨"app:q"⟩ = some record ∧ record.isReady ∧
      (after.graph.isCurrent record = true ∨
        ∃ other, other ≠ ⟨"app:a"⟩ ∧ Revived grownFork before after other ∧
          TransGen after.graph.Imports ⟨"app:q"⟩ other) := by
  intro before after
  obtain ⟨consistent, record, found, ready, -⟩ := consistent_fork
  obtain ⟨kept, -⟩ := sourceChanged_fork
  exact ⟨record, kept.trans found, ready,
    sourceChanged_current_or_above_revived [(fork, .compile forkRoots {})] grownFork ⟨"app:a"⟩ {}
      ⟨rfl, rfl, rfl, rfl⟩ (coherent_fork isFork_of_version) nofun consistent ⟨"app:q"⟩ record
      (kept.trans found) ready⟩

/-- Following one importer of a module that got a source leaves the other one ready and stale. -/
theorem sourceChanged_leaves_stale_importer :
    let before := (({} : Workspace).compileAll fork forkRoots).2
    let after := (before.sourceChanged grownFork ⟨"app:a"⟩).2
    (∀ specifier record, before.graph.get? specifier = some record → record.isReady →
      before.graph.isCurrent record = true) ∧
    ∃ record, after.graph.get? ⟨"app:q"⟩ = some record ∧ record.isReady ∧
      after.graph.isCurrent record = false := by
  intro before after
  obtain ⟨consistent, record, found, ready, view, hash⟩ := consistent_fork
  obtain ⟨tracks, -⟩ := compileAll_fork
  obtain ⟨kept, third⟩ := sourceChanged_fork
  refine ⟨fun specifier other there isReady => ?_, record, kept.trans found, ready, ?_⟩
  · rcases tracks.sound.folds_or_isCurrent there isReady with folds | current
    · exact (consistent specifier other there isReady folds).isCurrent
    · exact current
  · have view' : after.graph.foldView? ⟨"app:q"⟩ = some (sourceHash [], [⟨"app:d"⟩]) :=
      (foldView?_congr kept).trans view
    have hashed := contentHash?_over_leaf view' third (by decide)
    have named := tracks.sound.indexed.keyed found
    have differ : foldHashes (sourceHash []) [sourceHash []] ≠ sourceHash [] := by decide +kernel
    rw [ModuleGraph.isCurrent, named, hashed, Option.getD_some, hash]
    exact beq_false_of_ne differ

end Fork

end ModuleBuild
