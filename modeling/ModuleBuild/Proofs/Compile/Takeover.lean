import ModuleBuild.Proofs.Compile.Calls
/-!
Earlier output is taken over by the bytes of a source alone. A source whose declared kind changes while its
bytes stay is not compiled again.
-/

namespace ModuleBuild

open ModuleGraph Workspace ArtifactStore

namespace Pass

/-- Where earlier output can be taken over, nothing of a source counts but its bytes. -/
theorem build_taken {tools : Toolchain} {record : ModuleRecord} {loaded : Source}
    (load : tools.sources.load record.specifier = .ok loaded) (supported : loaded.kind.isSupported)
    {pass : Pass} {restored : Restored} {store : ArtifactStore}
    (taken : restore? pass.workspace.store record (sourceHash loaded.bytes) =
      (.ok (some restored), store)) :
    pass.build tools record =
      let (after, targets) := (({ pass with loads := record.specifier :: pass.loads } : Pass).setStore
        store).reuse record.specifier (sourceHash loaded.bytes) restored
      (.ok targets, after) := by
  simp only [build, load, supported, taken, Bool.not_true, Bool.false_eq_true, if_false]

theorem visitAll_single {tools : Toolchain} {options : CompileOptions} {pass after : Pass}
    {specifier : Specifier} {isForced : Bool}
    (visit : pass.visit tools options specifier isForced = (after, [])) :
    visitAll tools options [] pass [(specifier, isForced)] = (after, [specifier]) := by
  rw [visitAll]
  simp only [List.not_mem_nil, dif_neg, not_false_eq_true, visit]
  split
  · rw [visitAll]
    rfl
  · rw [List.map_nil, List.nil_append, visitAll]
    rfl

/-- Two toolchains that give a module the same bytes and may have declared its kind differently. -/
structure Recast (one two : Toolchain) (specifier : Specifier) (bytes : Bytes) : Prop where
  first : ∃ kind : SourceKind, kind.isSupported ∧
    one.sources.load specifier = .ok { bytes, kind }
  second : ∃ kind : SourceKind, kind.isSupported ∧
    two.sources.load specifier = .ok { bytes, kind }

variable {one two : Toolchain} {specifier : Specifier} {bytes : Bytes}

/-- A single module without imports whose earlier output is taken over is compiled alike. -/
theorem compileAll_recast (recast : Recast one two specifier bytes) {workspace : Workspace}
    {record : ModuleRecord}
    (located : record = (workspace.graph.get? specifier).getD (.awaiting specifier))
    (named : record.specifier = specifier) {restored : Restored} {store : ArtifactStore}
    (taken : restore? workspace.store record (sourceHash bytes) = (.ok (some restored), store))
    (bare : restored.dependencies = []) (options : CompileOptions) :
    workspace.compileAll two [specifier] options = workspace.compileAll one [specifier] options := by
  obtain ⟨kind, supported, load⟩ := recast.first
  obtain ⟨kind', supported', load'⟩ := recast.second
  obtain ⟨claimed, claims⟩ : ∃ claimed,
      ({ workspace } : Pass).setGraph (workspace.graph.mention specifier) = claimed := ⟨_, rfl⟩
  have taken' : restore? claimed.workspace.store record (sourceHash bytes) =
      (.ok (some restored), store) := by
    rw [← taken, ← claims]
    rfl
  have targets : distinctTargets restored.dependencies = [] := by rw [bare]; rfl
  rw [← named] at load load'
  have builds := build_taken load supported taken'
  have builds' := build_taken load' supported' taken'
  simp only [reuse, targets] at builds builds'
  have visits (tools : Toolchain) {after : Pass} (build : claimed.build tools record = (.ok [], after)) :
      visit tools options { workspace } specifier options.forceRefresh =
        (if record.isExternal || (record.isReady && !options.forceRefresh) then claimed else after,
          []) := by
    rw [visit, claim_eq, ← located, claims]
    by_cases kept : (record.isExternal || (record.isReady && !options.forceRefresh)) = true
    · simp only [kept, if_true]
    · simp only [kept, compileOrFail, build, Bool.false_eq_true, if_false, ite_self]
  simp only [compileAll, List.map_cons, List.map_nil]
  rw [visitAll_single (visits two builds'), visitAll_single (visits one builds)]

/-- Following a source whose bytes did not change does nothing that its new kind would have part in. -/
theorem sourceChanged_recast (recast : Recast one two specifier bytes) {workspace : Workspace}
    (inOrder : workspace.store.faults = .empty) {record : ModuleRecord}
    (found : workspace.graph.get? specifier = some record) (named : record.specifier = specifier)
    (ready : record.state = .ready) (source : record.sourceHash = sourceHash bytes)
    (bare : record.dependencies = []) {output : OutputReference} {code : Bytes}
    (output? : record.output? = some output)
    (stored : workspace.store.blobs.get? output.key = some code) :
    workspace.sourceChanged two specifier = workspace.sourceChanged one specifier := by
  obtain ⟨store, there, -⟩ := contains_ok inOrder output.key
  have taken : restore? workspace.store record (sourceHash bytes) =
      (.ok (some
        { kind? := record.kind?
          dependencies := record.dependencies
          flags := record.flags
          output? := record.output? }), store) := by
    simp [restore?, output?, source, ModuleRecord.error?, ready, there, OrderedMap.contains, stored]
  unfold sourceChanged
  rw [compileAll_recast recast (by rw [found, Option.getD_some]) named taken bare]

end Pass

end ModuleBuild
