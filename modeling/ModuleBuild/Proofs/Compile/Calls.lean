import ModuleBuild.Proofs.Compile.Upkeep
/-!
The calls that a compiler offers. Each is a pass, followed by repairs; following a changed source repairs
the importers of the module once, whether its hash changed or not.
-/

namespace ModuleBuild

open ModuleGraph Workspace ArtifactStore Pass Relation Toolchain

theorem Toolchain.sources_of_isNotFound {tools : Toolchain} {specifier : Specifier}
    {error : ModuleError} (fails : tools.image? specifier = .error error)
    (gone : error.isNotFound = true) : tools.sources.get? specifier = none := by
  cases transpiled : tools.transpiled? specifier with
  | ok result =>
    simp only [image?, transpiled] at fails
    split at fails
    · obtain rfl := Except.error.inj fails
      cases gone
    · cases fails
  | error cause =>
    simp only [image?, transpiled, Except.error.injEq] at fails
    subst fails
    unfold transpiled? at transpiled
    split at transpiled
    · next failure load =>
      obtain rfl := Except.error.inj transpiled
      unfold SourceTree.load at load
      split at load
      · next absent => exact absent
      · cases load
      · obtain rfl := Except.error.inj load
        cases gone
      · obtain rfl := Except.error.inj load
        cases gone
    · split at transpiled
      · obtain rfl := Except.error.inj transpiled
        cases gone
      · split at transpiled
        · obtain rfl := Except.error.inj transpiled
          cases gone
        · split at transpiled
          · obtain rfl := Except.error.inj transpiled
            cases gone
          · cases transpiled

theorem Toolchain.sources_of_image? {tools : Toolchain} {specifier : Specifier} {image : Image}
    (compiled : tools.image? specifier = .ok image) : tools.sources.get? specifier ≠ none := by
  intro absent
  obtain ⟨loaded, -, load, -⟩ := image?_eq_ok compiled
  simp [SourceTree.load, absent] at load

theorem Toolchain.isNotFound_of_sources {tools : Toolchain} {specifier : Specifier} {error : ModuleError}
    (fails : tools.image? specifier = .error error) (absent : tools.sources.get? specifier = none) :
    error.isNotFound = true := by
  simp only [image?, transpiled?, SourceTree.load, absent, Except.error.injEq] at fails
  rw [← fails]
  rfl

theorem SourceTree.eq_of_load {tree : SourceTree} {specifier : Specifier} {source loaded : Source}
    (only : ∀ entry, tree.get? specifier = some entry → entry = .source source)
    (load : tree.load specifier = .ok loaded) : loaded = source := by
  cases found : tree.get? specifier with
  | none => simp [SourceTree.load, found] at load
  | some entry =>
    obtain rfl := only entry found
    simp only [SourceTree.load, found, Except.ok.injEq] at load
    exact load.symm

def isGone (outcome? : Option (Except ModuleError ModuleRecord)) : Bool :=
  match outcome? with
  | some (.error error) => error.isNotFound
  | _ => false

theorem isGone_of_clear {errors : OrderedMap Specifier ModuleError} {graph : ModuleGraph}
    {specifier : Specifier} (clear : errors.get? specifier = none) :
    isGone (outcome? errors graph specifier) = false := by
  rw [outcome?, clear]
  cases graph.get? specifier <;> rfl

theorem sourceChanged_eq (workspace : Workspace) (tools : Toolchain) (specifier : Specifier) :
    (workspace.sourceChanged tools specifier).2 =
      if (workspace.graph.get? specifier).isNone && (workspace.graph.dependents specifier).isEmpty then
        workspace
      else
        let (report, passed) := workspace.compileAll tools [specifier] { forceRefresh := true }
        let middle :=
          if (workspace.graph.get? specifier).isSome && isGone (report.outcomes.get? specifier) then
            passed.remove specifier
          else passed
        if specifier ∈ report.changed then middle
        else (middle.repairImporters report specifier).2 := by
  unfold sourceChanged
  by_cases ignored : ((workspace.graph.get? specifier).isNone &&
      (workspace.graph.dependents specifier).isEmpty) = true
  · simp only [ignored, if_true]
  · simp only [ignored, Bool.false_eq_true, if_false]
    generalize workspace.compileAll tools [specifier] { forceRefresh := true } = result
    obtain ⟨report, passed⟩ := result
    by_cases changed : specifier ∈ report.changed
    · simp only [changed, if_true]
      rfl
    · simp only [changed, if_false]
      rfl

variable {known : Toolchain → Prop} {modules leaf : Specifier → Prop} {workspace : Workspace}
  {tools : Toolchain} (scope : Scope known modules leaf) (sound : Sound known modules leaf workspace)
  (readable : workspace.store.Readable modules leaf) (used : known tools)

include scope sound readable used

omit readable in
/-- Compiling from some roots, if they need not be refreshed, is a pass. -/
theorem compileAll_ok (givesBack : GivesBack modules workspace.store) {roots : List Specifier}
    (rooted : ∀ root ∈ roots, modules root) :
    let (report, after) := workspace.compileAll tools roots
    ∃ touched errors,
      Compiled known modules leaf (fun _ => False) tools workspace {} touched errors after ∧
      Reaches modules tools workspace {} (roots.map (·, false)) touched ∧
      ReportsOn touched errors after.graph report := by
  have able : Work modules leaf (fun _ => False) workspace (roots.map (·, false)) :=
    .of_roots rooted nofun
  have run := compiled_ok scope sound givesBack used {} able
  simp only [compileAll, Bool.false_eq_true, if_false]
  generalize visitAll tools {} [] { workspace } (roots.map (·, false)) = result at run ⊢
  obtain ⟨pass, touched⟩ := result
  dsimp only at run ⊢
  obtain ⟨compiled, reaches, reports, -⟩ := run
  exact ⟨touched, pass.errors, compiled, reaches, reports⟩

/-- Compiling from some roots is a pass, after which modules are refreshed. -/
theorem compileAll_refreshes {roots : List Specifier} (rooted : ∀ root ∈ roots, modules root)
    (options : CompileOptions) :
    let (_, after) := workspace.compileAll tools roots options
    ∃ touched errors passed,
      Compiled known modules leaf (fun _ => True) tools workspace options touched errors passed ∧
      RefreshSteps modules passed after := by
  have able : Work modules leaf (fun _ => True) workspace (roots.map (·, options.forceRefresh)) :=
    .of_roots rooted fun _ _ _ => trivial
  have run := compiled_ok scope sound (sound.store.givesBack scope readable) used options able
  generalize visited : visitAll tools options [] { workspace } (roots.map (·, options.forceRefresh)) = result
    at run
  obtain ⟨pass, touched⟩ := result
  refine ⟨touched, pass.errors, (pass.settle touched).2, run.1, ?_⟩
  refine @compileAll_induction (fun result => RefreshSteps modules (pass.settle touched).2 result.2) workspace
    tools roots options ?_ fun report middle root steps => ?_
  · rw [visited]
  · have start := (run.1.sound scope sound used).refreshSteps scope steps
    have repaired : (middle.repairImporters report root).2 = (middle.propagate root).2 :=
      (repairImporters_ok scope start report root).1
    rw [repaired]
    exact steps.trans ((propagate_ok scope start root).2.1.mono fun _ => start.module_of_affected)

theorem sound_compileAll {roots : List Specifier} (rooted : ∀ root ∈ roots, modules root)
    (options : CompileOptions) :
    let (_, after) := workspace.compileAll tools roots options
    Sound known modules leaf after ∧ SameSetup workspace.store after.store := by
  have run := compileAll_refreshes scope sound readable used rooted options
  generalize workspace.compileAll tools roots options = result at run ⊢
  obtain ⟨report, after⟩ := result
  obtain ⟨touched, errors, passed, compiled, steps⟩ := run
  exact ⟨(compiled.sound scope sound used).refreshSteps scope steps, compiled.setup.trans steps.setup⟩

omit readable used in
theorem mayCompile_of_used {specifier : Specifier}
    (used : ¬ ((workspace.graph.get? specifier).isNone &&
      (workspace.graph.dependents specifier).isEmpty) = true) :
    modules specifier ∨ leaf specifier ∧ ∃ record, workspace.graph.get? specifier = some record := by
  rcases record_or_importer sound.indexed used with
    ⟨record, found⟩ | ⟨importer, record, there, edge, inside, rfl⟩
  · cases sound.record found with
    | left isLeaf => exact .inr ⟨isLeaf, record, found⟩
    | awaiting own => exact .inl own
    | failed own => exact .inl own
    | compiled own => exact .inl own
  · obtain ⟨own, image, is, compiled⟩ := sound.of_edge there inside
    exact (scope.target own is (compiled.describes.edges ▸ inside)).imp_right fun ⟨isLeaf, _⟩ =>
      ⟨isLeaf, sound.leaves there inside isLeaf⟩

/-- A module that was changed, and whether its importers were repaired with it. -/
theorem compileAll_forced {specifier : Specifier}
    (able : modules specifier ∨
      leaf specifier ∧ ∃ record, workspace.graph.get? specifier = some record) :
    let (report, after) := workspace.compileAll tools [specifier] { forceRefresh := true }
    ∃ touched errors passed,
      Compiled known modules leaf (· = specifier) tools workspace { forceRefresh := true } touched errors
        passed ∧
      Reaches modules tools workspace { forceRefresh := true } [(specifier, true)] touched ∧
      (leaf specifier ∨ Redone modules (· = specifier) tools workspace errors passed specifier) ∧
      report.outcomes.get? specifier = outcome? errors passed.graph specifier ∧
      (specifier ∈ report.changed ∧ errors.get? specifier = none ∧
          after = (passed.propagate specifier).2 ∨
        specifier ∉ report.changed ∧ after = passed) := by
  have run := compiled_ok scope sound (sound.store.givesBack scope readable) used
    { forceRefresh := true } (.single able)
  simp only [compileAll, List.map_cons, List.map_nil, if_true, List.foldl_cons, List.foldl_nil]
  generalize visitAll tools { forceRefresh := true } [] { workspace } [(specifier, true)] = result
    at run ⊢
  obtain ⟨pass, touched⟩ := result
  dsimp only at run ⊢
  generalize pass.settle touched = result at run ⊢
  obtain ⟨report, passed⟩ := result
  obtain ⟨compiled, reaches, reports, anew⟩ := run
  have member := reaches.done (specifier, true) List.mem_cons_self
  have told : report.outcomes.get? specifier = outcome? pass.errors passed.graph specifier := by
    rw [reports.outcomes, if_pos member]
  dsimp only
  split
  · next changed =>
    have repaired := repairImporters_ok scope (compiled.sound scope sound used) report specifier
    generalize passed.repairImporters report specifier = result at repaired ⊢
    obtain ⟨report', after⟩ := result
    obtain ⟨rfl, outcomes, more⟩ := repaired
    exact ⟨touched, pass.errors, passed, compiled, reaches, anew specifier [] rfl, outcomes ▸ told,
      .inl ⟨more specifier changed, reports.changed specifier changed, rfl⟩⟩
  · next unchanged =>
    exact ⟨touched, pass.errors, passed, compiled, reaches, anew specifier [] rfl, told,
      .inr ⟨unchanged, rfl⟩⟩

omit readable used in
theorem gone_ok {options : CompileOptions} {forced : Specifier → Prop} {touched : List Specifier}
    {errors : OrderedMap Specifier ModuleError} {passed : Workspace}
    (compiled : Compiled known modules leaf forced tools workspace options touched errors passed)
    {specifier : Specifier} (member : specifier ∈ touched)
    (gone : isGone (outcome? errors passed.graph specifier) = true) :
    modules specifier ∧ tools.sources.get? specifier = none ∧ ∃ record,
      passed.graph.get? specifier = some record ∧ HasFailed record := by
  have clash (clear : errors.get? specifier = none) : False := by
    rw [isGone_of_clear clear] at gone
    cases gone
  cases compiled.inside specifier member with
  | left _ _ _ _ clear => exact (clash clear).elim
  | kept _ _ _ _ _ clear => exact (clash clear).elim
  | restamped _ _ _ _ _ _ clear => exact (clash clear).elim
  | redone redone =>
    cases redone with
    | built _ _ _ _ _ clear => exact (clash clear).elim
    | failed was fails found _ errors =>
      simp only [isGone, outcome?, errors] at gone
      exact ⟨was.own, sources_of_isNotFound fails gone, _, found, was.hasFailed scope sound _⟩

omit sound readable used in
theorem isGone_of_sources {forced : Specifier → Prop} {errors : OrderedMap Specifier ModuleError}
    {passed : Workspace} {specifier : Specifier} (own : modules specifier)
    (anew : leaf specifier ∨ Redone modules forced tools workspace errors passed specifier)
    (absent : tools.sources.get? specifier = none) :
    isGone (outcome? errors passed.graph specifier) = true := by
  cases anew.resolve_left (scope.apart own) with
  | failed _ fails _ _ errors => simp [isGone, outcome?, errors, isNotFound_of_sources fails absent]
  | built _ is => exact absurd absent (sources_of_image? is)

/-- Following a changed source: nothing happens if no module is known to use it. Else the module is
compiled again, is taken out if its source is gone, and its importers are repaired. -/
theorem sourceChanged_ok (specifier : Specifier) :
    let after := (workspace.sourceChanged tools specifier).2
    (workspace.graph.get? specifier = none ∧ (∀ importer, ¬ workspace.graph.Imports importer specifier) ∧
      after = workspace) ∨
    ∃ touched errors passed middle,
      Compiled known modules leaf (· = specifier) tools workspace { forceRefresh := true } touched errors
        passed ∧
      Reaches modules tools workspace { forceRefresh := true } [(specifier, true)] touched ∧
      (leaf specifier ∨ Redone modules (· = specifier) tools workspace errors passed specifier) ∧
      (middle = passed ∧ (modules specifier → tools.sources.get? specifier = none →
          workspace.graph.get? specifier = none) ∨
        middle = passed.remove specifier ∧ modules specifier ∧
          tools.sources.get? specifier = none ∧ ∃ record,
            passed.graph.get? specifier = some record ∧ HasFailed record) ∧
      after = (middle.propagate specifier).2 := by
  rw [sourceChanged_eq]
  by_cases ignored : ((workspace.graph.get? specifier).isNone &&
      (workspace.graph.dependents specifier).isEmpty) = true
  -- no module is known to use the source
  · rw [if_pos ignored]
    rw [Bool.and_eq_true, Option.isNone_iff_eq_none, List.isEmpty_iff] at ignored
    refine .inl ⟨ignored.1, fun importer imports => ?_, rfl⟩
    rw [← mem_dependents sound.indexed, ignored.2] at imports
    cases imports
  · rw [if_neg ignored]
    have able := mayCompile_of_used scope sound ignored
    have run := compileAll_forced scope sound readable used able
    generalize workspace.compileAll tools [specifier] { forceRefresh := true } = result at run ⊢
    obtain ⟨report, after⟩ := result
    obtain ⟨touched, errors, passed, compiled, reaches, anew, told, result⟩ := run
    have member := reaches.done (specifier, true) List.mem_cons_self
    have start := compiled.sound scope sound used
    have gone := fun own => isGone_of_sources scope own anew
    dsimp only at told result ⊢
    rw [told]
    rcases result with ⟨changed, clear, rfl⟩ | ⟨unchanged, rfl⟩
    -- importers were repaired along with the pass
    · have stays : isGone (outcome? errors passed.graph specifier) = false := isGone_of_clear clear
      rw [stays, Bool.and_false, if_neg Bool.false_ne_true, if_pos changed]
      exact .inr ⟨touched, errors, passed, passed, compiled, reaches, anew,
        .inl ⟨rfl, fun own absent => by simp [gone own absent] at stays⟩, rfl⟩
    · rw [if_neg unchanged]
      by_cases removed : ((workspace.graph.get? specifier).isSome &&
          isGone (outcome? errors after.graph specifier)) = true
      · obtain ⟨own, absent, record, found, failed⟩ :=
          gone_ok scope sound compiled member (Bool.and_eq_true_iff.1 removed).2
        obtain ⟨start', -⟩ := start.remove scope own found failed.output
        rw [if_pos removed]
        exact .inr ⟨touched, errors, after, _, compiled, reaches, anew,
          .inr ⟨rfl, own, absent, record, found, failed⟩,
          (repairImporters_ok scope start' report specifier).1⟩
      · rw [if_neg removed]
        refine .inr ⟨touched, errors, after, after, compiled, reaches, anew, .inl ⟨rfl, fun own absent => ?_⟩,
          (repairImporters_ok scope start report specifier).1⟩
        simpa [gone own absent] using removed

theorem sound_sourceChanged (specifier : Specifier) :
    Sound known modules leaf (workspace.sourceChanged tools specifier).2 ∧
      SameSetup workspace.store (workspace.sourceChanged tools specifier).2.store := by
  rcases sourceChanged_ok scope sound readable used specifier with
    ⟨-, -, same⟩ | ⟨touched, errors, passed, middle, compiled, -, -, middle?, same⟩
  · rw [same]
    exact ⟨sound, .refl _⟩
  · have start := compiled.sound scope sound used
    have kept : Sound known modules leaf middle ∧ SameSetup passed.store middle.store := by
      rcases middle? with ⟨rfl, -⟩ | ⟨rfl, own, -, record, found, failed⟩
      · exact ⟨start, .refl _⟩
      · exact start.remove scope own found failed.output
    obtain ⟨final, setup⟩ := kept.1.propagate scope specifier
    rw [same]
    exact ⟨final, compiled.setup.trans (kept.2.trans setup)⟩

end ModuleBuild
