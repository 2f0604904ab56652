import ModuleBuild.Proofs.Compile.Service
/-!
Building one module of a serviceable workspace, from any source or from earlier output. In the end it has
code with room for the tokens of its imports, or nothing was done.
-/

namespace ModuleBuild

open ModuleGraph Workspace ArtifactStore Pass Relation

variable {modules leaf : Specifier → Prop}

/-! ## Earlier output -/

structure RestoredFits (modules leaf : Specifier → Prop) (specifier : Specifier) (workspace : Workspace)
    (restored : Restored) : Prop where
  owned : OwnsOutput specifier restored.output?
  code : ∃ output code, restored.output? = some output ∧
    workspace.store.blobs.get? output.key = some code ∧ SlotsFit restored.dependencies code.length
  targets : ∀ edge ∈ restored.dependencies, modules edge.target ∨ leaf edge.target ∧
    (edge.target ∈ restored.externals ∨ ∃ other, workspace.graph.get? edge.target = some other)
  leaves : ∀ target ∈ restored.externals, leaf target

section Restore

variable {backlog : Backlog} {workspace : Workspace} {specifier : Specifier}
  (serviceable : Serviceable modules leaf backlog workspace)
  (givesBack : GivesBack modules workspace.store) (own : modules specifier)

include serviceable givesBack own

theorem restoredFits_offer? (source : String) :
    ∃ restored?, offer? workspace.store specifier source = .ok restored? ∧
      ∀ restored, restored? = some restored → RestoredFits modules leaf specifier workspace restored := by
  obtain ⟨restored?, offered, given⟩ := offer?_eq_ok givesBack own source
  refine ⟨restored?, offered, fun restored taken => ?_⟩
  obtain ⟨sidecar, found, -, rfl⟩ := given restored taken
  have fits := serviceable.sidecar own found
  obtain ⟨output, hash, code, output?, key, stored, fit⟩ := fits.code
  refine ⟨fun other same => ⟨hash, ?_⟩, ⟨output, code, output?, stored, fit⟩,
    fun edge member => (fits.targets edge member).imp_right (.imp_right .inl), fits.leaves⟩
  obtain rfl := Option.some.inj (output?.symm.trans same)
  exact key

theorem restore?_fits {record : ModuleRecord} (found : workspace.graph.get? specifier = some record)
    (unstaged : (backlog specifier).join = none) (source : String) :
    ∃ restored? after, restore? workspace.store record source = (.ok restored?, after) ∧
      SameContents workspace.store after ∧
      ∀ restored, restored? = some restored → RestoredFits modules leaf specifier workspace restored := by
  obtain rfl := serviceable.indexed.keyed found
  obtain ⟨result, after, restores, contents, kept⟩ := restore?_eq serviceable.inOrder record source
  rcases kept with ⟨⟨-, -, output, output?, -⟩, rfl⟩ | ⟨-, rfl⟩
  · refine ⟨_, after, restores, contents, ?_⟩
    rintro _ ⟨⟩
    cases serviceable.record found with
    | bare _ bare =>
      rcases bare with blank | failed
      · rw [blank] at output?
        cases output?
      · cases output?.symm.trans failed.output
    | serves serves =>
      cases serves with
      | left _ left =>
        obtain ⟨_, left⟩ := left
        rw [left] at output?
        cases output?
      | held _ held =>
        obtain ⟨code, staged | ⟨-, has⟩, fit⟩ := held.code
        · cases unstaged.symm.trans staged
        · obtain ⟨output', hash, own', key, stored⟩ := has
          exact ⟨held.owned, ⟨output', code, own', stored, fit⟩,
            fun edge member => (held.targets edge member).imp_right (.imp_right .inr), nofun⟩
  · obtain ⟨restored?, offered, fits⟩ := restoredFits_offer? serviceable givesBack own source
    exact ⟨restored?, after, offered ▸ restores, contents, fits⟩

end Restore

namespace Pass

/-! ## Building one module -/

structure BuildsAnew (modules leaf : Specifier → Prop) (before after : Pass) (specifier : Specifier)
    (targets : List Specifier) : Prop where
  changes : ChangesOne modules leaf specifier before.workspace after.workspace
  contents : SameContents before.workspace.store after.workspace.store
  staged : ∀ other, other ≠ specifier → after.staged.get? other = before.staged.get? other
  errors : after.errors = before.errors
  hash : after.workspace.graph.storedHash specifier = before.workspace.graph.storedHash specifier
  held : ∃ record, after.workspace.graph.get? specifier = some record ∧
    Held modules leaf after.workspace (after.staged.get? specifier) record
  targets : ∀ target ∈ targets, MayClaim modules leaf after target

theorem BuildsAnew.of_alike {first second after : Pass} {specifier : Specifier} {targets : List Specifier}
    (alike : Alike first second) (builds : BuildsAnew modules leaf second after specifier targets) :
    BuildsAnew modules leaf first after specifier targets where
  changes :=
    { builds.changes with
      setup := alike.keeps.contents.setup.trans builds.changes.setup
      others := alike.graph ▸ builds.changes.others
      adds := alike.graph ▸ builds.changes.adds
      sameOwn := fun other own differ =>
        (alike.keeps.contents.sameOwn other).trans (builds.changes.sameOwn other own differ)
      present := alike.graph ▸ builds.changes.present }
  contents := alike.keeps.contents.trans builds.contents
  staged := alike.staged ▸ builds.staged
  errors := builds.errors.trans alike.errors
  hash := alike.graph ▸ builds.hash
  held := builds.held
  targets := builds.targets

inductive BuildOutcome (modules leaf : Specifier → Prop) (before : Pass) (specifier : Specifier) :
    Except ModuleError (List Specifier) × Pass → Prop
  | fails {error : ModuleError} {after : Pass} (fails : BuildFails leaf before after) :
    BuildOutcome modules leaf before specifier (.error error, after)
  | builds {targets : List Specifier} {after : Pass}
      (builds : BuildsAnew modules leaf before after specifier targets) :
    BuildOutcome modules leaf before specifier (.ok targets, after)

theorem BuildOutcome.of_alike {first second : Pass} {specifier : Specifier}
    {outcome : Except ModuleError (List Specifier) × Pass} (alike : Alike first second)
    (result : BuildOutcome modules leaf second specifier outcome) :
    BuildOutcome modules leaf first specifier outcome := by
  cases result with
  | fails fails => exact .fails (fails.of_alike alike)
  | builds builds => exact .builds (builds.of_alike alike)

section Install

variable {pass : Pass} {record : ModuleRecord} (classed : pass.workspace.graph.Classed leaf)
  (indexed : pass.workspace.graph.Indexed)
  (found : pass.workspace.graph.get? record.specifier = some record) (own : modules record.specifier)

include classed indexed found own

/-- A module gets a record with new imports, between those of its imports that are left alone and all others.
-/
theorem changesOne_install (apart : ∀ {specifier}, modules specifier → ¬ leaf specifier)
    {edges : List DependencyEdge} {externals : List Specifier}
    (targets : ∀ edge ∈ edges, modules edge.target ∨ leaf edge.target ∧
      (edge.target ∈ externals ∨ ∃ other, pass.workspace.graph.get? edge.target = some other))
    (leaves : ∀ target ∈ externals, leaf target) {change : ModuleRecord → ModuleRecord}
    (named : ∀ record, (change record).specifier = record.specifier) :
    let graph := ((externals.foldl mentionExternal pass.workspace.graph).modify record.specifier
      change).mentionAll (distinctTargets edges)
    ChangesOne modules leaf record.specifier pass.workspace { pass.workspace with graph } ∧
      graph.get? record.specifier = some (change record) ∧
      ∀ edge ∈ edges, modules edge.target ∨ leaf edge.target ∧
        ∃ other, graph.get? edge.target = some other := by
  have targets' : ∀ target ∈ distinctTargets edges, ¬ leaf target ∨ target ∈ externals ∨
      ∃ other, pass.workspace.graph.get? target = some other := by
    intro target member
    obtain ⟨edge, inside, rfl⟩ := (mem_distinctTargets _ _).1 member
    exact (targets edge inside).imp apart And.right
  obtain ⟨indexed', installed, others, present⟩ := install_ok classed indexed found leaves named targets'
  refine ⟨⟨.refl _, indexed', others, (addsOnly_install _ _ _ _ _).mono ?_, fun other _ _ => .refl _ other,
    fun isLeaf => absurd isLeaf (apart own)⟩, installed, fun edge member => ?_⟩
  · rintro other (external | target)
    · exact .inr (leaves other external)
    · obtain ⟨edge, inside, rfl⟩ := (mem_distinctTargets _ _).1 target
      exact (targets edge inside).imp_right And.left
  · exact (targets edge member).imp_right fun ⟨isLeaf, _⟩ =>
      ⟨isLeaf, present _ ((mem_distinctTargets _ _).2 ⟨edge, member, rfl⟩)⟩

variable {tools : Toolchain} (scope : Scope (· = tools) modules leaf)

include scope

theorem buildsAnew_stage {image : Image} (compiled : tools.image? record.specifier = .ok image)
    (owned : OwnsOutput record.specifier record.output?) :
    BuildsAnew modules leaf pass (pass.stage record.specifier image) record.specifier
      (distinctTargets image.edges) := by
  have known : KnownImage (· = tools) record.specifier image := ⟨tools, rfl, compiled⟩
  obtain ⟨changes, installed, targets⟩ := changesOne_install classed indexed found own scope.apart
    (fun edge member => (scope.target own known member).imp_right (.imp_right .inl))
    (fun target member => scope.leaf_of_mem_externals own known member)
    (fun _ => rfl : ∀ record, (prepare image record).specifier = record.specifier)
  refine ⟨changes, .refl _, fun other differ => ?_, rfl, ?_, ⟨prepare image record, installed, ?_⟩, ?_⟩
  · exact (OrderedMap.get?_insert _ _ _ _).trans (if_neg (Ne.symm differ))
  · exact (storedHash_of_get? installed).trans (storedHash_of_get? found).symm
  · exact
      { compiled := (classed.isExternal_eq_false (scope.apart own) found :)
        token := image.hasToken_source
        owned
        code := ⟨image.artifact, .inl ((OrderedMap.get?_insert _ _ _ _).trans (if_pos rfl)), image.fit⟩
        targets }
  · intro target member
    obtain ⟨edge, inside, rfl⟩ := (mem_distinctTargets _ _).1 member
    exact targets edge inside

theorem buildsAnew_reuse {restored : Restored}
    (fits : RestoredFits modules leaf record.specifier pass.workspace restored)
    (fresh : pass.staged.get? record.specifier = none) (bytes : Bytes) :
    BuildsAnew modules leaf pass (pass.reuse record.specifier (sourceHash bytes) restored).1 record.specifier
      (distinctTargets restored.dependencies) := by
  obtain ⟨changes, installed, targets⟩ := changesOne_install classed indexed found own scope.apart
    fits.targets fits.leaves
    (fun _ => rfl : ∀ record : ModuleRecord,
      { record with
        kind? := restored.kind?
        sourceHash := sourceHash bytes
        dependencies := restored.dependencies
        flags := restored.flags
        output? := restored.output?
        state := .pending }.specifier = record.specifier)
  obtain ⟨output, code, output?, stored, fit⟩ := fits.code
  obtain ⟨hash, key⟩ := fits.owned output output?
  refine ⟨changes, .refl _, fun _ _ => rfl, rfl, ?_, ⟨_, installed, ?_⟩, fun target member => ?_⟩
  · exact (storedHash_of_get? installed).trans (storedHash_of_get? found).symm
  · exact
      { compiled := (classed.isExternal_eq_false (scope.apart own) found :)
        token := hasToken_hex bytes
        owned := fits.owned
        code := ⟨code, .inr ⟨fresh, output, hash, output?, key, stored⟩, fit⟩
        targets }
  · obtain ⟨edge, inside, rfl⟩ := (mem_distinctTargets _ _).1 member
    exact targets edge inside

theorem compileOutput_anew {loaded : Source} {output : Transpiled}
    (transpiled : tools.transpiled? record.specifier = .ok (loaded, output))
    (owned : OwnsOutput record.specifier record.output?) :
    BuildOutcome modules leaf pass record.specifier
      (pass.compileOutput tools.resolver record.specifier (sourceHash loaded.bytes) loaded.kind output) := by
  cases compiled : tools.image? record.specifier with
  | error error =>
    rw [compileOutput_error transpiled compiled]
    have leaves : ∀ target ∈ externalsOf (tools.resolutions record.specifier), leaf target :=
      fun _ => scope.leaf_of_mem_externalsOf rfl own
    obtain ⟨grows, indexed', -⟩ := foldl_mentionExternal classed indexed _ leaves
    exact .fails ⟨⟨.refl _, rfl⟩, indexed', grows,
      (addsOnly_foldl addsOnly_mentionExternal _ _).mono leaves, rfl, rfl⟩
  | ok image =>
    rw [compileOutput_ok transpiled compiled]
    exact .builds (buildsAnew_stage classed indexed found own scope compiled owned)

end Install

section Build

variable {pass : Pass} {backlog : Backlog} {tools : Toolchain} (scope : Scope (· = tools) modules leaf)
  (serviceable : Serviceable modules leaf backlog pass.workspace)

include scope serviceable

/-- A module is built from its source or from earlier output, or it fails and nothing is done. -/
theorem build_anew (givesBack : GivesBack modules pass.workspace.store) {record : ModuleRecord}
    (found : pass.workspace.graph.get? record.specifier = some record) (own : modules record.specifier)
    (idle : backlog record.specifier = none) (fresh : pass.staged.get? record.specifier = none) :
    BuildOutcome modules leaf pass record.specifier (pass.build tools record) := by
  have classed := serviceable.classed scope.apart
  have indexed := serviceable.indexed
  have fails {error : ModuleError} {after : Pass} (alike : Alike pass after) :
      BuildOutcome modules leaf pass record.specifier (.error error, after) := .fails (alike.fails indexed)
  have taken (source : Bytes) := restore?_fits serviceable givesBack own found (by rw [idle]; rfl)
    (sourceHash source)
  have run := buildRun tools pass record
  generalize pass.build tools record = result at run ⊢
  cases run with
  | unloaded => exact fails (alike_loading (.refl _) _)
  | @unread loaded _ _ _ _ asked =>
    obtain ⟨restored?, store, given, -⟩ := taken loaded.bytes
    cases asked.symm.trans given
  | @restored loaded earlier store _ _ asked =>
    obtain ⟨restored?, store', given, contents, fits⟩ := taken loaded.bytes
    cases asked.symm.trans given
    have given := fits earlier rfl
    obtain ⟨output, code, output?, stored, fit⟩ := given.code
    have given' : RestoredFits modules leaf record.specifier
        (pass.loading record.specifier store).workspace earlier :=
      { given with code := ⟨output, code, output?, contents.blobs.symm ▸ stored, fit⟩ }
    exact .of_alike (alike_loading contents _) (.builds (@buildsAnew_reuse _ _
      (pass.loading record.specifier store) record classed indexed found own tools scope earlier given'
      fresh loaded.bytes))
  | @untranspiled loaded _ store _ _ _ asked _ counted =>
    obtain ⟨restored?, store', given, contents, -⟩ := taken loaded.bytes
    cases asked.symm.trans given
    rcases counted with rfl | rfl
    · exact fails (alike_loading contents _)
    · exact fails (alike_calling contents _)
  | @transpiled loaded output store _ _ asked transpiled =>
    obtain ⟨restored?, store', given, contents, -⟩ := taken loaded.bytes
    cases asked.symm.trans given
    exact .of_alike (alike_calling contents _) (@compileOutput_anew _ _
      (pass.calling record.specifier store) record classed indexed found own tools scope loaded output
      transpiled ((serviceable.record found).owned rfl))

end Build

end Pass

end ModuleBuild
