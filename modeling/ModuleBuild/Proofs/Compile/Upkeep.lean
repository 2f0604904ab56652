import ModuleBuild.Compile.Session
import ModuleBuild.Proofs.Compile.Compiled
/-!
What follows a pass: importers of a changed module are repaired, and a module whose source is gone is taken
out. Both leave a workspace sound.
-/

namespace ModuleBuild

open ModuleGraph Workspace ArtifactStore Pass Relation

/-- What holds once a pass is settled, and is kept where importers are repaired, holds after a compilation. -/
@[elab_as_elim]
theorem Workspace.compileAll_induction {motive : PassReport × Workspace → Prop} (workspace : Workspace)
    (tools : Toolchain) (roots : List Specifier) (options : CompileOptions)
    (settled : let (pass, touched) :=
        Pass.visitAll tools options [] { workspace } (roots.map (·, options.forceRefresh))
      motive (pass.settle touched))
    (repaired : ∀ report middle root, motive (report, middle) →
      motive (middle.repairImporters report root)) :
    motive (workspace.compileAll tools roots options) := by
  simp only [compileAll]
  split
  · refine List.foldlRecOn roots _ settled fun result kept root _ => ?_
    split
    · exact repaired result.1 result.2 root kept
    · exact kept
  · exact settled

variable {known : Toolchain → Prop} {modules leaf : Specifier → Prop} {workspace : Workspace}

theorem IsCompiled.fit {store : ArtifactStore} {image : Image} {record : ModuleRecord}
    (compiled : IsCompiled store image record) :
    ∃ code, HasCode store record code ∧ SlotsFit record.dependencies code.length := by
  obtain ⟨code, stored⟩ := compiled.code
  exact ⟨code, stored.has, compiled.describes.edges ▸ stored.of.fit⟩

namespace Sound

theorem isCompiled (sound : Sound known modules leaf workspace) {specifier : Specifier}
    {record : ModuleRecord} (found : workspace.graph.get? specifier = some record)
    {output : OutputReference} (output? : record.output? = some output) :
    modules specifier ∧ ∃ image, KnownImage known specifier image ∧
      IsCompiled workspace.store image record :=
  (sound.record found).bare_or_compiled.resolve_left fun bare => by cases output?.symm.trans bare.2

theorem of_edge (sound : Sound known modules leaf workspace) {importer : Specifier}
    {record : ModuleRecord} (found : workspace.graph.get? importer = some record)
    {edge : DependencyEdge} (inside : edge ∈ record.dependencies) :
    modules importer ∧ ∃ image, KnownImage known importer image ∧
      IsCompiled workspace.store image record :=
  (sound.record found).bare_or_compiled.resolve_left fun bare => by
    rw [bare.1] at inside
    cases inside

theorem of_imports (sound : Sound known modules leaf workspace) {importer target : Specifier}
    (imports : workspace.graph.Imports importer target) :
    ∃ record image, workspace.graph.get? importer = some record ∧ modules importer ∧
      KnownImage known importer image ∧ IsCompiled workspace.store image record := by
  obtain ⟨record, found⟩ := imports.get?
  obtain ⟨edge, member, -⟩ := imports
  obtain ⟨own, image, known, compiled⟩ := sound.of_edge found (dependencies_of_get? found ▸ member)
  exact ⟨record, image, found, own, known, compiled⟩

theorem of_affected (sound : Sound known modules leaf workspace) {changed other : Specifier}
    (member : other ∈ affected workspace.graph changed) :
    ∃ record image, workspace.graph.get? other = some record ∧ modules other ∧
      KnownImage known other image ∧ IsCompiled workspace.store image record := by
  obtain ⟨-, leads, -⟩ := (mem_affected sound.indexed).1 member
  obtain ⟨next, imports, -⟩ := TransGen.head'_iff.1 leads
  exact sound.of_imports imports

theorem module_of_affected (sound : Sound known modules leaf workspace) {changed other : Specifier}
    (member : other ∈ affected workspace.graph changed) : modules other := by
  obtain ⟨-, -, -, own, -⟩ := sound.of_affected member
  exact own

end Sound

section Repair

variable (scope : Scope known modules leaf)

include scope

theorem Sound.refreshStep {touched : Specifier → Prop} {before after : Workspace}
    (sound : Sound known modules leaf before) (step : RefreshStep touched before after) :
    Sound known modules leaf after := by
  obtain ⟨record, result, hash, code, -, found, folds, has, -, refreshes⟩ := step
  obtain ⟨output, oldHash, output?, key, -⟩ := id has
  obtain ⟨own, image, known, compiled⟩ := sound.isCompiled found output?
  obtain ⟨code', stored⟩ := compiled.code
  obtain rfl := stored.has.eq has
  have owned : OwnsOutput record.specifier record.output? := by
    intro other same
    obtain rfl := Option.some.inj (output?.symm.trans same)
    exact ⟨oldHash, key⟩
  have length := refreshes.length stored.length
  have revises := refreshes.revises found
  obtain ⟨size, updated, -⟩ := refreshes.updated
  have again : IsCompiled after.store image result := by
    obtain ⟨written, output, -⟩ := refreshes.hasOutput compiled.describes stored.of length
    refine ⟨?_, by rw [updated], written, output⟩
    exact ModuleRecord.Revises.describes ⟨_, _, _, _, updated⟩ compiled.describes
  have leaves : ∀ edge ∈ image.edges, leaf edge.target →
      ∃ record, before.graph.get? edge.target = some record := fun edge member =>
    sound.leaves found (compiled.describes.edges ▸ member)
  exact
    { store := refreshes.soundStore scope own owned sound.store known compiled.describes stored.of
        (sound.classed scope) leaves length
      indexed := refreshes.indexed found sound.indexed
      record := fun {specifier other} there => by
        by_cases same : specifier = record.specifier
        · subst same
          obtain rfl := Option.some.inj (refreshes.get?_self.symm.trans there)
          exact .compiled own known again
        · have there' := refreshes.get?_other same ▸ there
          exact (sound.record there').congr (sound.indexed.keyed there') fun ownToo =>
            refreshes.sameOwn scope own owned ownToo same
      leaves := fun {specifier other edge} there member isLeaf => by
        obtain ⟨old, there', revised⟩ := revises.of_get? there
        obtain ⟨target, located⟩ := sound.leaves there' (revised.dependencies ▸ member) isLeaf
        obtain ⟨new, located', -⟩ := revises.get?_of_get? located
        exact ⟨new, located'⟩ }

theorem Sound.refreshSteps {touched : Specifier → Prop} {before after : Workspace}
    (sound : Sound known modules leaf before) (steps : RefreshSteps touched before after) :
    Sound known modules leaf after := by
  induction steps with
  | refl => exact sound
  | tail _ step ih => exact ih.refreshStep scope step

/-- Repairing the importers of a module fails for none of them and leaves all of them consistent. -/
theorem propagate_ok (sound : Sound known modules leaf workspace) (changed : Specifier) :
    let (propagation, after) := workspace.propagate changed
    propagation.failures = [] ∧ RefreshSteps (· ∈ affected workspace.graph changed) workspace after ∧
      ∀ other ∈ affected workspace.graph changed, ∀ record, after.graph.get? other = some record →
        record.folds → Consistent after.graph after.store record := by
  refine refreshAll_ok scope.distinct (affected workspace.graph changed)
    (fun other member => sound.module_of_affected member) workspace {} sound.store.inOrder
    sound.indexed sound.hasTokens fun other member record found _ => ?_
  obtain ⟨record', image, found', -, -, compiled⟩ := sound.of_affected member
  obtain rfl := Option.some.inj (found'.symm.trans found)
  exact compiled.fit

end Repair

theorem Workspace.RefreshSteps.setup {touched : Specifier → Prop} {before after : Workspace}
    (steps : RefreshSteps touched before after) : SameSetup before.store after.store := by
  induction steps with
  | refl => exact .refl _
  | tail _ step same =>
    obtain ⟨record, result, hash, code, -, -, -, -, -, refreshes⟩ := step
    exact same.trans refreshes.setup

theorem Workspace.RefreshSteps.revises {touched : Specifier → Prop} {before after : Workspace}
    (steps : RefreshSteps touched before after) : before.graph.Revises after.graph := by
  induction steps with
  | refl => exact .refl _
  | tail _ step same =>
    obtain ⟨record, result, hash, code, -, found, -, -, -, refreshes⟩ := step
    exact same.trans (refreshes.revises found)

/-- Notes on a propagation without failures change neither the workspace nor outcomes. -/
theorem PassReport.absorb_ok {propagation : Propagation} (none : propagation.failures = [])
    (report : PassReport) (workspace : Workspace) :
    (report.absorb workspace propagation).2 = workspace ∧
      (report.absorb workspace propagation).1.outcomes = report.outcomes ∧
      ∀ specifier ∈ report.changed, specifier ∈ (report.absorb workspace propagation).1.changed := by
  simp only [absorb, none, List.foldl_nil, true_and]
  have grows (updated start : List Specifier) : ∀ specifier ∈ start, specifier ∈
      updated.foldl (fun changed specifier =>
        if specifier ∈ changed then changed else changed ++ [specifier]) start := by
    induction updated generalizing start with
    | nil => exact fun _ member => member
    | cons first rest ih =>
      intro specifier member
      refine ih _ specifier ?_
      dsimp only
      split
      · exact member
      · exact List.mem_append_left _ member
  exact grows _ _

theorem repairImporters_ok (scope : Scope known modules leaf)
    (sound : Sound known modules leaf workspace) (report : PassReport) (changed : Specifier) :
    let (report', after) := workspace.repairImporters report changed
    after = (workspace.propagate changed).2 ∧ report'.outcomes = report.outcomes ∧
      ∀ specifier ∈ report.changed, specifier ∈ report'.changed := by
  have repair := propagate_ok scope sound changed
  unfold repairImporters
  generalize workspace.propagate changed = result at repair ⊢
  exact PassReport.absorb_ok repair.1 report result.2

theorem Sound.propagate (scope : Scope known modules leaf)
    (sound : Sound known modules leaf workspace) (changed : Specifier) :
    Sound known modules leaf (workspace.propagate changed).2 ∧
      SameSetup workspace.store (workspace.propagate changed).2.store := by
  obtain ⟨-, steps, -⟩ := propagate_ok scope sound changed
  exact ⟨sound.refreshSteps scope steps, steps.setup⟩

/-- A module without output is taken out with its sidecar. -/
theorem remove_eq (inOrder : workspace.store.faults = .empty) {specifier : Specifier}
    {record : ModuleRecord} (found : workspace.graph.get? specifier = some record)
    (bare : record.output? = none) :
    workspace.remove specifier =
      { workspace with
        graph := (workspace.graph.erase specifier).1
        store := { workspace.store with sidecars := workspace.store.sidecars.erase specifier } } := by
  have erased := erase_snd workspace.graph specifier
  unfold Workspace.remove
  generalize workspace.graph.erase specifier = result at erased ⊢
  obtain ⟨graph, record?⟩ := result
  dsimp only at erased ⊢
  rw [erased, found]
  simp [removeSidecar, attempt_eq inOrder, bare]

theorem Sound.remove (scope : Scope known modules leaf) (sound : Sound known modules leaf workspace)
    {specifier : Specifier} (own : modules specifier) {record : ModuleRecord}
    (found : workspace.graph.get? specifier = some record) (bare : record.output? = none) :
    Sound known modules leaf (workspace.remove specifier) ∧
      SameSetup workspace.store (workspace.remove specifier).store := by
  rw [remove_eq sound.store.inOrder found bare]
  refine ⟨⟨⟨sound.store.inOrder, fun {other sidecar} ownToo there => ?_⟩,
    sound.indexed.erase specifier, fun {other record} there => ?_,
    fun {other record edge} there member isLeaf => ?_⟩, rfl, rfl, rfl⟩
  · rw [OrderedMap.get?_erase] at there
    split at there
    · cases there
    · exact (sound.store.backed ownToo there).congr fun _ => rfl
  · obtain ⟨differ, there⟩ := get?_of_get?_erase there
    refine (sound.record there).congr (sound.indexed.keyed there) fun _ => ⟨fun _ => rfl, ?_⟩
    exact (OrderedMap.get?_erase _ _ _).trans (if_neg (Ne.symm differ))
  · obtain ⟨target, located⟩ := sound.leaves (get?_of_get?_erase there).2 member isLeaf
    have differ : specifier ≠ edge.target := fun same => scope.apart own (same ▸ isLeaf)
    exact ⟨target, (get?_erase _ _ _).trans ((if_neg differ).trans located)⟩

end ModuleBuild
