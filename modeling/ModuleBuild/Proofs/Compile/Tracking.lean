import ModuleBuild.Proofs.Compile.Staleness
/-!
What holds of a workspace while its sources are edited. Some edits were not followed yet; but for those, each
record is what the present source of its module makes of it, and each ready module is consistent unless it
imports one that was edited, directly or through others.
-/

namespace ModuleBuild

open ModuleGraph Workspace ArtifactStore Pass Relation

/-- A record is what the present source of its module makes of it. -/
inductive Current (tools : Toolchain) (specifier : Specifier) (record : ModuleRecord) : Prop
  | failed {error : ModuleError} (fails : tools.image? specifier = .error error)
      (failed : HasFailed record)
  | compiled {image : Image} (compiled : tools.image? specifier = .ok image)
      (describes : Describes image record) (ready : record.isReady)

structure Tracks (known : Toolchain → Prop) (modules leaf dirty : Specifier → Prop)
    (tools : Toolchain) (workspace : Workspace) : Prop where
  sound : Sound known modules leaf workspace
  current : ∀ specifier record, modules specifier → ¬ dirty specifier →
    workspace.graph.get? specifier = some record → Current tools specifier record
  /-- Imports lead to modules that have records, unless there is nothing to compile. -/
  linked : ∀ importer target, workspace.graph.Imports importer target →
    (∃ record, workspace.graph.get? target = some record) ∨ dirty target ∨
      tools.sources.get? target = none
  consistent : ∀ specifier, ConsistentUpTo dirty workspace specifier

theorem Current.revises {tools : Toolchain} {specifier : Specifier} {first second : ModuleRecord}
    (current : Current tools specifier first) (revises : first.Revises second)
    (ready : first.isReady) (ready' : second.isReady) : Current tools specifier second := by
  cases current with
  | failed _ failed => exact absurd ready failed.not_ready
  | compiled compiled describes _ => exact .compiled compiled (revises.describes describes) ready'

theorem Tracks.isCompiled {known : Toolchain → Prop} {modules leaf dirty : Specifier → Prop}
    {tools : Toolchain} {workspace : Workspace} (scope : Scope known modules leaf)
    (tracks : Tracks known modules leaf dirty tools workspace) (used : known tools)
    {specifier : Specifier} (own : modules specifier) (clean : ¬ dirty specifier)
    {record : ModuleRecord} (found : workspace.graph.get? specifier = some record) {image : Image}
    (is : tools.image? specifier = .ok image) : IsCompiled workspace.store image record := by
  cases tracks.current specifier record own clean found with
  | failed fails => cases is.symm.trans fails
  | @compiled image' is' describes ready =>
    obtain rfl := Except.ok.inj (is.symm.trans is')
    obtain ⟨-, image', known, compiled⟩ := ((tracks.sound.record found).left_or_compiled ready).resolve_left
      fun left => scope.apart own left.1
    have same := scope.image_eq used own is known
      (compiled.describes.source.symm.trans describes.source)
    exact same ▸ compiled

/-- Once all edits were followed, a module that has an image and a record is compiled to it and consistent. -/
theorem Tracks.settled {known : Toolchain → Prop} {modules leaf dirty : Specifier → Prop}
    {tools : Toolchain} {workspace : Workspace} (scope : Scope known modules leaf)
    (tracks : Tracks known modules leaf dirty tools workspace) (used : known tools)
    (clean : ∀ other, ¬ dirty other) {specifier : Specifier} (own : modules specifier)
    {record : ModuleRecord} (found : workspace.graph.get? specifier = some record) {image : Image}
    (is : tools.image? specifier = .ok image) :
    IsCompiled workspace.store image record ∧ record.isReady ∧
      Consistent workspace.graph workspace.store record := by
  have compiled := tracks.isCompiled scope used own (clean specifier) found is
  have ready : record.isReady := by simp [ModuleRecord.isReady, compiled.ready]
  refine ⟨compiled, ready, ?_⟩
  rcases tracks.consistent specifier record found ready compiled.describes.folds with
    consistent | ⟨other, edited, -⟩
  · exact consistent
  · exact absurd edited (clean other)

namespace Tracks

variable {known : Toolchain → Prop} {modules leaf dirty : Specifier → Prop} {tools : Toolchain}
  {before passed : Workspace} {changed : Specifier} {touched : List Specifier}
  {errors : OrderedMap Specifier ModuleError}

theorem failed_of_unready (tracks : Tracks known modules leaf dirty tools before)
    {specifier : Specifier} (clean : ¬ dirty specifier) {record : ModuleRecord}
    (found : before.graph.get? specifier = some record) (unready : ¬ record.isReady) :
    modules specifier ∧ ∃ error, tools.image? specifier = .error error ∧ HasFailed record := by
  have of_module (own : modules specifier) :
      modules specifier ∧ ∃ error, tools.image? specifier = .error error ∧ HasFailed record := by
    cases tracks.current specifier record own clean found with
    | failed fails failed => exact ⟨own, _, fails, failed⟩
    | compiled _ _ ready => exact absurd ready unready
  cases tracks.sound.record found with
  | left _ left =>
    obtain ⟨_, rfl⟩ := left
    exact absurd rfl unready
  | awaiting own => exact of_module own
  | failed own => exact of_module own
  | compiled own => exact of_module own

section Pass

variable (scope : Scope known modules leaf) (tracks : Tracks known modules leaf dirty tools before)
  (compiled : Compiled known modules leaf (· = changed) tools before { forceRefresh := true } touched
    errors passed)

include scope tracks compiled

theorem changesWithin : ChangesWithin before passed changed dirty := by
  intro target there
  by_cases same : target = changed
  · exact .inr (.inl same)
  by_cases edited : dirty target
  · exact .inr (.inr edited)
  refine .inl ((compiled.view_or_revived scope tracks.sound same).resolve_right fun revived => ?_)
  obtain ⟨image, is⟩ := revived.compiled
  have absent (record : ModuleRecord) (found : before.graph.get? target = some record) : False := by
    have unready : ¬ record.isReady := by simp [revived.unready record found]
    obtain ⟨-, error, fails, -⟩ := tracks.failed_of_unready edited found unready
    cases is.symm.trans fails
  rcases there with ⟨record, found⟩ | ⟨importer, imports⟩
  · exact absent record found
  · rcases tracks.linked importer target imports with ⟨record, found⟩ | edited' | missing
    · exact absent record found
    · exact edited edited'
    · exact Toolchain.sources_of_image? is missing

variable (anew : leaf changed ∨ Redone modules (· = changed) tools before errors passed changed)

include anew

/-- After the pass records say what becomes of present sources, also that of the changed module. -/
theorem current_passed {specifier : Specifier} {record : ModuleRecord} (own : modules specifier)
    (clean : ¬ (dirty specifier ∧ specifier ≠ changed))
    (found : passed.graph.get? specifier = some record) : Current tools specifier record := by
  have of_redone (redone : Redone modules (· = changed) tools before errors passed specifier) :
      Current tools specifier record := by
    cases redone with
    | failed was fails found' =>
      obtain rfl := Option.some.inj (found.symm.trans found')
      exact .failed fails (was.hasFailed scope tracks.sound _)
    | built _ is _ finished =>
      obtain rfl := Option.some.inj (found.symm.trans finished.found)
      exact .compiled is finished.describes (by simp [ModuleRecord.isReady, finished.ready])
  -- only the changed module is sure to be done anew; the others may be kept
  by_cases same : specifier = changed
  · subst same
    exact of_redone (anew.resolve_left (scope.apart own))
  have clean' : ¬ dirty specifier := fun edited => clean ⟨edited, same⟩
  have earlier {old : ModuleRecord} (was : before.graph.get? specifier = some old)
      (ready : old.isReady) : Current tools specifier record := by
    obtain ⟨new, found', revises, ready', -⟩ := compiled.kept_of_ready scope tracks.sound same was ready
    obtain rfl := Option.some.inj (found.symm.trans found')
    exact (tracks.current specifier old own clean' was).revises revises ready ready'
  by_cases member : specifier ∈ touched
  · cases compiled.inside specifier member with
    | left isLeaf => exact absurd isLeaf (scope.apart own)
    | kept _ was ready => exact earlier was ready
    | restamped _ was ready => exact earlier was ready
    | redone redone => exact of_redone redone
  · obtain ⟨unchanged | ⟨absent, record', found', fresh⟩, -⟩ := compiled.outside specifier member
    · exact tracks.current specifier record own clean' (unchanged ▸ found)
    · rcases compiled.adds specifier record' absent found' with
        inside | ⟨_, _, _, isLeaf, _⟩ | ⟨partly, -⟩
      · exact absurd inside member
      · exact absurd isLeaf (scope.apart own)
      · cases partly

omit scope anew in
/-- After the pass imports lead to records, unless there is nothing to compile. -/
theorem linked_passed (member : changed ∈ touched) {importer target : Specifier}
    (imports : passed.graph.Imports importer target) :
    (∃ record, passed.graph.get? target = some record) ∨ (dirty target ∧ target ≠ changed) ∨
      tools.sources.get? target = none := by
  have earlier (imports : before.graph.Imports importer target) :
      (∃ record, passed.graph.get? target = some record) ∨ (dirty target ∧ target ≠ changed) ∨
        tools.sources.get? target = none := by
    rcases tracks.linked importer target imports with ⟨record, found⟩ | edited | missing
    · exact .inl (compiled.present found)
    · by_cases own : target = changed
      · exact .inl (compiled.get?_of_mem (own ▸ member))
      · exact .inr (.inl ⟨edited, own⟩)
    · exact .inr (.inr missing)
  obtain ⟨record, found⟩ := imports.get?
  obtain ⟨edge, inside, rfl⟩ := id imports
  rw [dependencies_of_get? found] at inside
  -- an importer that was compiled has the imports of its source, any other one those that it had
  rcases compiled.edge_or_target found inside with ⟨old, was, inside'⟩ | linked
  · exact earlier ⟨edge, dependencies_of_get? was ▸ inside', rfl⟩
  · exact .inl linked

end Pass

end Tracks

end ModuleBuild
