import ModuleBuild.Proofs.Compile.Tracking
/-!
Following a changed source. After the pass over it only modules that import it may be out of date, and
repairing them is what is left to do.
-/

namespace ModuleBuild

open ModuleGraph Workspace ArtifactStore Pass Relation

variable {known : Toolchain → Prop} {modules leaf dirty : Specifier → Prop} {tools : Toolchain}
  {changed : Specifier}

/-- What holds of a workspace once a changed source was compiled and before its importers are repaired. -/
structure Repairable (known : Toolchain → Prop) (modules leaf dirty : Specifier → Prop)
    (tools : Toolchain) (changed : Specifier) (workspace : Workspace) : Prop
    extends Unrepaired known modules leaf dirty changed workspace where
  current : ∀ specifier record, modules specifier → ¬ (dirty specifier ∧ specifier ≠ changed) →
    workspace.graph.get? specifier = some record → Current tools specifier record
  linked : ∀ importer target, workspace.graph.Imports importer target →
    (∃ record, workspace.graph.get? target = some record) ∨
      (dirty target ∧ target ≠ changed) ∨ tools.sources.get? target = none

theorem Tracks.repairable {before passed : Workspace} {touched : List Specifier}
    {errors : OrderedMap Specifier ModuleError} (scope : Scope known modules leaf)
    (tracks : Tracks known modules leaf dirty tools before) (used : known tools)
    (compiled : Compiled known modules leaf (· = changed) tools before { forceRefresh := true } touched
      errors passed) (member : changed ∈ touched)
    (anew : leaf changed ∨ Redone modules (· = changed) tools before errors passed changed) :
    Repairable known modules leaf dirty tools changed passed where
  sound := compiled.sound scope tracks.sound used
  current _ _ own clean found := current_passed scope tracks compiled anew own clean found
  linked _ _ imports := linked_passed tracks compiled member imports
  consistent _ _ found ready folds := compiled.consistent_or scope tracks.sound
    (changesWithin scope tracks compiled) tracks.consistent anew found ready folds

namespace Repairable

variable {workspace : Workspace}

/-- Taking out a module that has no source leaves everything else to be repaired. -/
theorem remove (scope : Scope known modules leaf)
    (repairable : Repairable known modules leaf dirty tools changed workspace)
    (own : modules changed) (missing : tools.sources.get? changed = none) {record : ModuleRecord}
    (found : workspace.graph.get? changed = some record) (failed : HasFailed record) :
    Repairable known modules leaf dirty tools changed (workspace.remove changed) := by
  have unrepaired := repairable.toUnrepaired.remove scope own found failed
  rw [remove_eq repairable.sound.store.inOrder found failed.output] at unrepaired ⊢
  refine
    { toUnrepaired := unrepaired
      current := fun specifier record ownToo clean there =>
        repairable.current specifier record ownToo clean (get?_of_get?_erase there).2
      linked := fun importer target leads => ?_ }
  rw [imports_erase found failed.edges] at leads
  rcases repairable.linked importer target leads with ⟨other, there⟩ | rest
  · by_cases self : target = changed
    · exact .inr (.inr (self ▸ missing))
    · exact .inl ⟨other, (get?_erase _ _ _).trans ((if_neg (Ne.symm self)).trans there)⟩
  · exact .inr rest

/-- Repairing the importers of the changed module brings everything up to date but for other edits. -/
theorem propagate (scope : Scope known modules leaf)
    (repairable : Repairable known modules leaf dirty tools changed workspace) :
    Tracks known modules leaf (fun other => dirty other ∧ other ≠ changed) tools
      (workspace.propagate changed).2 := by
  have sound := repairable.sound
  have after := (sound.propagate scope changed).1
  have upTo := repairable.toUnrepaired.propagate scope
  have repair := propagate_ok scope sound changed
  generalize workspace.propagate changed = result at repair after upTo ⊢
  obtain ⟨propagation, repaired⟩ := result
  obtain ⟨-, steps, -⟩ := repair
  have revises := steps.revises
  dsimp only at after ⊢
  refine
    { sound := after
      current := fun specifier record own clean found => ?_
      linked := fun importer target leads => ?_
      consistent := upTo }
  · obtain ⟨old, there, revised⟩ := revises.of_get? found
    have current := repairable.current specifier old own clean there
    by_cases member : specifier ∈ affected workspace.graph changed
    · obtain ⟨-, -, same, there', ready⟩ := (mem_affected sound.indexed).1 member
      obtain rfl := Option.some.inj (there.symm.trans there')
      have state : old.state = .ready := by simpa [ModuleRecord.isReady] using ready
      obtain ⟨contentHash, output?, found'⟩ := steps.get?_touched there state
      obtain rfl := Option.some.inj (found.symm.trans found')
      exact current.revises revised ready ready
    · rw [steps.get?_other member] at found
      obtain rfl := Option.some.inj (there.symm.trans found)
      exact current
  · rw [imports_congr target (revises.dependencies importer)] at leads
    refine (repairable.linked importer target leads).imp_left ?_
    rintro ⟨old, there⟩
    obtain ⟨new, found, -⟩ := revises.get?_of_get? there
    exact ⟨new, found⟩

end Repairable

namespace Tracks

variable {workspace : Workspace}

theorem sourceChanged (scope : Scope known modules leaf)
    (tracks : Tracks known modules leaf dirty tools workspace)
    (readable : workspace.store.Readable modules leaf) (used : known tools) (changed : Specifier) :
    Tracks known modules leaf (fun other => dirty other ∧ other ≠ changed) tools
      (workspace.sourceChanged tools changed).2 := by
  rcases sourceChanged_ok scope tracks.sound readable used changed with
    ⟨absent, unused, same⟩ | ⟨touched, errors, passed, middle, compiled, reaches, anew, middle?, same⟩
  · rw [same]
    refine
      { sound := tracks.sound
        current := fun specifier record own clean found => ?_
        linked := fun importer target imports => ?_
        consistent := fun specifier record found ready folds => ?_ }
    · refine tracks.current specifier record own (fun edited => clean ⟨edited, ?_⟩) found
      rintro rfl
      cases absent.symm.trans found
    · refine (tracks.linked importer target imports).imp_right (.imp_left fun edited => ⟨edited, ?_⟩)
      rintro rfl
      exact unused importer imports
    · refine (tracks.consistent specifier record found ready folds).imp_right ?_
      rintro ⟨other, edited, above⟩
      refine ⟨other, ⟨edited, ?_⟩, above⟩
      rintro rfl
      obtain ⟨importer, -, imports⟩ := TransGen.tail'_iff.1 above
      exact unused importer imports
  · have member := reaches.done (changed, true) List.mem_cons_self
    have passed := tracks.repairable scope used compiled member anew
    rw [same]
    rcases middle? with ⟨rfl, -⟩ | ⟨rfl, own, missing, record, found, failed⟩
    · exact passed.propagate scope
    · exact (passed.remove scope own missing found failed).propagate scope

/-- Records are not lost but for those of modules whose source is gone. -/
theorem present_sourceChanged (scope : Scope known modules leaf)
    (sound : Sound known modules leaf workspace) (readable : workspace.store.Readable modules leaf)
    (used : known tools) {changed specifier : Specifier} {record : ModuleRecord}
    (found : workspace.graph.get? specifier = some record)
    (kept : specifier = changed → tools.sources.get? changed ≠ none) :
    ∃ record, (workspace.sourceChanged tools changed).2.graph.get? specifier = some record := by
  rcases sourceChanged_ok scope sound readable used changed with
    ⟨-, -, same⟩ | ⟨touched, errors, passed, middle, compiled, -, -, middle?, same⟩
  · exact ⟨record, by rw [same, found]⟩
  · obtain ⟨new, there⟩ := compiled.present found
    have start := compiled.sound scope sound used
    have between : Sound known modules leaf middle ∧
        ∃ record, middle.graph.get? specifier = some record := by
      rcases middle? with ⟨rfl, -⟩ | ⟨rfl, own, missing, gone, found', failed⟩
      · exact ⟨start, new, there⟩
      · refine ⟨(start.remove scope own found' failed.output).1, new, ?_⟩
        rw [remove_eq start.store.inOrder found' failed.output]
        exact (get?_erase _ _ _).trans ((if_neg fun self => kept self.symm missing).trans there)
    obtain ⟨sound', middle', found'⟩ := between
    obtain ⟨-, steps, -⟩ := propagate_ok scope sound' changed
    obtain ⟨final, found'', -⟩ := steps.revises.get?_of_get? found'
    exact ⟨final, by rw [same]; exact found''⟩

section Fresh

variable {base : Workspace} {touched : List Specifier} {errors : OrderedMap Specifier ModuleError}
  {forced : Specifier → Prop} (empty : ∀ specifier, base.graph.get? specifier = none)
  (compiled : Compiled known modules leaf forced tools base {} touched errors workspace)

include empty compiled

/-- A pass that starts from nothing leaves no records but of these kinds. -/
theorem kinds_of_fresh {specifier : Specifier} {record : ModuleRecord}
    (found : workspace.graph.get? specifier = some record) :
    leaf specifier ∧ record.IsLeftAlone specifier ∨
      (∃ error, tools.image? specifier = .error error ∧
        record = (ModuleRecord.awaiting specifier).failed error.message) ∨
      ∃ image start, tools.image? specifier = .ok image ∧
        Finished workspace specifier image start record ∧
        ∀ edge ∈ image.edges, ∃ record, workspace.graph.get? edge.target = some record := by
  by_cases member : specifier ∈ touched
  · cases compiled.fresh empty member with
    | left isLeaf found' left =>
      obtain rfl := Option.some.inj (found.symm.trans found')
      exact .inl ⟨isLeaf, left⟩
    | @failed error _ fails found' =>
      exact .inr (.inl ⟨error, fails, Option.some.inj (found.symm.trans found')⟩)
    | @built image start _ _ is _ finished targets =>
      obtain rfl := Option.some.inj (found.symm.trans finished.found)
      exact .inr (.inr ⟨image, start, is, finished, targets⟩)
  · obtain ⟨same | ⟨-, record', found', fresh⟩, -⟩ := compiled.outside specifier member
    · cases (same.trans (empty specifier)).symm.trans found
    · obtain rfl := Option.some.inj (found.symm.trans found')
      rcases compiled.adds specifier record (empty specifier) found with
        inside | ⟨_, _, _, isLeaf, _⟩ | ⟨partly, -⟩
      · exact absurd inside member
      · exact .inl ⟨isLeaf, false, (fresh.resolve_right fun notLeaf => notLeaf.1 isLeaf).2⟩
      · cases partly

/-- A workspace keeps track of its sources once everything was compiled from nothing. -/
theorem of_fresh (scope : Scope known modules leaf) (sound : Sound known modules leaf base)
    (used : known tools) : Tracks known modules leaf (fun _ => False) tools workspace where
  sound := compiled.sound scope sound used
  current specifier record own _ found := by
    rcases kinds_of_fresh empty compiled found with
      ⟨isLeaf, -⟩ | ⟨error, fails, rfl⟩ | ⟨image, start, is, finished, -⟩
    · exact absurd isLeaf (scope.apart own)
    · exact .failed fails ⟨rfl, rfl, rfl, rfl, rfl, .inl rfl⟩
    · exact .compiled is finished.describes (by simp [ModuleRecord.isReady, finished.ready])
  linked importer target imports := by
    obtain ⟨record, found⟩ := imports.get?
    obtain ⟨edge, inside, rfl⟩ := imports
    rw [dependencies_of_get? found] at inside
    rcases kinds_of_fresh empty compiled found with
      ⟨-, _, rfl⟩ | ⟨error, -, rfl⟩ | ⟨image, start, -, finished, targets⟩
    · cases inside
    · cases inside
    · exact .inl (targets edge (finished.describes.edges ▸ inside))
  consistent specifier record found ready folds := by
    rcases kinds_of_fresh empty compiled found with
      ⟨-, _, rfl⟩ | ⟨error, -, rfl⟩ | ⟨image, start, -, finished, -⟩
    · cases folds
    · cases ready
    · exact .inl finished.consistent

end Fresh

/-- A workspace keeps track of its sources while one is edited, but for that one. -/
theorem edit (tracks : Tracks known modules leaf dirty tools workspace) {edited : Toolchain}
    (resolver : edited.resolver = tools.resolver) (transpiler : edited.transpiler = tools.transpiler)
    {specifier : Specifier} (sources : ∀ other, other ≠ specifier →
      edited.sources.get? other = tools.sources.get? other) :
    Tracks known modules leaf (fun other => dirty other ∨ other = specifier) edited workspace where
  sound := tracks.sound
  current other record own clean found := by
    obtain ⟨clean', differ⟩ := not_or.1 clean
    have load : edited.sources.load other = tools.sources.load other := by
      rw [SourceTree.load, SourceTree.load, sources other differ]
    have image := Toolchain.image?_congr load resolver transpiler
    cases tracks.current other record own clean' found with
    | failed fails failed => exact .failed (image ▸ fails) failed
    | compiled compiled describes ready => exact .compiled (image ▸ compiled) describes ready
  linked importer target imports := by
    rcases tracks.linked importer target imports with found | dirty | missing
    · exact .inl found
    · exact .inr (.inl (.inl dirty))
    · by_cases same : target = specifier
      · exact .inr (.inl (.inr same))
      · exact .inr (.inr ((sources target same).trans missing))
  consistent other record found ready folds :=
    (tracks.consistent other record found ready folds).imp_right fun ⟨edge, dirty, above⟩ =>
      ⟨edge, .inl dirty, above⟩

end Tracks

end ModuleBuild
