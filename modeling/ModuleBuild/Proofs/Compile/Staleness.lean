import ModuleBuild.Proofs.Compile.Calls
import ModuleBuild.Proofs.Compile.Determined
/-!
What may be out of date after one module was compiled again. Only importers of that module are repaired. So a
ready module that is not consistent afterwards imports another one, directly or through others, whose image
or edit went unnoticed.
-/

namespace ModuleBuild

open ModuleGraph Workspace ArtifactStore Pass Relation

variable {known : Toolchain → Prop} {modules leaf dirty : Specifier → Prop} {tools : Toolchain}
  {before passed workspace : Workspace} {changed : Specifier} {touched : List Specifier}
  {errors : OrderedMap Specifier ModuleError}

def ConsistentUpTo (dirty : Specifier → Prop) (workspace : Workspace) (specifier : Specifier) : Prop :=
  ∀ record, workspace.graph.get? specifier = some record → record.isReady → record.folds →
    Consistent workspace.graph workspace.store record ∨
      ∃ other, dirty other ∧ TransGen workspace.graph.Imports specifier other

def Unaffected (changed : Specifier) (dirty : Specifier → Prop) (graph : ModuleGraph)
    (specifier : Specifier) : Prop :=
  ∀ other, other = changed ∨ dirty other → ¬ TransGen graph.Imports specifier other

/-- A module was not ready, and was compiled. -/
structure Revived (tools : Toolchain) (before after : Workspace) (specifier : Specifier) : Prop where
  unready : ∀ record, before.graph.get? specifier = some record → record.isReady = false
  compiled : ∃ image, tools.image? specifier = .ok image
  ready : ∃ record, after.graph.get? specifier = some record ∧ record.isReady

/-- What content hashes see of the modules that are there or are imported changes within a set. -/
def ChangesWithin (before after : Workspace) (changed : Specifier) (dirty : Specifier → Prop) : Prop :=
  ∀ target, ((∃ record, before.graph.get? target = some record) ∨
      ∃ importer, before.graph.Imports importer target) →
    after.graph.foldView? target = before.graph.foldView? target ∨ target = changed ∨ dirty target

theorem Workspace.Consistent.withEntry {graph : ModuleGraph} {store : ArtifactStore}
    {record : ModuleRecord} (consistent : Consistent graph store record) (isEntry : Bool) :
    Consistent graph store (record.withEntry isEntry) := ⟨consistent.hashed, consistent.stored⟩

theorem Sound.bare_of_unready (sound : Sound known modules leaf workspace) {specifier : Specifier}
    {record : ModuleRecord} (found : workspace.graph.get? specifier = some record)
    (unready : ¬ record.isReady) : modules specifier ∧ record.dependencies = [] := by
  cases sound.record found with
  | left _ left =>
    obtain ⟨_, rfl⟩ := left
    exact absurd rfl unready
  | awaiting own blank => exact ⟨own, blank ▸ rfl⟩
  | failed own failed => exact ⟨own, failed.edges⟩
  | compiled _ _ is => exact absurd (by simp [ModuleRecord.isReady, is.ready]) unready

namespace Pass.Compiled

section Pass

variable (scope : Scope known modules leaf) (sound : Sound known modules leaf before)
  (compiled : Compiled known modules leaf (· = changed) tools before { forceRefresh := true } touched
    errors passed)

include scope sound compiled

/-- A ready module that did not change itself is not compiled anew. -/
theorem kept_of_ready {specifier : Specifier} (differ : specifier ≠ changed) {old : ModuleRecord}
    (was : before.graph.get? specifier = some old) (ready : old.isReady) :
    ∃ new, passed.graph.get? specifier = some new ∧ old.Revises new ∧ new.isReady ∧
      (Consistent passed.graph passed.store new ∨
        (∃ isEntry, new = old.withEntry isEntry) ∧
          (modules specifier → before.store.SameOwn passed.store specifier)) := by
  by_cases member : specifier ∈ touched
  · cases compiled.inside specifier member with
    | left isLeaf found left =>
      obtain ⟨isEntry, rfl⟩ := left
      obtain ⟨_, rfl⟩ := (sound.classed scope).isLeftAlone isLeaf was
      exact ⟨_, found, ⟨isEntry, "", none, .ready, rfl⟩, rfl,
        .inr ⟨⟨isEntry, rfl⟩, fun own => absurd isLeaf (scope.apart own)⟩⟩
    | kept _ was' _ found sameOwn =>
      obtain rfl := Option.some.inj (was.symm.trans was')
      exact ⟨_, found, old.revises_withEntry _, ready, .inr ⟨⟨_, rfl⟩, fun _ => sameOwn⟩⟩
    | restamped _ was' _ _ revises finished =>
      obtain rfl := Option.some.inj (was.symm.trans was')
      exact ⟨_, finished.found, revises, by simp [ModuleRecord.isReady, finished.ready],
        .inl finished.consistent⟩
    | redone redone =>
      have again {record : ModuleRecord}
          (due : WasDue modules (· = changed) before specifier record) : False := by
        rcases due.was with there | ⟨absent, -⟩
        · obtain rfl := Option.some.inj (was.symm.trans there)
          exact due.due.elim (fun unready => by cases ready.symm.trans unready) differ
        · cases was.symm.trans absent
      cases redone with
      | failed due => exact (again due).elim
      | built due => exact (again due).elim
  · obtain ⟨grows, -, sameOwn⟩ := compiled.outside specifier member
    exact ⟨old, grows.get?_of_get? was, .refl old, ready,
      .inr ⟨⟨old.flags.isDynamicEntryOnly, rfl⟩, sameOwn⟩⟩

/-- What content hashes see of a module stays, unless it is the changed one or was compiled along with
it. -/
theorem view_or_revived {specifier : Specifier} (differ : specifier ≠ changed) :
    passed.graph.foldView? specifier = before.graph.foldView? specifier ∨
      Revived tools before passed specifier := by
  by_cases ready : ∃ old, before.graph.get? specifier = some old ∧ old.isReady
  · obtain ⟨old, was, ready⟩ := ready
    obtain ⟨new, found, revises, -⟩ := kept_of_ready scope sound compiled differ was ready
    exact .inl (shape_of_revises was found revises).2
  have unready (record : ModuleRecord) (was : before.graph.get? specifier = some record) :
      record.isReady = false := by
    cases isReady : record.isReady with
    | false => rfl
    | true => exact absurd ⟨record, was, isReady⟩ ready
  have failed {old : ModuleRecord} {reason : String} (due : WasDue modules (· = changed) before specifier old)
      (found : passed.graph.get? specifier = some (old.failed reason)) :
      passed.graph.foldView? specifier = before.graph.foldView? specifier := by
    rcases due.was with was | ⟨absent, rfl⟩
    · have revises : old.Revises (old.failed reason) := by
        refine ⟨old.flags.isDynamicEntryOnly, "", none, .errored reason, ?_⟩
        rw [ModuleRecord.failed, ← (sound.bare_of_unready was (by simp [unready old was])).2]
        rfl
      exact (shape_of_revises was found revises).2
    · simp [ModuleGraph.foldView?, absent, found, ModuleRecord.failed, ModuleRecord.folds,
        ModuleRecord.awaiting]
  by_cases member : specifier ∈ touched
  · cases compiled.inside specifier member with
    | left isLeaf found left =>
      obtain ⟨_, rfl⟩ := left
      cases was : before.graph.get? specifier with
      | some old =>
        have own := (sound.bare_of_unready was (by simp [unready old was])).1
        exact absurd isLeaf (scope.apart own)
      | none => exact .inl (by simp [ModuleGraph.foldView?, was, found, ModuleRecord.folds,
          ModuleRecord.external])
    | kept _ was isReady => cases isReady.symm.trans (unready _ was)
    | restamped _ was isReady => cases isReady.symm.trans (unready _ was)
    | redone redone =>
      cases redone with
      | failed due _ found => exact .inl (failed due found)
      | built _ is _ finished =>
        exact .inr ⟨unready, ⟨_, is⟩, _, finished.found, by simp [ModuleRecord.isReady, finished.ready]⟩
  · exact .inl (compiled.outside specifier member).1.foldView?

theorem imports_kept {specifier target : Specifier} (differ : specifier ≠ changed)
    (imports : before.graph.Imports specifier target) : passed.graph.Imports specifier target := by
  obtain ⟨old, image, was, -, -, is⟩ := sound.of_imports imports
  have ready : old.isReady := by simp [ModuleRecord.isReady, is.ready]
  obtain ⟨new, found, revises, -⟩ := kept_of_ready scope sound compiled differ was ready
  rw [imports_congr target (shape_of_revises was found revises).1]
  exact imports

theorem reaches_or {specifier target : Specifier}
    (reaches : ReflTransGen before.graph.Imports specifier target) :
    ReflTransGen passed.graph.Imports specifier target ∨
      ReflTransGen passed.graph.Imports specifier changed := by
  induction reaches using ReflTransGen.head_induction_on with
  | refl => exact .inl .refl
  | @head importer next imports _ ih =>
    by_cases own : importer = changed
    · exact .inr (own ▸ .refl)
    · have kept := imports_kept scope sound compiled own imports
      exact ih.imp (.head kept) (.head kept)

section Within

variable (within : ChangesWithin before passed changed dirty)

include within

/-- A module that does not import what may have changed folds the same as before. -/
theorem views_of_unaffected {specifier : Specifier} (differ : specifier ≠ changed) {old : ModuleRecord}
    (was : before.graph.get? specifier = some old) (ready : old.isReady)
    (unaffected : Unaffected changed dirty passed.graph specifier) {target : Specifier}
    (reaches : ReflTransGen before.graph.Imports specifier target) :
    passed.graph.foldView? target = before.graph.foldView? target := by
  have reached : ReflTransGen passed.graph.Imports specifier target := by
    refine (reaches_or scope sound compiled reaches).resolve_right fun back => ?_
    exact (reflTransGen_iff_eq_or_transGen.1 back).elim (differ ·.symm) (unaffected _ (.inl rfl))
  rcases reflTransGen_iff_eq_or_transGen.1 reached with rfl | below
  · obtain ⟨new, found, revises, -⟩ := kept_of_ready scope sound compiled differ was ready
    exact (shape_of_revises was found revises).2
  · have there : (∃ record, before.graph.get? target = some record) ∨
        ∃ importer, before.graph.Imports importer target := by
      rcases reflTransGen_iff_eq_or_transGen.1 reaches with rfl | above
      · exact .inl ⟨old, was⟩
      · obtain ⟨importer, -, imports⟩ := TransGen.tail'_iff.1 above
        exact .inr ⟨importer, imports⟩
    exact (within target there).resolve_right fun edited => unaffected _ edited below

variable (upTo : ∀ specifier, ConsistentUpTo dirty before specifier)

include upTo

/-- A ready module that does not import what may have changed is consistent as before. -/
theorem consistent_of_unaffected {specifier : Specifier} (differ : specifier ≠ changed)
    {old : ModuleRecord} (was : before.graph.get? specifier = some old) (ready : old.isReady)
    (folds : old.folds) (sameOwn : modules specifier → before.store.SameOwn passed.store specifier)
    (unaffected : Unaffected changed dirty passed.graph specifier) :
    Consistent passed.graph passed.store old := by
  have views {target : Specifier} (reaches : ReflTransGen before.graph.Imports specifier target) :=
    views_of_unaffected scope sound compiled within differ was ready unaffected reaches
  obtain rfl := sound.indexed.keyed was
  have consistent : Consistent before.graph before.store old := by
    refine (upTo _ old was ready folds).resolve_right ?_
    rintro ⟨other, edited, above⟩
    obtain ⟨next, imports, reaches⟩ := TransGen.head'_iff.1 above
    have kept := imports_kept scope sound compiled differ imports
    rcases reaches_or scope sound compiled reaches with onward | back
    · exact unaffected _ (.inr edited) (.head' kept onward)
    · exact unaffected _ (.inl rfl) (.head' kept back)
  obtain ⟨output, -, output?, -⟩ := consistent.stored
  obtain ⟨own, -⟩ := sound.isCompiled was output?
  refine consistent.congr ?_ (fun edge member _ => ?_) (sameOwn own).blobs
  · exact (contentHash?_congr fun target reached =>
      (views (imports_of_reflTransGen reached)).symm).symm
  · have imports : before.graph.Imports old.specifier edge.target :=
      ⟨edge, dependencies_of_get? was ▸ member, rfl⟩
    exact (contentHash?_congr fun target reached =>
      (views (.head imports (imports_of_reflTransGen reached))).symm).symm

/-- After the pass a ready module is consistent, unless it imports what may have changed. -/
theorem consistent_or (anew : leaf changed ∨ Redone modules (· = changed) tools before errors passed changed)
    {specifier : Specifier} {record : ModuleRecord} (found : passed.graph.get? specifier = some record)
    (ready : record.isReady) (folds : record.folds) :
    Consistent passed.graph passed.store record ∨
      specifier ≠ changed ∧ ¬ Unaffected changed dirty passed.graph specifier := by
  by_cases own : specifier = changed
  · subst own
    left
    rcases anew with isLeaf | redone
    · rcases compiled.classed specifier record found with ⟨-, _, rfl⟩ | ⟨notLeaf, -⟩
      · cases folds
      · exact absurd isLeaf notLeaf
    · exact redone.consistent found ready
  · by_cases unaffected : Unaffected changed dirty passed.graph specifier
    · left
      rcases compiled.consistent_or_kept found ready folds with
        consistent | ⟨old, isEntry, was, rfl, sameOwn⟩
      · exact consistent
      · exact (consistent_of_unaffected scope sound compiled within upTo own was ready folds sameOwn
          unaffected).withEntry isEntry
    · exact .inr ⟨own, unaffected⟩

end Within

end Pass

end Pass.Compiled

structure Unrepaired (known : Toolchain → Prop) (modules leaf dirty : Specifier → Prop)
    (changed : Specifier) (workspace : Workspace) : Prop where
  sound : Sound known modules leaf workspace
  consistent : ∀ specifier record, workspace.graph.get? specifier = some record → record.isReady →
    record.folds → Consistent workspace.graph workspace.store record ∨
      specifier ≠ changed ∧ ¬ Unaffected changed dirty workspace.graph specifier

theorem ModuleGraph.imports_erase {graph : ModuleGraph} {changed : Specifier} {record : ModuleRecord}
    (found : graph.get? changed = some record) (bare : record.dependencies = []) :
    (graph.erase changed).1.Imports = graph.Imports := by
  refine funext fun importer => funext fun target => propext (imports_congr target ?_)
  by_cases self : importer = changed
  · rw [self, dependencies_of_get? found, bare]
    exact dependencies_of_get?_eq_none ((get?_erase _ _ _).trans (if_pos rfl))
  · exact dependencies_congr ((get?_erase _ _ _).trans (if_neg (Ne.symm self)))

/-- Taking out a module that failed leaves those consistent that do not import it. -/
theorem Workspace.Consistent.remove {gone record : ModuleRecord}
    (consistent : Consistent workspace.graph workspace.store record)
    (sound : Sound known modules leaf workspace) (found : workspace.graph.get? changed = some gone)
    (failed : HasFailed gone) {specifier : Specifier}
    (there : workspace.graph.get? specifier = some record) (differ : specifier ≠ changed)
    (apart : ¬ TransGen workspace.graph.Imports specifier changed) :
    Consistent (workspace.remove changed).graph (workspace.remove changed).store record := by
  rw [remove_eq sound.store.inOrder found failed.output]
  have views (other : Specifier) (apart : ¬ other = changed) :
      (workspace.graph.erase changed).1.foldView? other = workspace.graph.foldView? other :=
    foldView?_congr ((get?_erase _ _ _).trans (if_neg (Ne.symm apart)))
  have hashes {other : Specifier} (reaches : ReflTransGen workspace.graph.Imports specifier other) :
      (workspace.graph.erase changed).1.contentHash? other = workspace.graph.contentHash? other := by
    refine contentHash?_of_apart views fun target onward => ?_
    rintro rfl
    rw [imports_erase found failed.edges] at onward
    exact (reflTransGen_iff_eq_or_transGen.1 (reaches.trans onward)).elim (differ ·.symm) apart
  obtain rfl := sound.indexed.keyed there
  refine consistent.congr (hashes .refl) (fun edge member _ => ?_) fun _ => rfl
  exact hashes (.single ⟨edge, dependencies_of_get? there ▸ member, rfl⟩)

namespace Unrepaired

theorem remove (scope : Scope known modules leaf)
    (unrepaired : Unrepaired known modules leaf dirty changed workspace) (own : modules changed)
    {record : ModuleRecord} (found : workspace.graph.get? changed = some record)
    (failed : HasFailed record) :
    Unrepaired known modules leaf dirty changed (workspace.remove changed) := by
  obtain ⟨sound, -⟩ := unrepaired.sound.remove scope own found failed.output
  rw [remove_eq unrepaired.sound.store.inOrder found failed.output] at sound ⊢
  have imports := imports_erase found failed.edges
  refine ⟨sound, fun specifier record there ready folds => ?_⟩
  obtain ⟨differ, there'⟩ := get?_of_get?_erase there
  rw [Unaffected, imports]
  by_cases unaffected : Unaffected changed dirty workspace.graph specifier
  · left
    have consistent := (unrepaired.consistent specifier record there' ready folds).resolve_right
      fun affected => affected.2 unaffected
    rw [← remove_eq unrepaired.sound.store.inOrder found failed.output]
    exact consistent.remove unrepaired.sound found failed there' differ (unaffected _ (.inl rfl))
  · exact .inr ⟨differ, unaffected⟩

/-- Repairing the importers of the changed module brings everything up to date but for other edits. -/
theorem propagate (scope : Scope known modules leaf)
    (unrepaired : Unrepaired known modules leaf dirty changed workspace) (specifier : Specifier) :
    ConsistentUpTo (fun other => dirty other ∧ other ≠ changed) (workspace.propagate changed).2
      specifier := by
  have sound := unrepaired.sound
  have repair := propagate_ok scope sound changed
  generalize workspace.propagate changed = result at repair ⊢
  obtain ⟨propagation, repaired⟩ := result
  obtain ⟨-, steps, consistent⟩ := repair
  have imports : repaired.graph.Imports = workspace.graph.Imports :=
    funext fun importer => funext fun target =>
      propext (imports_congr target (steps.revises.dependencies importer))
  intro record found ready folds
  by_cases member : specifier ∈ affected workspace.graph changed
  · exact .inl (consistent specifier member record found folds)
  · dsimp only at found ⊢
    rw [steps.get?_other member] at found
    rcases unrepaired.consistent specifier record found ready folds with kept | ⟨differ, leads⟩
    · obtain ⟨output, -, output?, -⟩ := kept.stored
      obtain ⟨own, -⟩ := sound.isCompiled found output?
      obtain rfl := sound.indexed.keyed found
      exact .inl (steps.consistent_other scope.distinct (fun _ => sound.module_of_affected) own member
        kept)
    · simp only [Unaffected, not_forall, not_not] at leads
      obtain ⟨other, edited, above⟩ := leads
      rw [imports]
      by_cases same : other = changed
      · subst same
        exact absurd ((mem_affected sound.indexed).2 ⟨differ, above, record, found, ready⟩) member
      · exact .inr ⟨other, ⟨edited.resolve_left same, same⟩, above⟩

end Unrepaired

end ModuleBuild
