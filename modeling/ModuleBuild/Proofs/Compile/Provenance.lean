import ModuleBuild.Proofs.Compile.CallHistory
import Mathlib.Data.List.Induction
/-!
Where the code of a ready module comes from. After each call a module is consistent, or it has the record and
the code that it had before the call. So what is stored of a module always goes back to a time at which it
was consistent.
-/

namespace ModuleBuild

open ModuleGraph Workspace ArtifactStore Pass Relation

def Keeps (before after : Workspace) (specifier : Specifier) (record : ModuleRecord) : Prop :=
  ∃ old isEntry, before.graph.get? specifier = some old ∧ record = old.withEntry isEntry ∧
    ∀ hash, after.store.blobs.get? (artifactKey specifier hash) =
      before.store.blobs.get? (artifactKey specifier hash)

/-- Ready modules that take part in content hashes are consistent, or have what they had before. -/
def Renewed (before after : Workspace) : Prop :=
  ∀ specifier record, after.graph.get? specifier = some record → record.isReady → record.folds →
    Consistent after.graph after.store record ∨ Keeps before after specifier record

theorem Keeps.trans {first second third : Workspace} {specifier : Specifier} {record : ModuleRecord}
    (one : Keeps second third specifier record)
    (two : ∀ old, second.graph.get? specifier = some old → Keeps first second specifier old) :
    Keeps first third specifier record := by
  obtain ⟨old, isEntry, found, rfl, blobs⟩ := one
  obtain ⟨older, _, found', rfl, blobs'⟩ := two old found
  exact ⟨older, isEntry, found', rfl, fun hash => (blobs hash).trans (blobs' hash)⟩

variable {known : Toolchain → Prop} {modules leaf : Specifier → Prop}
  {before middle after workspace : Workspace}

theorem Sound.compiled_of_folds (sound : Sound known modules leaf workspace) {specifier : Specifier}
    {record : ModuleRecord} (found : workspace.graph.get? specifier = some record)
    (ready : record.isReady) (folds : record.folds) :
    modules specifier ∧ ∃ image, KnownImage known specifier image ∧
      IsCompiled workspace.store image record := by
  refine ((sound.record found).left_or_compiled ready).resolve_left ?_
  rintro ⟨-, _, rfl⟩
  cases folds

theorem Pass.Compiled.renewed {forced : Specifier → Prop} {tools : Toolchain} {options : CompileOptions}
    {touched : List Specifier} {errors : OrderedMap Specifier ModuleError}
    (compiled : Compiled known modules leaf forced tools before options touched errors after)
    (sound : Sound known modules leaf before) : Renewed before after := by
  intro specifier record found ready folds
  refine (compiled.consistent_or_kept found ready folds).imp_right ?_
  rintro ⟨old, isEntry, was, rfl, sameOwn⟩
  obtain ⟨own, -⟩ := sound.compiled_of_folds was ready folds
  exact ⟨old, isEntry, was, rfl, (sameOwn own).blobs⟩

section Refresh

variable (scope : Scope known modules leaf)

include scope

theorem Renewed.refreshStep (renewed : Renewed before middle) (sound : Sound known modules leaf middle)
    (step : RefreshStep modules middle after) : Renewed before after := by
  obtain ⟨refreshed, result, hash, code, own, found, folds', has, fit, refreshes⟩ := step
  intro specifier record there ready folds
  by_cases same : specifier = refreshed.specifier
  · subst same
    obtain rfl := Option.some.inj (refreshes.get?_self.symm.trans there)
    exact .inl (refreshes.consistent found fit)
  · have there' := refreshes.get?_other same ▸ there
    obtain ⟨ownToo, -⟩ := sound.compiled_of_folds there' ready folds
    have blobs := refreshes.blobs_other scope.distinct own has.owns ownToo same
    refine (renewed specifier record there' ready folds).imp (fun consistent => ?_) fun keeps => ?_
    · obtain rfl := sound.indexed.keyed there'
      exact consistent.congr (refreshes.contentHash? found _) (fun _ _ _ => refreshes.contentHash? found _)
        blobs
    · obtain ⟨old, isEntry, was, revised, blobs'⟩ := keeps
      exact ⟨old, isEntry, was, revised, fun hash => (blobs hash).trans (blobs' hash)⟩

theorem Renewed.refreshSteps (renewed : Renewed before middle) (sound : Sound known modules leaf middle)
    (steps : RefreshSteps modules middle after) : Renewed before after := by
  induction steps with
  | refl => exact renewed
  | tail steps step ih => exact ih.refreshStep scope (sound.refreshSteps scope steps) step

/-- Taking out a module that failed and repairing its importers makes these consistent and leaves the others as
they were. -/
theorem Renewed.remove (renewed : Renewed before middle) (sound : Sound known modules leaf middle)
    {changed : Specifier} (own : modules changed) {gone : ModuleRecord}
    (found : middle.graph.get? changed = some gone) (failed : HasFailed gone) :
    Renewed before ((middle.remove changed).propagate changed).2 := by
  obtain ⟨sound', -⟩ := sound.remove scope own found failed.output
  have removed := remove_eq sound.store.inOrder found failed.output
  have imports : (middle.remove changed).graph.Imports = middle.graph.Imports := by
    rw [removed]
    exact imports_erase found failed.edges
  have blobs : (middle.remove changed).store.blobs = middle.store.blobs := by rw [removed]
  obtain ⟨-, steps, consistent⟩ := propagate_ok scope sound' changed
  intro specifier record there ready folds
  by_cases member : specifier ∈ affected (middle.remove changed).graph changed
  · exact .inl (consistent specifier member record there folds)
  · have kept := (steps.get?_other member).symm.trans there
    obtain ⟨ownToo, -⟩ := sound'.compiled_of_folds kept ready folds
    have within := fun other => @Sound.module_of_affected _ _ _ _ sound' changed other
    have earlier : (middle.graph.erase changed).1.get? specifier = some record := by
      rw [removed] at kept
      exact kept
    obtain ⟨differ, was⟩ := get?_of_get?_erase earlier
    rcases renewed specifier record was ready folds with agrees | ⟨old, isEntry, older, revised, same⟩
    -- what was not repaired does not lead to the module that was taken out
    · have apart : ¬ TransGen middle.graph.Imports specifier changed := fun above =>
        member ((mem_affected sound'.indexed).2 ⟨differ, imports ▸ above, record, kept, ready⟩)
      obtain rfl := sound.indexed.keyed was
      exact .inl (steps.consistent_other scope.distinct within ownToo member
        (agrees.remove sound found failed was differ apart))
    · refine .inr ⟨old, isEntry, older, revised, fun hash => ?_⟩
      exact (steps.blobs_other scope.distinct within ownToo member hash).trans (by rw [blobs, same])

end Refresh

/-- What a call does to a workspace: nothing, or a pass with repairs after it. A module that failed may be taken
out in between. -/
inductive CallOutcome (known : Toolchain → Prop) (modules leaf : Specifier → Prop) (tools : Toolchain)
    (before after : Workspace) : Prop
  | idle (same : after = before)
  | repaired {forced : Specifier → Prop} {options : CompileOptions} {touched : List Specifier}
      {errors : OrderedMap Specifier ModuleError} {passed : Workspace}
      (compiled : Compiled known modules leaf forced tools before options touched errors passed)
      (steps : RefreshSteps modules passed after)
  | removed {forced : Specifier → Prop} {options : CompileOptions} {touched : List Specifier}
      {errors : OrderedMap Specifier ModuleError} {passed : Workspace}
      (compiled : Compiled known modules leaf forced tools before options touched errors passed)
      {changed : Specifier} (own : modules changed) {record : ModuleRecord}
      (found : passed.graph.get? changed = some record) (failed : HasFailed record)
      (same : after = ((passed.remove changed).propagate changed).2)

section Perform

variable (scope : Scope known modules leaf) (sound : Sound known modules leaf workspace)
  (readable : workspace.store.Readable modules leaf) {tools : Toolchain} (used : known tools) {call : Call}
  (rooted : ∀ root ∈ call.roots, modules root)

include scope sound readable used rooted

theorem Sound.callOutcome :
    CallOutcome known modules leaf tools workspace (workspace.perform tools call) := by
  cases call with
  | compile roots options =>
    have listed : ∀ root ∈ roots, modules root := rooted
    have run := compileAll_refreshes scope sound readable used listed options
    rw [Workspace.perform]
    generalize workspace.compileAll tools roots options = result at run ⊢
    obtain ⟨report, after⟩ := result
    obtain ⟨touched, errors, passed, compiled, steps⟩ := run
    exact .repaired compiled steps
  | notice changed =>
    rw [Workspace.perform]
    rcases sourceChanged_ok scope sound readable used changed with
      ⟨-, -, same⟩ | ⟨touched, errors, passed, middle, compiled, -, -, middle?, same⟩
    · exact .idle same
    · rcases middle? with ⟨rfl, -⟩ | ⟨rfl, own, -, record, found, failed⟩
      · have passed := compiled.sound scope sound used
        obtain ⟨-, steps, -⟩ := propagate_ok scope passed changed
        rw [same]
        exact .repaired compiled (steps.mono fun _ => passed.module_of_affected)
      · exact .removed compiled own found failed same

theorem Sound.renewed_perform : Renewed workspace (workspace.perform tools call) := by
  cases sound.callOutcome scope readable used rooted with
  | idle same =>
    rw [same]
    exact fun specifier record found _ _ =>
      .inr ⟨record, record.flags.isDynamicEntryOnly, found, rfl, fun _ => rfl⟩
  | repaired compiled steps =>
    exact (compiled.renewed sound).refreshSteps scope (compiled.sound scope sound used) steps
  | removed compiled own found failed same =>
    rw [same]
    exact (compiled.renewed sound).remove scope (compiled.sound scope sound used) own found failed

end Perform

/-! ## Source hashes -/

/-- A source that one of some toolchains has of a module. -/
def IsSource (known : Toolchain → Prop) (modules : Specifier → Prop) (bytes : Bytes) : Prop :=
  ∃ specifier tools loaded, modules specifier ∧ known tools ∧
    tools.sources.load specifier = .ok loaded ∧ loaded.bytes = bytes

/-- The source hashes that content hashes see are hashes of sources. -/
def FromSources (known : Toolchain → Prop) (modules : Specifier → Prop) (graph : ModuleGraph) : Prop :=
  ∀ specifier record, graph.get? specifier = some record → record.folds →
    ∃ bytes, IsSource known modules bytes ∧ record.sourceHash = sourceHash bytes

theorem Describes.fromSource {image : Image} {record : ModuleRecord} (describes : Describes image record)
    {specifier : Specifier} (own : modules specifier) (compiled : KnownImage known specifier image) :
    ∃ bytes, IsSource known modules bytes ∧ record.sourceHash = sourceHash bytes := by
  obtain ⟨tools, used, is⟩ := compiled
  obtain ⟨loaded, _, load, -, -, bytes, -⟩ := Toolchain.image?_eq_ok is
  exact ⟨_, ⟨specifier, tools, loaded, own, used, load, rfl⟩, by rw [describes.source, Image.source, bytes]⟩

namespace FromSources

theorem of_revises {first second : ModuleGraph} (from? : FromSources known modules first)
    (revises : first.Revises second) : FromSources known modules second := by
  intro specifier record found folds
  obtain ⟨old, there, revised⟩ := revises.of_get? found
  rw [revised.sourceHash]
  exact from? specifier old there (revised.folds ▸ folds)

theorem compiled {forced : Specifier → Prop} {tools : Toolchain} {options : CompileOptions}
    {touched : List Specifier} {errors : OrderedMap Specifier ModuleError}
    (from? : FromSources known modules before.graph) (used : known tools)
    (compiled : Compiled known modules leaf forced tools before options touched errors after) :
    FromSources known modules after.graph := by
  intro specifier record found folds
  by_cases member : specifier ∈ touched
  · cases compiled.inside specifier member with
    | left _ found' left =>
      obtain rfl := Option.some.inj (found.symm.trans found')
      obtain ⟨_, rfl⟩ := left
      cases folds
    | kept _ was _ found' =>
      obtain rfl := Option.some.inj (found.symm.trans found')
      have known := from? specifier _ was folds
      exact known
    | restamped own _ _ is _ finished =>
      obtain rfl := Option.some.inj (found.symm.trans finished.found)
      exact finished.describes.fromSource own is
    | redone redone =>
      cases redone with
      | failed was _ found' =>
        obtain rfl := Option.some.inj (found.symm.trans found')
        rcases was.was with was | ⟨-, rfl⟩
        · have known := from? specifier _ was folds
          exact known
        · cases folds
      | built was is _ finished =>
        obtain rfl := Option.some.inj (found.symm.trans finished.found)
        exact finished.describes.fromSource was.own ⟨tools, used, is⟩
  · obtain ⟨same | ⟨-, record', found', fresh⟩, -⟩ := compiled.outside specifier member
    · exact from? specifier record (same ▸ found) folds
    · obtain rfl := Option.some.inj (found.symm.trans found')
      cases folds.symm.trans fresh.folds

theorem perform (scope : Scope known modules leaf) (sound : Sound known modules leaf workspace)
    (from? : FromSources known modules workspace.graph)
    (readable : workspace.store.Readable modules leaf) {tools : Toolchain} (used : known tools) {call : Call}
    (rooted : ∀ root ∈ call.roots, modules root) :
    FromSources known modules (workspace.perform tools call).graph := by
  cases sound.callOutcome scope readable used rooted with
  | idle same =>
    rw [same]
    exact from?
  | repaired compiled steps => exact (from?.compiled used compiled).of_revises steps.revises
  | @removed forced options touched errors passed compiled changed own record found failed same =>
    have start := compiled.sound scope sound used
    obtain ⟨start', -⟩ := start.remove scope own found failed.output
    obtain ⟨-, steps, -⟩ := propagate_ok scope start' changed
    rw [same]
    refine of_revises (fun specifier other there => ?_) steps.revises
    rw [remove_eq start.store.inOrder found failed.output] at there
    exact from?.compiled used compiled specifier other (get?_of_get?_erase there).2

end FromSources

/-! ## Histories of calls -/

/-- Calls to a compiler that has compiled and stored nothing before. -/
structure IsHistory (known : Toolchain → Prop) (roots : List Specifier) (start : Workspace)
    (calls : List (Toolchain × Call)) : Prop where
  blank : start.IsBlank
  readable : start.store.Readable (Reached known roots · false) (Reached known roots · true)
  used : ∀ call ∈ calls, known call.1
  rooted : ∀ call ∈ calls, ∀ root ∈ call.2.roots, root ∈ roots

/-- The record and the code of a module date from a time at which it was consistent. -/
structure DatesFrom (past present : Workspace) (specifier : Specifier) (record : ModuleRecord) : Prop where
  keeps : Keeps past present specifier record
  consistent : ∀ old, past.graph.get? specifier = some old → Consistent past.graph past.store old

namespace IsHistory

variable {roots : List Specifier} {start : Workspace} {calls earlier : List (Toolchain × Call)}

theorem of_prefix (history : IsHistory known roots start calls) (first : earlier <+: calls) :
    IsHistory known roots start earlier :=
  ⟨history.blank, history.readable, fun call member => history.used call (first.subset member),
    fun call member => history.rooted call (first.subset member)⟩

variable (coherent : Coherent known roots)

include coherent

theorem sound (history : IsHistory known roots start calls) :
    Sound known (Reached known roots · false) (Reached known roots · true) (start.performAll calls) ∧
      SameSetup start.store (start.performAll calls).store :=
  history.blank.sound.performAll coherent.scope calls history.readable history.used
    fun call member root listed => .root (history.rooted call member root listed)

/-- Source hashes are hashes of sources, and ready modules have code from a time at which it was consistent. -/
theorem provenance (history : IsHistory known roots start calls) :
    FromSources known (Reached known roots · false) (start.performAll calls).graph ∧
      ∀ specifier record, (start.performAll calls).graph.get? specifier = some record → record.isReady →
        record.folds → ∃ earlier, earlier <+: calls ∧
          DatesFrom (start.performAll earlier) (start.performAll calls) specifier record := by
  induction calls using List.reverseRecOn with
  | nil =>
    exact ⟨fun specifier record found => (history.blank.not_found found).elim,
      fun specifier record found => (history.blank.not_found found).elim⟩
  | append_singleton calls call ih =>
    have before := history.of_prefix (List.prefix_append calls [call])
    obtain ⟨from?, dates⟩ := ih before
    obtain ⟨sound, setup⟩ := before.sound coherent
    have last : call ∈ calls ++ [call] := List.mem_append_right _ (List.mem_singleton_self _)
    have readable := history.readable.congr setup
    have used := history.used call last
    have rooted : ∀ root ∈ call.2.roots, Reached known roots root false := fun root listed =>
      .root (history.rooted call last root listed)
    have step : start.performAll (calls ++ [call]) = (start.performAll calls).perform call.1 call.2 := by
      simp [performAll]
    rw [step]
    refine ⟨from?.perform coherent.scope sound readable used rooted, fun specifier record found ready folds => ?_⟩
    -- the last call brought the module up to date, or left it as an earlier call had made it
    rcases sound.renewed_perform coherent.scope readable used rooted specifier record found ready folds with
      consistent | keeps
    · refine ⟨calls ++ [call], List.prefix_rfl, ⟨?_, ?_⟩⟩
      · exact ⟨record, record.flags.isDynamicEntryOnly, step ▸ found, rfl, fun _ => by rw [step]⟩
      · intro old found'
        rw [step] at found' ⊢
        obtain rfl := Option.some.inj (found.symm.trans found')
        exact consistent
    · obtain ⟨old, isEntry, was, rfl, -⟩ := id keeps
      obtain ⟨earlier, first, dated⟩ := dates specifier old was ready folds
      refine ⟨earlier, first.trans (List.prefix_append calls [call]), keeps.trans fun other found' => ?_,
        dated.consistent⟩
      obtain rfl := Option.some.inj (was.symm.trans found')
      exact dated.keeps

end IsHistory

end ModuleBuild
