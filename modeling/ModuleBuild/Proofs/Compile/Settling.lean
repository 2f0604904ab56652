import ModuleBuild.Proofs.Compile.Revision
/-!
The second half of a pass: each module that was claimed is settled once. Settling one module changes
neither the content hash nor the stored code of another, so in the end all that were built are consistent.
-/

namespace ModuleBuild

open ModuleGraph Workspace ArtifactStore

structure ArtifactStore.SameOwn (first second : ArtifactStore) (specifier : Specifier) : Prop where
  blobs : ∀ hash, second.blobs.get? (artifactKey specifier hash) =
    first.blobs.get? (artifactKey specifier hash)
  sidecar : second.sidecars.get? specifier = first.sidecars.get? specifier

theorem ArtifactStore.SameOwn.refl (store : ArtifactStore) (specifier : Specifier) :
    store.SameOwn store specifier := ⟨fun _ => rfl, rfl⟩

theorem ArtifactStore.SameOwn.trans {first second third : ArtifactStore} {specifier : Specifier}
    (one : first.SameOwn second specifier) (two : second.SameOwn third specifier) :
    first.SameOwn third specifier :=
  ⟨fun hash => (two.blobs hash).trans (one.blobs hash), two.sidecar.trans one.sidecar⟩

theorem ArtifactStore.SameContents.sameOwn {first second : ArtifactStore}
    (contents : SameContents first second) (specifier : Specifier) :
    first.SameOwn second specifier :=
  ⟨fun _ => by rw [contents.blobs], by rw [contents.sidecars]⟩

variable {known : Toolchain → Prop} {modules leaf : Specifier → Prop}

theorem SoundRecord.congr {first second : ArtifactStore} {specifier : Specifier}
    {record : ModuleRecord} (sound : SoundRecord known modules leaf first specifier record)
    (named : record.specifier = specifier)
    (sameOwn : modules specifier → first.SameOwn second specifier) :
    SoundRecord known modules leaf second specifier record := by
  cases sound with
  | left isLeaf left => exact .left isLeaf left
  | awaiting own blank => exact .awaiting own blank
  | failed own failed => exact .failed own failed
  | compiled own known compiled =>
    subst named
    obtain ⟨code, stored⟩ := compiled.code
    exact .compiled own known ⟨compiled.describes, compiled.ready, code,
      stored.congr (sameOwn own).blobs⟩

theorem ModuleRecord.IsLeftAlone.withEntry {record : ModuleRecord} {specifier : Specifier}
    (left : record.IsLeftAlone specifier) (isEntry : Bool) :
    (record.withEntry isEntry).IsLeftAlone specifier := by
  obtain ⟨_, rfl⟩ := left
  exact ⟨isEntry, rfl⟩

theorem ModuleGraph.Classed.of_revises {first second : ModuleGraph} (classed : first.Classed leaf)
    (revises : first.Revises second)
    (leaves : ∀ specifier record, leaf specifier → second.get? specifier = some record →
      record.IsLeftAlone specifier) : second.Classed leaf := by
  intro specifier record found
  obtain ⟨old, there, revised⟩ := revises.of_get? found
  rcases classed specifier old there with ⟨isLeaf, -⟩ | ⟨notLeaf, compiled⟩
  · exact .inl ⟨isLeaf, leaves specifier record isLeaf found⟩
  · exact .inr ⟨notLeaf, revised.isExternal.trans compiled⟩

theorem Describes.folds {image : Image} {record : ModuleRecord} (describes : Describes image record) :
    record.folds := by
  simp [ModuleRecord.folds, describes.compiled, describes.source, image.source_ne]

/-- The imports of a module that are left alone, as the graph has them. -/
theorem Scope.mem_externalsFrom (scope : Scope known modules leaf) {graph : ModuleGraph}
    (classed : graph.Classed leaf) {specifier : Specifier} {image : Image} (own : modules specifier)
    (compiled : KnownImage known specifier image)
    (leaves : ∀ edge ∈ image.edges, leaf edge.target → ∃ record, graph.get? edge.target = some record)
    (target : Specifier) :
    target ∈ externalsFrom graph image.edges ↔ target ∈ image.externals := by
  simp only [externalsFrom, List.mem_map, List.mem_filter]
  constructor
  · rintro ⟨edge, ⟨member, left⟩, rfl⟩
    obtain ⟨record, found, isExternal⟩ := (Option.any_eq_true _ _).1 left
    refine ((scope.target own compiled member).resolve_left fun compiledToo => ?_).2
    cases isExternal.symm.trans (classed.isExternal_eq_false (scope.apart compiledToo) found)
  · intro member
    have isLeaf := scope.leaf_of_mem_externals own compiled member
    obtain ⟨item, inside, rfl⟩ := List.mem_map.1 member
    obtain ⟨edge, listed, target⟩ := image.mem_targets (List.mem_filter.1 inside).1
    refine ⟨edge, ⟨listed, ?_⟩, target⟩
    rw [← target] at isLeaf
    obtain ⟨record, found⟩ := leaves edge listed isLeaf
    obtain ⟨_, rfl⟩ := classed.isLeftAlone isLeaf found
    rw [found]
    rfl

section Refresh

variable {before after : Workspace} {record result : ModuleRecord} {hash : String} {code : Bytes}
  (refreshes : Refreshes before after record result hash code)
  (scope : Scope known modules leaf) (own : modules record.specifier)
  (owned : OwnsOutput record.specifier record.output?)

include refreshes scope own owned

theorem Workspace.Refreshes.sameOwn {other : Specifier} (ownToo : modules other)
    (differ : other ≠ record.specifier) : before.store.SameOwn after.store other :=
  ⟨refreshes.blobs_other scope.distinct own owned ownToo differ, refreshes.sidecars other differ⟩

/-- A refresh from code of an image leaves the store sound. -/
theorem Workspace.Refreshes.soundStore {image : Image} (sound : SoundStore known modules before.store)
    (compiled : KnownImage known record.specifier image) (describes : Describes image record)
    (of : IsCodeOf image code) (classed : before.graph.Classed leaf)
    (leaves : ∀ edge ∈ image.edges, leaf edge.target →
      ∃ record, before.graph.get? edge.target = some record)
    (length : ∀ output, result.output? = some output → output.length = code.length) :
    SoundStore known modules after.store where
  inOrder := refreshes.setup.faults.trans sound.inOrder
  backed := by
    intro other sidecar ownToo found
    by_cases same : other = record.specifier
    · subst same
      rcases refreshes.sidecar with written | ⟨kept, blobs⟩
      · obtain rfl := Option.some.inj (found.symm.trans written)
        obtain ⟨code', stored, agree, -⟩ := refreshes.stored
        obtain ⟨size, rfl, -⟩ := refreshes.updated
        have long := (length _ rfl).trans agree.length
        have described := scope.mem_externalsFrom classed own compiled leaves
        refine ⟨rfl, image, _, hash, code', compiled, ⟨describes.kind, describes.source,
          describes.edges, describes.style, describes.effects, fun target => ?_⟩, rfl, rfl, stored, long,
          of.trans ?_⟩
        · rw [← described target, ← describes.edges]
          rfl
        · exact describes.edges ▸ agree.mono (stampSlots_subset _ _)
      · exact (sound.backed own (kept ▸ found)).congr fun _ => blobs _
    · have sameOwn := refreshes.sameOwn scope own owned ownToo same
      rw [sameOwn.sidecar] at found
      exact (sound.backed ownToo found).congr sameOwn.blobs

end Refresh

/-- A module was settled: its code was made from other code of its image by writing tokens. -/
structure Finished (workspace : Workspace) (specifier : Specifier) (image : Image) (start : Bytes)
    (record : ModuleRecord) : Prop where
  found : workspace.graph.get? specifier = some record
  describes : Describes image record
  ready : record.state = .ready
  entry : record.flags.isDynamicEntryOnly = workspace.graph.isDynamicEntry specifier
  consistent : Consistent workspace.graph workspace.store record
  code : ∃ code, HasOutput workspace.store image record code ∧
    AgreeOutside (stampSlots workspace.graph record.dependencies) start code

/-- The code of a refreshed module is code of its image. -/
theorem Workspace.Refreshes.hasOutput {before after : Workspace} {record result : ModuleRecord}
    {hash : String} {start : Bytes} (refreshes : Refreshes before after record result hash start)
    {image : Image} (describes : Describes image record) (of : IsCodeOf image start)
    (length : ∀ output, result.output? = some output → output.length = start.length) :
    ∃ written, HasOutput after.store image result written ∧
      AgreeOutside (stampSlots before.graph record.dependencies) start written := by
  obtain ⟨written, stored, agree, -⟩ := refreshes.stored
  obtain ⟨size, updated, -⟩ := refreshes.updated
  refine ⟨written, ⟨⟨_, hash, by rw [updated], ?_, stored⟩, of.trans ?_, fun output same =>
    (length output same).trans agree.length⟩, agree⟩
  · rw [updated]
  · exact describes.edges ▸ agree.mono (stampSlots_subset _ _)

theorem Workspace.Refreshes.finished {before after : Workspace} {record result : ModuleRecord}
    {hash : String} {start : Bytes} (refreshes : Refreshes before after record result hash start)
    (found : before.graph.get? record.specifier = some record) {image : Image}
    (describes : Describes image record) (of : IsCodeOf image start)
    (entry : record.flags.isDynamicEntryOnly = before.graph.isDynamicEntry record.specifier)
    (length : ∀ output, result.output? = some output → output.length = start.length) :
    Finished after record.specifier image start result := by
  have revises := refreshes.revises found
  obtain ⟨written, output, agree⟩ := refreshes.hasOutput describes of length
  obtain ⟨size, updated, -⟩ := refreshes.updated
  have agree' : AgreeOutside (stampSlots after.graph result.dependencies) start written := by
    rw [stampSlots_congr _ revises.contentHash?, refreshes.dependencies]
    exact agree
  refine
    { found := refreshes.get?_self
      describes := ?_
      ready := by rw [updated]
      entry := ?_
      consistent := refreshes.consistent found (describes.edges ▸ of.fit)
      code := ⟨written, output, agree'⟩ }
  · rw [updated]
    exact ⟨describes.kind, describes.source, describes.edges, describes.style, describes.effects,
      describes.compiled⟩
  · rw [revises.isDynamicEntry, ← entry, updated]

theorem Finished.isCompiled {workspace : Workspace} {specifier : Specifier} {image : Image}
    {start : Bytes} {record : ModuleRecord}
    (finished : Finished workspace specifier image start record) :
    IsCompiled workspace.store image record := by
  obtain ⟨code, stored, -⟩ := finished.code
  exact ⟨finished.describes, finished.ready, code, stored⟩

namespace Pass

structure Settles (known : Toolchain → Prop) (modules leaf : Specifier → Prop)
    (before after : Pass) (specifier : Specifier) : Prop where
  staged : after.staged = before.staged
  errors : after.errors = before.errors
  setup : SameSetup before.workspace.store after.workspace.store
  isSpoiled : after.workspace.isSpoiled = before.workspace.isSpoiled
  revises : before.workspace.graph.Revises after.workspace.graph
  get?_other : ∀ other, other ≠ specifier →
    after.workspace.graph.get? other = before.workspace.graph.get? other
  sameOwn : ∀ other, modules other → other ≠ specifier →
    before.workspace.store.SameOwn after.workspace.store other
  sound : SoundStore known modules after.workspace.store
  classed : after.workspace.graph.Classed leaf

structure Reports (first : Pass) (specifier : Specifier) (before after : PassReport) : Prop where
  changed : ∀ other ∈ after.changed,
    other ∈ before.changed ∨ other = specifier ∧ first.errors.get? specifier = none
  missing : (∀ edge ∈ first.workspace.graph.dependencies specifier,
      ∃ record, first.workspace.graph.get? edge.target = some record) →
    after.missing = before.missing

/-- A module that was claimed and has its code, staged or stored. -/
structure Due (known : Toolchain → Prop) (modules leaf : Specifier → Prop) (first : Pass)
    (specifier : Specifier) (image : Image) (record : ModuleRecord) : Prop where
  own : modules specifier
  found : first.workspace.graph.get? specifier = some record
  compiled : KnownImage known specifier image
  describes : Describes image record
  owned : OwnsOutput specifier record.output?
  code : first.staged.get? specifier = some image.artifact ∨
    first.staged.get? specifier = none ∧
      ∃ code, HasOutput first.workspace.store image record code
  leaves : ∀ edge ∈ image.edges, leaf edge.target →
    ∃ record, first.workspace.graph.get? edge.target = some record
  errors : first.errors.get? specifier = none

inductive SettledAs (known : Toolchain → Prop) (modules leaf : Specifier → Prop)
    (first pass : Pass) (specifier : Specifier) : Prop
  | failed {error : ModuleError} (errors : first.errors.get? specifier = some error)
      (found : pass.workspace.graph.get? specifier = first.workspace.graph.get? specifier)
      (sameOwn : modules specifier → first.workspace.store.SameOwn pass.workspace.store specifier)
  | left {record : ModuleRecord} (isLeaf : leaf specifier)
      (found : pass.workspace.graph.get? specifier = some record)
      (left : record.IsLeftAlone specifier)
      (entry : record.flags.isDynamicEntryOnly = first.workspace.graph.isDynamicEntry specifier)
  | current {image : Image} {record : ModuleRecord}
      (due : Due known modules leaf first specifier image record) (ready : record.isReady)
      (unstaged : first.staged.get? specifier = none)
      (found : pass.workspace.graph.get? specifier =
        some (record.withEntry (first.workspace.graph.isDynamicEntry specifier)))
      (sameOwn : first.workspace.store.SameOwn pass.workspace.store specifier)
  | finished {image : Image} {start : Bytes} {old record : ModuleRecord}
      (due : Due known modules leaf first specifier image old) (revises : old.Revises record)
      (source : first.staged.get? specifier = some start ∨ first.staged.get? specifier = none ∧
        ∃ key, first.workspace.store.blobs.get? key = some start)
      (finished : Finished pass.workspace specifier image start record)
      (sidecar : (first.staged.get? specifier).isSome →
        ∃ sidecar, pass.workspace.store.sidecars.get? specifier = some sidecar)

structure Settling (known : Toolchain → Prop) (modules leaf : Specifier → Prop)
    (first pass : Pass) (done : List Specifier) (report : PassReport) : Prop where
  staged : pass.staged = first.staged
  errors : pass.errors = first.errors
  setup : SameSetup first.workspace.store pass.workspace.store
  isSpoiled : pass.workspace.isSpoiled = first.workspace.isSpoiled
  revises : first.workspace.graph.Revises pass.workspace.graph
  sound : SoundStore known modules pass.workspace.store
  classed : pass.workspace.graph.Classed leaf
  outside : ∀ specifier, specifier ∉ done →
    pass.workspace.graph.get? specifier = first.workspace.graph.get? specifier ∧
    (modules specifier → first.workspace.store.SameOwn pass.workspace.store specifier)
  inside : ∀ specifier ∈ done, SettledAs known modules leaf first pass specifier
  changed : ∀ specifier ∈ report.changed, first.errors.get? specifier = none
  missing : (∀ specifier ∈ done, ∀ edge ∈ first.workspace.graph.dependencies specifier,
      ∃ record, first.workspace.graph.get? edge.target = some record) → report.missing = []

theorem finished_later {before after : Pass} {other : Specifier}
    (settles : Settles known modules leaf before after other) {specifier : Specifier}
    (own : modules specifier) (differ : specifier ≠ other) {image : Image} {start : Bytes}
    {record : ModuleRecord} (named : record.specifier = specifier)
    (finished : Finished before.workspace specifier image start record) :
    Finished after.workspace specifier image start record := by
  have sameOwn := settles.sameOwn specifier own differ
  obtain ⟨code, stored, agree⟩ := finished.code
  subst named
  exact
    { finished with
      found := (settles.get?_other _ differ).trans finished.found
      entry := finished.entry.trans (settles.revises.isDynamicEntry _).symm
      consistent := finished.consistent.congr (settles.revises.contentHash? _)
        (fun edge _ _ => settles.revises.contentHash? edge.target) sameOwn.blobs
      code := ⟨code, stored.congr sameOwn.blobs,
        stampSlots_congr record.dependencies settles.revises.contentHash? ▸ agree⟩ }

theorem SettledAs.later {first before after : Pass} {other : Specifier}
    (settles : Settles known modules leaf before after other) (indexed : before.workspace.graph.Indexed)
    {specifier : Specifier} (differ : specifier ≠ other)
    (settled : SettledAs known modules leaf first before specifier) :
    SettledAs known modules leaf first after specifier := by
  have same := settles.get?_other specifier differ
  cases settled with
  | failed errors found sameOwn =>
    exact .failed errors (same.trans found) fun own =>
      (sameOwn own).trans (settles.sameOwn specifier own differ)
  | left isLeaf found left entry => exact .left isLeaf (same.trans found) left entry
  | current due ready unstaged found sameOwn =>
    exact .current due ready unstaged (same.trans found)
      (sameOwn.trans (settles.sameOwn specifier due.own differ))
  | finished due revises source finished sidecar =>
    exact .finished due revises source
      (finished_later settles due.own differ (indexed.keyed finished.found) finished)
      ((settles.sameOwn specifier due.own differ).sidecar ▸ sidecar)

section Step

variable {first pass after : Pass} {done : List Specifier} {report report' : PassReport}

theorem Settling.start (sound : SoundStore known modules first.workspace.store)
    (classed : first.workspace.graph.Classed leaf) :
    Settling known modules leaf first first [] {} where
  staged := rfl
  errors := rfl
  setup := .refl _
  isSpoiled := rfl
  revises := .refl _
  sound := sound
  classed := classed
  outside specifier _ := ⟨rfl, fun _ => .refl _ specifier⟩
  inside := by simp
  changed := by simp
  missing _ := rfl

theorem Settling.step (settling : Settling known modules leaf first pass done report)
    (indexed : first.workspace.graph.Indexed) {specifier : Specifier}
    (fresh : specifier ∉ done)
    (settles : Settles known modules leaf pass after specifier)
    (settled : SettledAs known modules leaf first after specifier)
    (reports : Reports first specifier report report') :
    Settling known modules leaf first after (specifier :: done) report' where
  staged := settles.staged.trans settling.staged
  errors := settles.errors.trans settling.errors
  setup := settling.setup.trans settles.setup
  isSpoiled := settles.isSpoiled.trans settling.isSpoiled
  revises := settling.revises.trans settles.revises
  sound := settles.sound
  classed := settles.classed
  outside other absent := by
    obtain ⟨differ, outside⟩ := not_or.1 (mt List.mem_cons.2 absent)
    obtain ⟨same, sameOwn⟩ := settling.outside other outside
    exact ⟨(settles.get?_other other differ).trans same, fun own =>
      (sameOwn own).trans (settles.sameOwn other own differ)⟩
  inside other member := by
    rcases List.mem_cons.1 member with rfl | old
    · exact settled
    · have differ : other ≠ specifier := fun same => fresh (same ▸ old)
      exact (settling.inside other old).later settles (settling.revises.indexed indexed) differ
  changed other member := by
    rcases reports.changed other member with old | ⟨rfl, clear⟩
    · exact settling.changed other old
    · exact clear
  missing present := by
    rw [reports.missing (present specifier List.mem_cons_self)]
    exact settling.missing fun other member => present other (List.mem_cons_of_mem _ member)

end Step

/-- What is done first with a module that did not fail. -/
def enter (pass : Pass) (specifier : Specifier) : Pass :=
  pass.setGraph (pass.workspace.graph.updateEntryFlag specifier)

theorem get?_enter (pass : Pass) (specifier other : Specifier) :
    (pass.enter specifier).workspace.graph.get? other =
      if specifier = other then
        (pass.workspace.graph.get? specifier).map
          (·.withEntry (pass.workspace.graph.isDynamicEntry specifier))
      else pass.workspace.graph.get? other := get?_updateEntryFlag _ _ _

theorem get?_enter_of_get? {pass : Pass} {specifier : Specifier} {record : ModuleRecord}
    (found : pass.workspace.graph.get? specifier = some record) :
    (pass.enter specifier).workspace.graph.get? specifier =
      some (record.withEntry (pass.workspace.graph.isDynamicEntry specifier)) := by
  rw [get?_enter, if_pos rfl, found, Option.map_some]

theorem get?_enter_other (pass : Pass) {specifier other : Specifier} (differ : other ≠ specifier) :
    (pass.enter specifier).workspace.graph.get? other = pass.workspace.graph.get? other :=
  (get?_enter pass specifier other).trans (if_neg (Ne.symm differ))

theorem settles_enter {pass : Pass} (sound : SoundStore known modules pass.workspace.store)
    (classed : pass.workspace.graph.Classed leaf) (specifier : Specifier) :
    Settles known modules leaf pass (pass.enter specifier) specifier where
  staged := rfl
  errors := rfl
  setup := .refl _
  isSpoiled := rfl
  revises := revises_updateEntryFlag _ _
  get?_other _ := get?_enter_other pass
  sameOwn other _ _ := .refl _ other
  sound := sound
  classed := by
    refine classed.of_revises (revises_updateEntryFlag _ specifier) fun other record isLeaf found => ?_
    have left : ∀ old, pass.workspace.graph.get? other = some old → old.IsLeftAlone other :=
      fun _ there => classed.isLeftAlone isLeaf there
    rw [get?_enter] at found
    split at found
    · next same =>
      subst same
      obtain ⟨old, there, rfl⟩ := Option.map_eq_some_iff.1 found
      exact (left old there).withEntry _
    · exact left record found

theorem settleOne_of_clear {pass : Pass} {specifier : Specifier}
    (clear : pass.errors.get? specifier = none) (report : PassReport) :
    pass.settleOne report specifier =
      let entered := pass.enter specifier
      if (entered.staged.get? specifier).isNone && entered.workspace.graph.isSettled specifier then
        (entered, { report with missing := report.missing ++ entered.workspace.missing specifier })
      else
        let (refreshed?, workspace) :=
          entered.workspace.refresh specifier (entered.staged.get? specifier)
        let left := { entered with workspace }
        match refreshed? with
        | .error error => (left.fail specifier (.artifact error), report)
        | .ok none => (left, report)
        | .ok (some refreshed) =>
          (left,
            { report with
              writes := report.writes + refreshed.writes
              missing := report.missing ++ refreshed.missing
              changed :=
                if refreshed.hashChanged then report.changed ++ [specifier]
                else report.changed }) := by
  have unfailed : pass.errors.contains specifier = false := by
    simp [OrderedMap.contains, clear]
  simp only [settleOne, unfailed]
  rfl

theorem settleOne_refreshed {pass : Pass} {specifier : Specifier}
    (clear : pass.errors.get? specifier = none)
    (stale : ¬ (((pass.enter specifier).staged.get? specifier).isNone &&
      (pass.enter specifier).workspace.graph.isSettled specifier) = true)
    {refreshed : Refreshed} {after : Workspace}
    (refresh : (pass.enter specifier).workspace.refresh specifier
      ((pass.enter specifier).staged.get? specifier) = (.ok (some refreshed), after))
    (report : PassReport) :
    pass.settleOne report specifier =
      ({ pass.enter specifier with workspace := after },
        { report with
          writes := report.writes + refreshed.writes
          missing := report.missing ++ refreshed.missing
          changed :=
            if refreshed.hashChanged then report.changed ++ [specifier] else report.changed }) := by
  simp only [settleOne_of_clear clear, stale, refresh, Bool.false_eq_true, if_false]

theorem settleOne_failed {pass : Pass} {specifier : Specifier} {error : ModuleError}
    (failed : pass.errors.get? specifier = some error) (report : PassReport) :
    pass.settleOne report specifier = (pass, report) := by
  have failed' : pass.errors.contains specifier = true := by simp [OrderedMap.contains, failed]
  simp only [settleOne, failed', if_true]

theorem missingFrom_eq_nil_iff (graph : ModuleGraph) (importer : Specifier) (edges : List DependencyEdge) :
    missingFrom graph importer edges = [] ↔
      ∀ edge ∈ edges, ∃ record, graph.get? edge.target = some record := by
  simp [missingFrom, ← Option.isSome_iff_exists, Option.isSome_iff_ne_none]

theorem missing_eq (workspace : Workspace) (specifier : Specifier) :
    workspace.missing specifier =
      missingFrom workspace.graph specifier (workspace.graph.dependencies specifier) := by
  simp [Workspace.missing, missingFrom, contains_eq]

def SettlesOne (known : Toolchain → Prop) (modules leaf : Specifier → Prop) (first pass : Pass)
    (report : PassReport) (specifier : Specifier) : Prop :=
  let (after, report') := pass.settleOne report specifier
  Settles known modules leaf pass after specifier ∧
    SettledAs known modules leaf first after specifier ∧ Reports first specifier report report'

section One

variable {first pass : Pass} {done : List Specifier} {report : PassReport}
  (settling : Settling known modules leaf first pass done report) {specifier : Specifier}
  (fresh : specifier ∉ done)

include settling fresh

theorem settlesOne_failed {error : ModuleError}
    (failed : first.errors.get? specifier = some error) :
    SettlesOne known modules leaf first pass report specifier := by
  obtain ⟨found, sameOwn⟩ := settling.outside specifier fresh
  rw [SettlesOne, settleOne_failed (settling.errors ▸ failed)]
  exact ⟨⟨rfl, rfl, .refl _, rfl, .refl _, fun _ _ => rfl, fun other _ _ => .refl _ other,
    settling.sound, settling.classed⟩, .failed failed found sameOwn, fun _ => .inl, fun _ => rfl⟩

theorem get?_enter_self {record : ModuleRecord}
    (found : first.workspace.graph.get? specifier = some record) :
    (pass.enter specifier).workspace.graph.get? specifier =
      some (record.withEntry (first.workspace.graph.isDynamicEntry specifier)) := by
  rw [get?_enter_of_get? ((settling.outside specifier fresh).1.trans found),
    settling.revises.isDynamicEntry]

omit fresh in
theorem settleOne_settled (clear : first.errors.get? specifier = none)
    (unstaged : first.staged.get? specifier = none)
    (settled : (pass.enter specifier).workspace.graph.isSettled specifier = true) :
    ∃ report', pass.settleOne report specifier = (pass.enter specifier, report') ∧
      Settles known modules leaf pass (pass.enter specifier) specifier ∧
      Reports first specifier report report' := by
  rw [settleOne_of_clear (settling.errors ▸ clear)]
  have unstaged' : (pass.enter specifier).staged.get? specifier = none := by
    rw [← unstaged, ← settling.staged]
    rfl
  simp only [unstaged', settled, Option.isNone_none, Bool.and_self, if_true]
  refine ⟨_, rfl, settles_enter settling.sound settling.classed specifier, fun _ => .inl,
    fun present => ?_⟩
  have revises := settling.revises.trans (revises_updateEntryFlag _ specifier)
  have none : (pass.enter specifier).workspace.missing specifier = [] := by
    refine (missing_eq _ _).trans ((missingFrom_eq_nil_iff _ _ _).2 fun edge member => ?_)
    have member' : edge ∈ first.workspace.graph.dependencies specifier := by
      rw [← revises.dependencies specifier]
      exact member
    obtain ⟨record, found⟩ := present edge member'
    obtain ⟨new, found', -⟩ := revises.get?_of_get? found
    exact ⟨new, found'⟩
  simp [none]

theorem settlesOne_left (isLeaf : leaf specifier) {record : ModuleRecord}
    (found : first.workspace.graph.get? specifier = some record)
    (left : record.IsLeftAlone specifier) (unstaged : first.staged.get? specifier = none)
    (clear : first.errors.get? specifier = none) :
    SettlesOne known modules leaf first pass report specifier := by
  have found' := get?_enter_self settling fresh found
  have settled : (pass.enter specifier).workspace.graph.isSettled specifier = true := by
    obtain ⟨_, rfl⟩ := left
    have none := contentHash?_of_external found' rfl
    simp only [isSettled, found', isCurrent]
    simp [ModuleRecord.isReady, ModuleRecord.withEntry, ModuleRecord.external] at none ⊢
    simp [none]
  obtain ⟨report', one, settles, reports⟩ :=
    settleOne_settled settling clear unstaged settled
  rw [SettlesOne, one]
  exact ⟨settles, .left isLeaf found' (left.withEntry _) rfl, reports⟩

theorem Due.source {image : Image} {record : ModuleRecord}
    (due : Due known modules leaf first specifier image record) :
    ∃ code, IsCodeOf image code ∧ (first.staged.get? specifier = some code ∨
      first.staged.get? specifier = none ∧ ∃ output, record.output? = some output ∧
        output.length = code.length ∧ first.workspace.store.blobs.get? output.key = some code ∧
        pass.workspace.store.blobs.get? output.key = some code) := by
  rcases due.code with staged | ⟨unstaged, code, has, of, length⟩
  · exact ⟨image.artifact, .refl _ _, .inl staged⟩
  · obtain ⟨output, hash, output?, key, stored⟩ := has
    obtain ⟨-, sameOwn⟩ := settling.outside specifier fresh
    obtain ⟨hash', key'⟩ := due.owned output output?
    refine ⟨code, of, .inr ⟨unstaged, output, output?, length output output?, stored, ?_⟩⟩
    rw [key', (sameOwn due.own).blobs, ← key', stored]

section Refreshed

variable (scope : Scope known modules leaf) (indexed : first.workspace.graph.Indexed)
  {image : Image} {record : ModuleRecord} (due : Due known modules leaf first specifier image record)

include indexed due

theorem Due.refresh (tokens : HasTokens first.workspace.graph) :
    ∃ code refreshed after hash, IsCodeOf image code ∧
      (first.staged.get? specifier = some code ∨ first.staged.get? specifier = none ∧
        ∃ key, first.workspace.store.blobs.get? key = some code) ∧
      (pass.enter specifier).workspace.refresh specifier ((pass.enter specifier).staged.get? specifier) =
        (.ok (some refreshed), after) ∧
      Refreshes (pass.enter specifier).workspace after
        (record.withEntry (first.workspace.graph.isDynamicEntry specifier)) refreshed.record hash code ∧
      (∀ output, refreshed.record.output? = some output → output.length = code.length) ∧
      refreshed.missing = missingFrom (pass.enter specifier).workspace.graph specifier record.dependencies ∧
      ((first.staged.get? specifier).isSome →
        ∃ sidecar, after.store.sidecars.get? specifier = some sidecar) := by
  have found := get?_enter_self settling fresh due.found
  have revises := settling.revises.trans
    (settles_enter settling.sound settling.classed specifier).revises
  obtain ⟨code, of, source⟩ := due.source settling fresh
  obtain rfl := indexed.keyed due.found
  have same : (pass.enter record.specifier).staged.get? record.specifier =
      first.staged.get? record.specifier := congrArg (·.get? record.specifier) settling.staged
  have describes := (record.revises_withEntry
    (first.workspace.graph.isDynamicEntry record.specifier)).describes due.describes
  have fit : SlotsFit
      (record.withEntry (first.workspace.graph.isDynamicEntry record.specifier)).dependencies
      code.length := describes.edges ▸ of.fit
  have inOrder : (pass.enter record.specifier).workspace.store.faults = .empty :=
    settling.sound.inOrder
  obtain ⟨refreshed, after, hash, refresh, refreshes, -, missing, fills⟩ :=
    refresh_ok inOrder found describes.folds (revises.hasTokens tokens) fit
      (source.imp_right (.imp_right fun ⟨output, output?, _, _, stored⟩ => ⟨output, output?, stored⟩))
  refine ⟨code, refreshed, after, hash, of, ?_, same ▸ refresh, refreshes, ?_, missing,
    fun staged => (fills staged).2⟩
  · exact source.imp_right (.imp_right fun ⟨output, _, _, stored, _⟩ => ⟨output.key, stored⟩)
  · rcases source with staged | ⟨unstaged, output, output?, long, -⟩
    · exact (fills (by rw [staged]; rfl)).1
    · refine refreshes.length fun other same => ?_
      obtain rfl := Option.some.inj (output?.symm.trans same)
      exact long

include scope

theorem Due.settles {refreshed : Refreshed} {after : Workspace} {hash : String} {code : Bytes}
    (of : IsCodeOf image code)
    (refreshes : Refreshes (pass.enter specifier).workspace after
      (record.withEntry (first.workspace.graph.isDynamicEntry specifier)) refreshed.record hash code)
    (length : ∀ output, refreshed.record.output? = some output → output.length = code.length) :
    Settles known modules leaf pass { pass.enter specifier with workspace := after } specifier := by
  have found := get?_enter_self settling fresh due.found
  have settles := settles_enter settling.sound settling.classed specifier
  have revises := settling.revises.trans settles.revises
  obtain rfl := indexed.keyed due.found
  have describes := (record.revises_withEntry
    (first.workspace.graph.isDynamicEntry record.specifier)).describes due.describes
  have leaves : ∀ edge ∈ image.edges, leaf edge.target →
      ∃ other, (pass.enter record.specifier).workspace.graph.get? edge.target = some other := by
    intro edge member isLeaf
    obtain ⟨target, there⟩ := due.leaves edge member isLeaf
    obtain ⟨new, there', -⟩ := revises.get?_of_get? there
    exact ⟨new, there'⟩
  have differ {other : Specifier} (isLeaf : leaf other) : other ≠ record.specifier := by
    rintro rfl
    exact scope.apart due.own isLeaf
  exact
    { staged := rfl
      errors := rfl
      setup := refreshes.setup
      isSpoiled := refreshes.isSpoiled
      revises := settles.revises.trans (refreshes.revises found)
      get?_other := fun other apart =>
        (refreshes.get?_other apart).trans (settles.get?_other other apart)
      sameOwn := fun other own apart => refreshes.sameOwn scope due.own due.owned own apart
      sound := refreshes.soundStore scope due.own due.owned settling.sound due.compiled describes of
        settles.classed leaves length
      classed := settles.classed.of_revises (refreshes.revises found) fun other result isLeaf there =>
        settles.classed.isLeftAlone isLeaf (refreshes.get?_other (differ isLeaf) ▸ there) }

theorem settlesOne_refresh (tokens : HasTokens first.workspace.graph)
    (stale : ¬ (first.staged.get? specifier = none ∧
      (pass.enter specifier).workspace.graph.isSettled specifier = true)) :
    SettlesOne known modules leaf first pass report specifier := by
  have found := get?_enter_self settling fresh due.found
  have revises := settling.revises.trans
    (settles_enter settling.sound settling.classed specifier).revises
  obtain ⟨code, refreshed, after, hash, of, source, refresh, refreshes, length, missing, sidecar⟩ :=
    due.refresh settling fresh indexed tokens
  have settles := due.settles settling fresh scope indexed of refreshes length
  obtain rfl := indexed.keyed due.found
  have describes := (record.revises_withEntry
    (first.workspace.graph.isDynamicEntry record.specifier)).describes due.describes
  have same : (pass.enter record.specifier).staged.get? record.specifier =
      first.staged.get? record.specifier := congrArg (·.get? record.specifier) settling.staged
  obtain ⟨size, updated, -⟩ := refreshes.updated
  have finished := refreshes.finished found describes of
    (revises.isDynamicEntry record.specifier).symm length
  have stale' : ¬ ((((pass.enter record.specifier).staged.get? record.specifier).isNone &&
      (pass.enter record.specifier).workspace.graph.isSettled record.specifier) = true) := by
    rw [same, Bool.and_eq_true, Option.isNone_iff_eq_none]
    exact stale
  rw [SettlesOne, settleOne_refreshed (settling.errors ▸ due.errors) stale' refresh]
  refine ⟨settles, .finished due ⟨_, _, _, _, updated⟩ source finished sidecar, ?_, fun present => ?_⟩
  · intro other member
    dsimp only at member
    split at member
    · rcases List.mem_append.1 member with old | new
      · exact .inl old
      · exact .inr ⟨List.mem_singleton.1 new, due.errors⟩
    · exact .inl member
  · have none : refreshed.missing = [] := by
      rw [missing]
      refine (missingFrom_eq_nil_iff _ _ _).2 fun edge member => ?_
      rw [← dependencies_of_get? due.found] at member
      obtain ⟨target, there⟩ := present edge member
      obtain ⟨new, there', -⟩ := revises.get?_of_get? there
      exact ⟨new, there'⟩
    rw [none, List.append_nil]

end Refreshed

theorem settlesOne_due (scope : Scope known modules leaf)
    (indexed : first.workspace.graph.Indexed) (tokens : HasTokens first.workspace.graph)
    {image : Image} {record : ModuleRecord}
    (due : Due known modules leaf first specifier image record) :
    SettlesOne known modules leaf first pass report specifier := by
  have found := get?_enter_self settling fresh due.found
  have named := indexed.keyed due.found
  obtain ⟨-, sameOwn⟩ := settling.outside specifier fresh
  have settles := settles_enter settling.sound settling.classed specifier
  by_cases skip : first.staged.get? specifier = none ∧
      (pass.enter specifier).workspace.graph.isSettled specifier = true
  · obtain ⟨report', one, -, reports⟩ :=
      settleOne_settled settling due.errors skip.1 skip.2
    rw [SettlesOne, one]
    have ready : record.isReady := by
      have settled := skip.2
      simp only [isSettled, found] at settled
      exact (Bool.and_eq_true_iff.1 settled).1
    exact ⟨settles, .current due ready skip.1 found (sameOwn due.own), reports⟩
  · exact settlesOne_refresh settling fresh scope indexed due tokens skip

end One

inductive Settleable (known : Toolchain → Prop) (modules leaf : Specifier → Prop) (first : Pass)
    (specifier : Specifier) : Prop
  | failed {error : ModuleError} (failed : first.errors.get? specifier = some error)
  | left {record : ModuleRecord} (isLeaf : leaf specifier)
      (found : first.workspace.graph.get? specifier = some record)
      (left : record.IsLeftAlone specifier) (unstaged : first.staged.get? specifier = none)
      (clear : first.errors.get? specifier = none)
  | due {image : Image} {record : ModuleRecord}
      (due : Due known modules leaf first specifier image record)

def settleAll (pass : Pass) (report : PassReport) (work : List Specifier) : Pass × PassReport :=
  work.foldl (fun (pass, report) specifier => pass.settleOne report specifier) (pass, report)

theorem settle_eq (pass : Pass) (touched : List Specifier) :
    pass.settle touched =
      let (last, report) := settleAll pass {} touched
      ({ report with
          outcomes := last.outcomes touched
          transpiled := last.transpiled
          reused := last.reused
          loads := last.loads.reverse
          transpilerCalls := last.transpilerCalls.reverse }, last.workspace) :=
  rfl

theorem settling_settleAll (scope : Scope known modules leaf) {first : Pass}
    (indexed : first.workspace.graph.Indexed) (tokens : HasTokens first.workspace.graph)
    (work : List Specifier) (settleable : ∀ specifier ∈ work, Settleable known modules leaf first specifier)
    (nodup : work.Nodup) (pass : Pass) (report : PassReport) (done : List Specifier)
    (fresh : ∀ specifier ∈ work, specifier ∉ done)
    (settling : Settling known modules leaf first pass done report) :
    let (after, report') := settleAll pass report work
    Settling known modules leaf first after (work.reverse ++ done) report' := by
  induction work generalizing pass report done with
  | nil => exact settling
  | cons specifier rest ih =>
    have absent := fresh specifier List.mem_cons_self
    obtain ⟨notLater, nodup'⟩ := List.nodup_cons.1 nodup
    have one : SettlesOne known modules leaf first pass report specifier := by
      cases settleable specifier List.mem_cons_self with
      | failed failed => exact settlesOne_failed settling absent failed
      | left isLeaf found left unstaged clear =>
        exact settlesOne_left settling absent isLeaf found left unstaged clear
      | due due => exact settlesOne_due settling absent scope indexed tokens due
    obtain ⟨settles, settled, reports⟩ := one
    have later := ih (fun other member => settleable other (List.mem_cons_of_mem _ member)) nodup'
      (pass.settleOne report specifier).1 (pass.settleOne report specifier).2 (specifier :: done)
      (fun other member => by
        rintro (_ | ⟨_, old⟩)
        · exact notLater member
        · exact fresh other (List.mem_cons_of_mem _ member) old)
      (settling.step indexed absent settles settled reports)
    rw [List.reverse_cons, List.append_assoc, List.singleton_append]
    exact later

end Pass

end ModuleBuild
