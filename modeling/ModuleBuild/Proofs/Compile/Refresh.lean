import ModuleBuild.Proofs.Compile.Stamps
/-!
What refreshing a module does, all at once: the record it leaves, the code it files, and everything it
leaves alone.
-/

namespace ModuleBuild

namespace ArtifactStore

variable {store : ArtifactStore}

theorem attempt_eq (inOrder : store.faults = .empty) {α : Type} (operation : StoreOperation)
    (result : α) (after : ArtifactStore) :
    store.attempt operation result after = (.ok result, after) := by
  simp [attempt, inOrder]

structure SameSetup (first second : ArtifactStore) : Prop where
  faults : second.faults = first.faults
  metadata : second.metadata = first.metadata
  keepsText : second.keepsText = first.keepsText

theorem SameSetup.refl (store : ArtifactStore) : SameSetup store store := ⟨rfl, rfl, rfl⟩

theorem SameSetup.trans {first second third : ArtifactStore} (one : SameSetup first second)
    (two : SameSetup second third) : SameSetup first third :=
  ⟨two.faults.trans one.faults, two.metadata.trans one.metadata,
    two.keepsText.trans one.keepsText⟩

end ArtifactStore

namespace Workspace

open ArtifactStore

theorem file_ok {store : ArtifactStore} (inOrder : store.faults = .empty) (key : String)
    (code : Bytes) (oldKey? : Option String) :
    ∃ after, file store key code oldKey? = (.ok (), after) ∧ SameSetup store after ∧
      after.sidecars = store.sidecars ∧ after.blobs.get? key = some code ∧
      (∀ other, other ≠ key → oldKey? ≠ some other →
        after.blobs.get? other = store.blobs.get? other) ∧
      ∀ oldKey, oldKey? = some oldKey → oldKey ≠ key → after.blobs.get? oldKey = none := by
  simp only [file, put, attempt_eq inOrder]
  cases oldKey? with
  | none =>
    refine ⟨_, rfl, ⟨rfl, rfl, rfl⟩, rfl, by simp [OrderedMap.get?_insert], ?_, ?_⟩
    · intro other distinct _
      rw [OrderedMap.get?_insert, if_neg (Ne.symm distinct)]
    · rintro _ ⟨⟩
  | some oldKey =>
    by_cases same : oldKey = key
    · simp only [if_pos same]
      refine ⟨_, rfl, ⟨rfl, rfl, rfl⟩, rfl, by simp [OrderedMap.get?_insert], ?_, ?_⟩
      · intro other distinct _
        rw [OrderedMap.get?_insert, if_neg (Ne.symm distinct)]
      · rintro _ ⟨⟩ differ
        exact absurd same differ
    · have inOrder' : ({ store with
          blobs := store.blobs.insert key code
          blobWrites := store.blobWrites + 1 } : ArtifactStore).faults = .empty := inOrder
      simp only [if_neg same, ArtifactStore.remove, attempt_eq inOrder']
      refine ⟨_, rfl, ⟨rfl, rfl, rfl⟩, rfl, ?_, ?_, ?_⟩
      · rw [OrderedMap.get?_erase, if_neg same, OrderedMap.get?_insert, if_pos rfl]
      · intro other distinct old
        have kept : oldKey ≠ other := fun equal => old (congrArg some equal)
        rw [OrderedMap.get?_erase, if_neg kept, OrderedMap.get?_insert, if_neg (Ne.symm distinct)]
      · rintro _ ⟨⟩ _
        rw [OrderedMap.get?_erase, if_pos rfl]

/-- A module was refreshed: `result` is its new record, `hash` its content hash, and `code` what was
stamped. -/
structure Refreshes (before after : Workspace) (record result : ModuleRecord) (hash : String)
    (code : Bytes) : Prop where
  hashed : before.graph.contentHash? record.specifier = some hash
  get? : ∀ other, after.graph.get? other =
    if record.specifier = other then some result else before.graph.get? other
  importers : after.graph.importers = before.graph.importers
  updated : ∃ length, result =
      { record with
        contentHash := hash
        output? := some ⟨artifactKey record.specifier hash, length⟩
        state := .ready } ∧
    (length = code.length ∨ record.output? = some ⟨artifactKey record.specifier hash, length⟩)
  stored : ∃ written, after.store.blobs.get? (artifactKey record.specifier hash) = some written ∧
    AgreeOutside (stampSlots before.graph record.dependencies) code written ∧
    Stamped before.graph record.dependencies written
  blobs : ∀ key, key ≠ artifactKey record.specifier hash →
    (∀ old, record.output? = some old → key ≠ old.key) →
    after.store.blobs.get? key = before.store.blobs.get? key
  /-- Of one module no more than one output is kept. -/
  dropped : ∀ old, record.output? = some old → old.key ≠ artifactKey record.specifier hash →
    after.store.blobs.get? old.key = none
  sidecars : ∀ other, other ≠ record.specifier →
    after.store.sidecars.get? other = before.store.sidecars.get? other
  /-- The sidecar is written anew, unless nothing of what is stored changes. -/
  sidecar : after.store.sidecars.get? record.specifier =
      some (Sidecar.ofRecord result (externalsFrom before.graph record.dependencies)) ∨
    after.store.sidecars.get? record.specifier = before.store.sidecars.get? record.specifier ∧
      ∀ key, after.store.blobs.get? key = before.store.blobs.get? key
  rewritten : (∀ old, record.output? = some old → old.key ≠ artifactKey record.specifier hash) →
    after.store.sidecars.get? record.specifier =
      some (Sidecar.ofRecord result (externalsFrom before.graph record.dependencies))
  setup : SameSetup before.store after.store
  isSpoiled : after.isSpoiled = before.isSpoiled

theorem outputKey_of_output? {record : ModuleRecord} {output : OutputReference}
    (own : record.output? = some output) : outputKey record = output.key := by
  rw [outputKey, own, Option.map_some, Option.getD_some]

/-- The record of a module with a new content hash and new output. -/
def settledRecord (hash : String) (output : OutputReference) (record : ModuleRecord) :
    ModuleRecord :=
  { record with contentHash := hash, output? := some output, state := .ready }

section Settle

variable {workspace : Workspace} (inOrder : workspace.store.faults = .empty) {record : ModuleRecord}
  (found : workspace.graph.get? record.specifier = some record) {hash : String}
  (hashed : workspace.graph.contentHash? record.specifier = some hash) {isFresh : Bool} {code : Bytes}
  {patched : Patched}
  (agree : AgreeOutside (stampSlots workspace.graph record.dependencies) code patched.code)
  (stamped : Stamped workspace.graph record.dependencies patched.code)
  (externals : patched.externals = externalsFrom workspace.graph record.dependencies)

include found in
theorem get?_settled (hash : String) (output : OutputReference) (other : Specifier) :
    (workspace.graph.modify record.specifier (settledRecord hash output)).get? other =
      if record.specifier = other then some (settledRecord hash output record)
      else workspace.graph.get? other := by
  rw [ModuleGraph.get?_modify, found, Option.map_some]

include inOrder found hashed agree stamped externals

/-- Code that is new, or whose slots or key changed, is filed along with a sidecar. -/
theorem settle_written
    (mustWrite : (isFresh || patched.isChanged ||
      record.output?.map (·.key) != some (artifactKey record.specifier hash)) = true) :
    ∃ refreshed after, workspace.settle record isFresh patched = (.ok (some refreshed), after) ∧
      Refreshes workspace after record refreshed.record hash code ∧
      refreshed.hashChanged = (record.contentHash != hash) ∧ refreshed.missing = patched.missing ∧
      (∀ output, refreshed.record.output? = some output → output.length = code.length) ∧
        ∃ sidecar, after.store.sidecars.get? record.specifier = some sidecar := by
  have changed := get?_settled found hash
    ⟨artifactKey record.specifier hash, patched.code.length⟩
  have update := ModuleGraph.update_of_get?
    (settledRecord hash ⟨artifactKey record.specifier hash, patched.code.length⟩) found
  unfold settledRecord at update changed
  obtain ⟨store, filed, setup, sidecars, stored, blobs, dropped⟩ := file_ok inOrder
    (artifactKey record.specifier hash) patched.code (record.output?.map (·.key))
  have inOrder' : store.faults = .empty := setup.faults.trans inOrder
  have noted (result : ModuleRecord) : (store.sidecars.insert record.specifier
      (Sidecar.ofRecord result patched.externals)).get? record.specifier =
        some (Sidecar.ofRecord result (externalsFrom workspace.graph record.dependencies)) := by
    rw [OrderedMap.get?_insert, externals]
    exact if_pos rfl
  simp only [settle, hashed, Option.getD_some, mustWrite, if_true, filed, Nat.one_ne_zero, false_and,
    if_false, Nat.zero_lt_one, true_or, update, putSidecar, attempt_eq inOrder']
  refine ⟨_, _, rfl, ⟨hashed, changed, ModuleGraph.modify_keeps_importers fun _ _ => rfl,
    ⟨_, rfl, .inl agree.length.symm⟩, ⟨_, stored, agree, stamped⟩, ?_, ?_, ?_, .inl (noted _),
    fun _ => noted _, ?_, rfl⟩, rfl, rfl, ?_, _, noted _⟩
  · intro other distinct old
    refine blobs other distinct fun same => ?_
    obtain ⟨output, own, equal⟩ := Option.map_eq_some_iff.1 same
    exact old output own equal.symm
  · exact fun old own => dropped old.key (by rw [own, Option.map_some])
  · intro other distinct
    rw [OrderedMap.get?_insert, sidecars]
    exact if_neg (Ne.symm distinct)
  · exact ⟨setup.faults, setup.metadata, setup.keepsText⟩
  · rintro _ ⟨⟩
    exact agree.length.symm

/-- Code that is up to date stays where it is. The sidecar is written anew if the content hash moved. -/
theorem settle_kept {length : Nat}
    (own : record.output? = some ⟨artifactKey record.specifier hash, length⟩)
    (stored : workspace.store.blobs.get? (artifactKey record.specifier hash) = some code)
    (notFresh : isFresh = false) (notChanged : patched.isChanged = false) (same : patched.code = code) :
    ∃ refreshed after, workspace.settle record isFresh patched = (.ok (some refreshed), after) ∧
      Refreshes workspace after record refreshed.record hash code ∧
      refreshed.hashChanged = (record.contentHash != hash) ∧ refreshed.missing = patched.missing := by
  have changed := get?_settled found hash
    ⟨artifactKey record.specifier hash, patched.code.length⟩
  have update := ModuleGraph.update_of_get?
    (settledRecord hash ⟨artifactKey record.specifier hash, patched.code.length⟩) found
  unfold settledRecord at update changed
  rw [same] at agree stamped
  have single : ∀ old, record.output? = some old → old.key = artifactKey record.specifier hash := by
    intro old own'
    rw [own, Option.some.injEq] at own'
    rw [← own']
  simp only [settle, hashed, Option.getD_some, notFresh, notChanged, own, Option.map_some,
    bne_self_eq_false, Bool.or_self, Bool.false_eq_true, if_false, true_and, Nat.lt_irrefl, false_or]
  -- nothing is written if the record is as it should be; only the sidecar is if the hash moved
  by_cases idle : record.contentHash = hash ∧ record.isReady = true
  · obtain ⟨rfl, ready⟩ := idle
    have state : record.state = .ready := by simpa [ModuleRecord.isReady] using ready
    rw [if_pos (by simp [ready])]
    refine ⟨_, _, rfl, ⟨hashed, ?_, rfl, ⟨length, ?_, .inr own⟩, ⟨code, stored, agree, stamped⟩,
      fun _ _ _ => rfl, fun old own moved => absurd (single old own) moved, fun _ _ => rfl,
      .inr ⟨rfl, fun _ => rfl⟩, fun moved => absurd rfl (moved _ own), .refl _, rfl⟩, rfl, rfl⟩
    · intro other
      split
      · next equal => rw [← equal, found]
      · rfl
    · rw [← own, ← state]
  · rw [if_neg (by simpa using idle)]
    simp only [update]
    by_cases moved : (record.contentHash != hash) = true
    · simp only [moved, if_true, putSidecar, attempt_eq inOrder]
      refine ⟨_, _, rfl, ⟨hashed, changed, ModuleGraph.modify_keeps_importers fun _ _ => rfl,
        ⟨_, rfl, .inl (congrArg _ same)⟩, ⟨code, stored, agree, stamped⟩, fun _ _ _ => rfl,
        fun old own moved => absurd (single old own) moved, ?_, .inl ?_,
        fun moved => absurd rfl (moved _ own), ⟨rfl, rfl, rfl⟩, rfl⟩, rfl, rfl⟩
      · intro other distinct
        rw [OrderedMap.get?_insert]
        exact if_neg (Ne.symm distinct)
      · rw [OrderedMap.get?_insert, externals]
        exact if_pos rfl
    · simp only [moved, Bool.false_eq_true, if_false]
      exact ⟨_, _, rfl, ⟨hashed, changed, ModuleGraph.modify_keeps_importers fun _ _ => rfl,
        ⟨_, rfl, .inl (congrArg _ same)⟩, ⟨code, stored, agree, stamped⟩, fun _ _ _ => rfl,
        fun old own moved => absurd (single old own) moved, fun _ _ => rfl, .inr ⟨rfl, fun _ => rfl⟩,
        fun moved => absurd rfl (moved _ own), .refl _, rfl⟩, rfl, rfl⟩

theorem settle_ok (isFresh : Bool)
    (kept : isFresh = false → workspace.store.blobs.get? (outputKey record) = some code)
    (unchanged : patched.isChanged = false → patched.code = code) :
    ∃ refreshed after, workspace.settle record isFresh patched = (.ok (some refreshed), after) ∧
      Refreshes workspace after record refreshed.record hash code ∧
      refreshed.hashChanged = (record.contentHash != hash) ∧ refreshed.missing = patched.missing ∧
      (isFresh = true → (∀ output, refreshed.record.output? = some output →
          output.length = code.length) ∧
        ∃ sidecar, after.store.sidecars.get? record.specifier = some sidecar) := by
  by_cases mustWrite : (isFresh || patched.isChanged ||
      record.output?.map (·.key) != some (artifactKey record.specifier hash)) = true
  · obtain ⟨refreshed, after, settled, refreshes, changed, missing, written⟩ :=
      settle_written inOrder found hashed agree stamped externals mustWrite
    exact ⟨refreshed, after, settled, refreshes, changed, missing, fun _ => written⟩
  · simp only [Bool.or_eq_true, not_or, Bool.not_eq_true, bne_eq_false_iff_eq] at mustWrite
    obtain ⟨⟨notFresh, notChanged⟩, sameKey⟩ := mustWrite
    obtain ⟨⟨key, length⟩, own, rfl⟩ := Option.map_eq_some_iff.1 sameKey
    have stored := kept notFresh
    rw [outputKey_of_output? own] at stored
    obtain ⟨refreshed, after, settled, refreshes, changed, missing⟩ :=
      settle_kept inOrder found hashed agree stamped externals own stored notFresh notChanged
        (unchanged notChanged)
    refine ⟨refreshed, after, settled, refreshes, changed, missing, fun fresh => ?_⟩
    rw [notFresh] at fresh
    cases fresh

end Settle

variable {before after : Workspace} {record result : ModuleRecord} {hash : String} {code : Bytes}

/-- A refresh succeeds on a module that takes part in content hashes, when there is code for it that
the stamps of its edges fit. -/
theorem refresh_of_stampsFit (inOrder : before.store.faults = .empty)
    (found : before.graph.get? record.specifier = some record) (folds : record.folds)
    (cuts : CutsTokens before.graph) (fit : StampsFit before.graph record.dependencies code.length)
    (apart : SlotsApart record.dependencies) {staged? : Option Bytes}
    (source : staged? = some code ∨
      staged? = none ∧ before.store.blobs.get? (outputKey record) = some code) :
    ∃ refreshed after hash, before.refresh record.specifier staged? =
        (.ok (some refreshed), after) ∧
      Refreshes before after record refreshed.record hash code ∧
      refreshed.hashChanged = (record.contentHash != hash) ∧
      refreshed.missing = missingFrom before.graph record.specifier record.dependencies ∧
      (staged?.isSome → (∀ output, refreshed.record.output? = some output →
          output.length = code.length) ∧
        ∃ sidecar, after.store.sidecars.get? record.specifier = some sidecar) := by
  obtain ⟨patched, patches, agree, stamped, missing, externals, unchanged⟩ :=
    patchEdges_ok cuts fit apart
  obtain ⟨imports, hashed⟩ :=
    ModuleGraph.contentHash?_eq_some (ModuleGraph.foldView?_of_get? found folds)
  unfold refresh
  simp only [found, folds, Bool.not_true, Bool.false_eq_true, if_false]
  rcases source with rfl | ⟨rfl, stored⟩
  · obtain ⟨refreshed, after, settled, refreshes, changed, reported, length⟩ :=
      settle_ok inOrder found hashed agree stamped externals true (by simp) unchanged
    simp only [patches]
    exact ⟨refreshed, after, _, settled, refreshes, changed, reported.trans missing,
      fun _ => length rfl⟩
  · have read : storedCode before.store record =
        (.ok code, { before.store with blobReads := before.store.blobReads + 1 }) := by
      simp [storedCode, ArtifactStore.get, attempt_eq inOrder, stored]
    let opened : Workspace :=
      { before with store := { before.store with blobReads := before.store.blobReads + 1 } }
    obtain ⟨refreshed, after, settled, refreshes, changed, reported, -⟩ :=
      @settle_ok opened inOrder _ found _ hashed _ _ agree stamped externals false
        (fun _ => stored) unchanged
    simp only [read, patches]
    exact ⟨refreshed, after, _, settled,
      { refreshes with
        setup := ⟨refreshes.setup.faults, refreshes.setup.metadata, refreshes.setup.keepsText⟩ },
      changed, reported.trans missing, by simp⟩

/-- A refresh succeeds on a module that takes part in content hashes, when there is code for it that
the slots of its edges fit. -/
theorem refresh_ok (inOrder : before.store.faults = .empty)
    (found : before.graph.get? record.specifier = some record) (folds : record.folds)
    (tokens : HasTokens before.graph) (fit : SlotsFit record.dependencies code.length)
    {staged? : Option Bytes}
    (source : staged? = some code ∨ staged? = none ∧ ∃ output, record.output? = some output ∧
      before.store.blobs.get? output.key = some code) :
    ∃ refreshed after hash, before.refresh record.specifier staged? =
        (.ok (some refreshed), after) ∧
      Refreshes before after record refreshed.record hash code ∧
      refreshed.hashChanged = (record.contentHash != hash) ∧
      refreshed.missing = missingFrom before.graph record.specifier record.dependencies ∧
      (staged?.isSome → (∀ output, refreshed.record.output? = some output →
          output.length = code.length) ∧
        ∃ sidecar, after.store.sidecars.get? record.specifier = some sidecar) := by
  refine refresh_of_stampsFit inOrder found folds tokens.cuts (.of_slotsFit tokens fit) fit.slotsApart
    (source.imp_right ?_)
  rintro ⟨none, output, own, stored⟩
  exact ⟨none, outputKey_of_output? own ▸ stored⟩

theorem refresh_idle {specifier : Specifier} (idle : before.graph.foldView? specifier = none)
    (staged? : Option Bytes) : before.refresh specifier staged? = (.ok none, before) := by
  unfold ModuleGraph.foldView? at idle
  unfold refresh
  cases found : before.graph.get? specifier with
  | none => rfl
  | some record =>
    simp only [found] at idle ⊢
    split at idle
    · cases idle
    · next blocked => simp [blocked]

namespace Refreshes

variable (refreshes : Refreshes before after record result hash code)

include refreshes

theorem get?_self : after.graph.get? record.specifier = some result := by
  rw [refreshes.get?, if_pos rfl]

theorem get?_other {other : Specifier} (distinct : other ≠ record.specifier) :
    after.graph.get? other = before.graph.get? other := by
  rw [refreshes.get?, if_neg (Ne.symm distinct)]

theorem specifier : result.specifier = record.specifier := by
  obtain ⟨length, rfl, -⟩ := refreshes.updated
  rfl

theorem length (before : ∀ output, record.output? = some output → output.length = code.length) :
    ∀ output, result.output? = some output → output.length = code.length := by
  obtain ⟨length, rfl, same | old⟩ := refreshes.updated
  · rintro _ ⟨⟩
    exact same
  · rintro _ ⟨⟩
    exact before _ old

theorem dependencies : result.dependencies = record.dependencies := by
  obtain ⟨length, rfl, -⟩ := refreshes.updated
  rfl

theorem foldView? (found : before.graph.get? record.specifier = some record)
    (other : Specifier) : after.graph.foldView? other = before.graph.foldView? other := by
  obtain ⟨length, rfl, -⟩ := refreshes.updated
  by_cases same : other = record.specifier
  · subst same
    simp [ModuleGraph.foldView?, refreshes.get?_self, found, ModuleRecord.folds,
      ModuleRecord.staticDependencies]
  · exact ModuleGraph.foldView?_congr (refreshes.get?_other same)

theorem contentHash? (found : before.graph.get? record.specifier = some record)
    (other : Specifier) : after.graph.contentHash? other = before.graph.contentHash? other :=
  ModuleGraph.contentHash?_congr fun _ _ => refreshes.foldView? found _

theorem graph_dependencies (found : before.graph.get? record.specifier = some record)
    (other : Specifier) : after.graph.dependencies other = before.graph.dependencies other := by
  by_cases same : other = record.specifier
  · subst same
    rw [ModuleGraph.dependencies_of_get? refreshes.get?_self, refreshes.dependencies,
      ModuleGraph.dependencies_of_get? found]
  · exact ModuleGraph.dependencies_congr (refreshes.get?_other same)

theorem indexed (found : before.graph.get? record.specifier = some record)
    (indexed : before.graph.Indexed) : after.graph.Indexed := by
  refine indexed.of_same_edges refreshes.importers (refreshes.graph_dependencies found) ?_
  intro other changed located
  by_cases same : other = record.specifier
  · subst same
    rw [refreshes.get?_self] at located
    rw [← Option.some.inj located, refreshes.specifier]
  · rw [refreshes.get?_other same] at located
    exact indexed.keyed located

theorem stamped_iff (found : before.graph.get? record.specifier = some record)
    (edges : List DependencyEdge) (written : Bytes) :
    Stamped after.graph edges written ↔ Stamped before.graph edges written := by
  have same := refreshes.contentHash? found
  exact ⟨fun stamped => stamped.congr fun edge _ _ => (same edge.target).symm,
    fun stamped => stamped.congr fun edge _ _ => same edge.target⟩

end Refreshes

end Workspace

end ModuleBuild
