import ModuleBuild.Proofs.Compile.Origins
import ModuleBuild.Proofs.Compile.CallHistory
/-!
What a build and a refresh do to the record of a module and to what is noted of it in its sidecar, whatever the
store does.
-/

namespace ModuleBuild

open ModuleGraph Workspace ArtifactStore

/-! ## Sidecars -/

def Sidecar.ReadsAs (keepsText : Bool) (sidecar again : Sidecar) : Prop :=
  if keepsText then sidecar.reread = .ok again else again = sidecar

theorem Sidecar.ReadsAs.same {keepsText : Bool} {sidecar again : Sidecar}
    (reads : sidecar.ReadsAs keepsText again)
    (readBack : keepsText = true → (∀ edge ∈ sidecar.dependencies, ReadBack edge.target) ∧
      ∀ target ∈ sidecar.externals, ReadBack target) :
    again.dependencies = sidecar.dependencies ∧ again.externals = sidecar.externals := by
  unfold ReadsAs at reads
  split at reads
  · next text =>
    obtain ⟨targets, externals⟩ := readBack text
    rw [Sidecar.reread, mapM_target_eq_ok targets, mapM_eq_ok externals] at reads
    cases own : Specifier.parse sidecar.specifier.text with
    | error error =>
      rw [own] at reads
      cases reads
    | ok specifier =>
      rw [own] at reads
      cases reads
      exact ⟨rfl, rfl⟩
  · exact reads ▸ ⟨rfl, rfl⟩

namespace ArtifactStore

/-- One store has the sidecars of another, and keeps them alike. -/
structure SameSidecars (first second : ArtifactStore) : Prop where
  sidecars : second.sidecars = first.sidecars
  keepsText : second.keepsText = first.keepsText

theorem SameSidecars.refl (store : ArtifactStore) : SameSidecars store store := ⟨rfl, rfl⟩

theorem SameSidecars.trans {first second third : ArtifactStore} (one : SameSidecars first second)
    (two : SameSidecars second third) : SameSidecars first third :=
  ⟨two.sidecars.trans one.sidecars, two.keepsText.trans one.keepsText⟩

theorem sameSidecars_attempt {α : Type} {store after : ArtifactStore} (same : SameSidecars store after)
    (operation : StoreOperation) (result : α) :
    SameSidecars store (store.attempt operation result after).2 := by
  unfold attempt
  split
  · exact .refl store
  · exact same

theorem sameSidecars_contains (store : ArtifactStore) (key : String) :
    SameSidecars store (store.contains key).2 :=
  @sameSidecars_attempt _ store { store with blobReads := store.blobReads + 1 } ⟨rfl, rfl⟩ .contains _

theorem sameSidecars_get (store : ArtifactStore) (key : String) : SameSidecars store (store.get key).2 :=
  @sameSidecars_attempt _ store { store with blobReads := store.blobReads + 1 } ⟨rfl, rfl⟩ .get _

theorem sameSidecars_put (store : ArtifactStore) (key : String) (code : Bytes) :
    SameSidecars store (store.put key code).2 :=
  @sameSidecars_attempt _ store
    { store with blobs := store.blobs.insert key code, blobWrites := store.blobWrites + 1 }
    ⟨rfl, rfl⟩ .put ()

theorem sameSidecars_remove (store : ArtifactStore) (key : String) :
    SameSidecars store (store.remove key).2 :=
  @sameSidecars_attempt _ store { store with blobs := store.blobs.erase key } ⟨rfl, rfl⟩ .remove ()

def Offers (store : ArtifactStore) (specifier : Specifier) (again : Sidecar) : Prop :=
  ∃ sidecar, store.sidecars.get? specifier = some sidecar ∧ sidecar.ReadsAs store.keepsText again

theorem SameSidecars.offers {first second : ArtifactStore} (same : SameSidecars first second)
    {specifier : Specifier} {again : Sidecar} (offers : second.Offers specifier again) :
    first.Offers specifier again := by
  unfold Offers at offers ⊢
  rwa [← same.sidecars, ← same.keepsText]

theorem offers_getSidecar (store : ArtifactStore) (specifier : Specifier) :
    let (result, after) := store.getSidecar specifier
    SameSidecars store after ∧ ∀ again, result = .ok (some again) → store.Offers specifier again := by
  unfold getSidecar attempt
  cases store.faults.get? .getSidecar with
  | some reason => exact ⟨.refl store, nofun⟩
  | none =>
    cases there : store.sidecars.get? specifier with
    | none => exact ⟨.refl store, nofun⟩
    | some sidecar =>
      dsimp only
      split
      · next text =>
        refine ⟨.refl store, fun again read => ⟨sidecar, there, ?_⟩⟩
        rw [Sidecar.ReadsAs, if_pos text]
        cases reread : sidecar.reread with
        | error error => simp [reread, Except.mapError, Except.map] at read
        | ok result => simpa [reread, Except.mapError, Except.map] using read
      · next whole =>
        refine ⟨.refl store, ?_⟩
        rintro again ⟨⟩
        exact ⟨sidecar, there, by rw [Sidecar.ReadsAs, if_neg whole]⟩

end ArtifactStore

namespace Pass

/-- Earlier output is that of the record itself, or what a sidecar tells. -/
def Restored.ComesFrom (offered : Sidecar → Prop) (record : ModuleRecord) (restored : Restored) : Prop :=
  restored.dependencies = record.dependencies ∧ restored.externals = [] ∨
    ∃ again, offered again ∧ restored.dependencies = again.dependencies ∧
      restored.externals = again.externals

theorem comesFrom_restoreSidecar? (store : ArtifactStore) (record : ModuleRecord) (source : String) :
    let (result, after) := restoreSidecar? store record.specifier source
    SameSidecars store after ∧ ∀ restored, result = .ok (some restored) →
      Restored.ComesFrom (store.Offers record.specifier) record restored := by
  have offers := store.offers_getSidecar record.specifier
  unfold restoreSidecar?
  generalize store.getSidecar record.specifier = given at offers ⊢
  obtain ⟨_ | sidecar?, after⟩ := given
  · exact ⟨offers.1, nofun⟩
  cases sidecar? with
  | none => exact ⟨offers.1, nofun⟩
  | some sidecar =>
    dsimp only
    cases sidecar.output? with
    | none => exact ⟨offers.1, nofun⟩
    | some output =>
      dsimp only
      split
      · exact ⟨offers.1, nofun⟩
      · have reads := after.sameSidecars_contains output.key
        generalize after.contains output.key = contains at reads ⊢
        obtain ⟨_ | _ | _, last⟩ := contains
        · exact ⟨offers.1.trans reads, nofun⟩
        · exact ⟨offers.1.trans reads, nofun⟩
        · refine ⟨offers.1.trans reads, ?_⟩
          rintro restored ⟨⟩
          exact .inr ⟨sidecar, offers.2 sidecar rfl, rfl, rfl⟩

theorem comesFrom_restore? (store : ArtifactStore) (record : ModuleRecord) (source : String) :
    let (result, after) := restore? store record source
    SameSidecars store after ∧ ∀ restored, result = .ok (some restored) →
      Restored.ComesFrom (store.Offers record.specifier) record restored := by
  have sidecar (first : ArtifactStore) := comesFrom_restoreSidecar? first record source
  unfold restore?
  cases record.output? with
  | none => exact sidecar store
  | some output =>
    dsimp only
    split
    · exact sidecar store
    · have reads := store.sameSidecars_contains output.key
      generalize store.contains output.key = contains at reads ⊢
      obtain ⟨_ | _ | _, middle⟩ := contains
      · exact ⟨reads, nofun⟩
      · obtain ⟨same, comes⟩ := sidecar middle
        refine ⟨reads.trans same, fun restored taken => (comes restored taken).imp_right ?_⟩
        rintro ⟨again, offers, rest⟩
        exact ⟨again, reads.offers offers, rest⟩
      · refine ⟨reads, ?_⟩
        rintro restored ⟨⟩
        exact .inl ⟨rfl, rfl⟩

/-! ## Builds -/

/-- What a build makes of the record of a module. It can only come out as a module that is left alone if it was
itself among those that it leaves alone. -/
structure BuildsRecord (tools : Toolchain) (offered : Sidecar → Prop) (old new : ModuleRecord) : Prop where
  specifier : new.specifier = old.specifier
  pending : new.state = .pending
  source : ∃ bytes, new.sourceHash = sourceHash bytes
  imports : ∀ edge ∈ new.dependencies, edge ∈ old.dependencies ∨
    (∃ item ∈ tools.resolutions old.specifier, item.2.specifier = edge.target) ∨
    ∃ again, offered again ∧ edge ∈ again.dependencies
  spared : new.isExternal = true →
    ¬ tools.SparesItself old.specifier ∨
      old.sourceHash = "" ∧ ∃ again, offered again ∧ old.specifier ∈ again.externals

theorem BuildsRecord.mono {tools : Toolchain} {offered more : Sidecar → Prop} {old new : ModuleRecord}
    (builds : BuildsRecord tools offered old new) (wider : ∀ again, offered again → more again) :
    BuildsRecord tools more old new where
  specifier := builds.specifier
  pending := builds.pending
  source := builds.source
  imports edge member := by
    refine (builds.imports edge member).imp_right (.imp_right ?_)
    rintro ⟨again, offers, inside⟩
    exact ⟨again, wider again offers, inside⟩
  spared left := by
    refine (builds.spared left).imp_right ?_
    rintro ⟨unloaded, again, offers, listed⟩
    exact ⟨unloaded, again, wider again offers, listed⟩

theorem not_sparesItself {tools : Toolchain} {specifier : Specifier}
    (listed : specifier ∈ externalsOf (tools.resolutions specifier)) : ¬ tools.SparesItself specifier := by
  intro spares
  obtain ⟨item, inside, same⟩ := List.mem_map.1 listed
  obtain ⟨member, left⟩ := List.mem_filter.1 inside
  exact spares item member left same

/-- All that a build does to the record of the module and to sidecars. -/
structure BuildsOwn (tools : Toolchain) (record : ModuleRecord)
    (result : Except ModuleError (List Specifier)) (before after : Pass) : Prop where
  sidecars : SameSidecars before.workspace.store after.workspace.store
  error : ∀ error, result = .error error →
    after.workspace.graph.get? record.specifier = some record ∨
      after.workspace.graph.get? record.specifier = some (.external record.specifier) ∧
        ¬ tools.SparesItself record.specifier
  ok : ∀ targets, result = .ok targets → ∃ new, after.workspace.graph.get? record.specifier = some new ∧
    BuildsRecord tools (before.workspace.store.Offers record.specifier) record new

section

variable {tools : Toolchain} {before pass : Pass} {record : ModuleRecord}
  (found : pass.workspace.graph.get? record.specifier = some record)
  (sidecars : SameSidecars before.workspace.store pass.workspace.store)

include found sidecars

theorem BuildsOwn.of_kept (error : ModuleError) : BuildsOwn tools record (.error error) before pass :=
  ⟨sidecars, fun _ _ => .inl found, nofun⟩

variable (compiled : record.isExternal = false)

include compiled

theorem buildsOwn_reuse {source : Bytes} {restored : Restored}
    (comes : Restored.ComesFrom (before.workspace.store.Offers record.specifier) record restored) :
    let (after, targets) := pass.reuse record.specifier (sourceHash source) restored
    BuildsOwn tools record (.ok targets) before after := by
  refine ⟨sidecars, nofun, fun targets _ => ?_⟩
  obtain ⟨old, there, same⟩ := get?_install found restored.externals
    (fun record => { record with
      kind? := restored.kind?
      sourceHash := sourceHash source
      dependencies := restored.dependencies
      flags := restored.flags
      output? := restored.output?
      state := .pending })
    (fun _ => sourceHash_ne source) (distinctTargets restored.dependencies)
  refine ⟨_, there, ?_, rfl, ⟨source, rfl⟩, fun edge member => ?_, fun left => ?_⟩
  · rcases same with rfl | ⟨rfl, -⟩ <;> rfl
  · rcases comes with ⟨edges, -⟩ | ⟨again, offers, edges, -⟩
    · exact .inl (edges ▸ member)
    · exact .inr (.inr ⟨again, offers, edges ▸ member⟩)
  · rcases same with rfl | ⟨-, unloaded, listed⟩
    · cases compiled.symm.trans left
    · rcases comes with ⟨-, none⟩ | ⟨again, offers, -, externals⟩
      · rw [none] at listed
        cases listed
      · exact .inr ⟨unloaded, again, offers, externals ▸ listed⟩

theorem buildsOwn_compileOutput {loaded : Source} {output : Transpiled}
    (transpiled : tools.transpiled? record.specifier = .ok (loaded, output)) :
    let (result, after) :=
      pass.compileOutput tools.resolver record.specifier (sourceHash loaded.bytes) loaded.kind output
    BuildsOwn tools record result before after := by
  cases is : tools.image? record.specifier with
  | error error =>
    rw [compileOutput_error transpiled is]
    refine ⟨sidecars, fun _ _ => ?_, nofun⟩
    obtain ⟨old, there, rfl | ⟨rfl, -, listed⟩⟩ :=
      get?_mentionExternals found (externalsOf (tools.resolutions record.specifier))
    · exact .inl there
    · exact .inr ⟨there, not_sparesItself listed⟩
  | ok image =>
    rw [compileOutput_ok transpiled is]
    refine ⟨sidecars, nofun, fun targets _ => ?_⟩
    have resolutions := Toolchain.resolutions_of_image? is
    obtain ⟨old, there, same⟩ := get?_install found image.externals (prepare image)
      (fun _ => image.source_ne) (distinctTargets image.edges)
    refine ⟨prepare image old, there, ?_, rfl, ⟨image.bytes, rfl⟩, fun edge member => .inr (.inl ?_),
      fun left => .inl ?_⟩
    · rcases same with rfl | ⟨rfl, -⟩ <;> rfl
    · rw [resolutions]
      exact image.mem_edges member
    · rcases same with rfl | ⟨-, -, listed⟩
      · cases compiled.symm.trans left
      · exact fun spares => spares.not_mem_externals is listed

end

theorem buildsOwn_build (tools : Toolchain) (pass : Pass) {record : ModuleRecord}
    (found : pass.workspace.graph.get? record.specifier = some record)
    (compiled : record.isExternal = false) :
    let (result, after) := pass.build tools record
    BuildsOwn tools record result pass after := by
  have kept (error : ModuleError) (after : Pass) (graph : after.workspace.graph = pass.workspace.graph)
      (sidecars : SameSidecars pass.workspace.store after.workspace.store) :
      BuildsOwn tools record (.error error) pass after :=
    .of_kept (graph ▸ found) sidecars error
  have run := buildRun tools pass record
  have comes (source : Bytes) := comesFrom_restore? pass.workspace.store record (sourceHash source)
  generalize pass.build tools record = result at run ⊢
  cases run with
  | unloaded => exact kept _ _ rfl (.refl _)
  | @unread loaded _ _ _ _ asked =>
    have comes := comes loaded.bytes
    rw [asked] at comes
    exact kept _ _ rfl comes.1
  | @restored loaded restored store _ _ asked =>
    have comes := comes loaded.bytes
    rw [asked] at comes
    exact @buildsOwn_reuse tools pass (pass.loading record.specifier store) record found comes.1
      compiled loaded.bytes restored (comes.2 restored rfl)
  | @untranspiled loaded _ _ _ _ _ asked _ counted =>
    have comes := comes loaded.bytes
    rw [asked] at comes
    rcases counted with rfl | rfl <;> exact kept _ _ rfl comes.1
  | @transpiled loaded output store _ _ asked transpiled =>
    have comes := comes loaded.bytes
    rw [asked] at comes
    exact @buildsOwn_compileOutput tools pass (pass.calling record.specifier store) record found
      comes.1 compiled loaded output transpiled

end Pass

/-! ## Refreshes -/

namespace Workspace

theorem sameSidecars_file (store : ArtifactStore) (key : String) (code : Bytes) (oldKey? : Option String) :
    SameSidecars store (file store key code oldKey?).2 := by
  have put := store.sameSidecars_put key code
  unfold file
  generalize store.put key code = result at put ⊢
  obtain ⟨_ | _, after⟩ := result
  · exact put
  · dsimp only
    split
    · split
      · exact put
      · exact put.trans (after.sameSidecars_remove _)
    · exact put

/-- A sidecar is written from the record that a refresh leaves, or none is. -/
inductive Notes (record : ModuleRecord) (externals : List Specifier) (first second : ArtifactStore) : Prop
  | same (same : SameSidecars first second)
  | noted (hash : String) (output : OutputReference) (keepsText : second.keepsText = first.keepsText)
    (sidecars : second.sidecars = first.sidecars.insert record.specifier
      (.ofRecord (settledRecord hash output record) externals))

theorem notes_settle {workspace : Workspace} {record : ModuleRecord}
    (found : workspace.graph.get? record.specifier = some record) {read : ArtifactStore}
    (reading : SameSidecars workspace.store read) (isFresh : Bool) (patched : Patched) :
    Notes record patched.externals workspace.store
      (({ workspace with store := read } : Workspace).settle record isFresh patched).2.store := by
  unfold settle
  extract_lets specifier hash key oldKey? mustWrite writes moved change
  have filing : SameSidecars workspace.store
      (if mustWrite then file read key patched.code oldKey? else (.ok (), read)).2 := by
    split
    · exact reading.trans (sameSidecars_file _ _ _ _)
    · exact reading
  generalize (if mustWrite then file read key patched.code oldKey? else (.ok (), read)) = result at filing ⊢
  obtain ⟨_ | _, store⟩ := result
  · exact .same filing
  dsimp only at filing ⊢
  split
  · exact .same filing
  · have found' : workspace.graph.get? specifier = some record := found
    simp only [update_of_get? change found']
    split
    · unfold putSidecar attempt
      cases store.faults.get? .putSidecar with
      | some reason => exact .same filing
      | none =>
        refine .noted hash ⟨key, patched.code.length⟩ filing.keepsText ?_
        rw [← filing.sidecars]
        rfl
    · exact .same filing

theorem sameSidecars_storedCode (store : ArtifactStore) (record : ModuleRecord) :
    SameSidecars store (storedCode store record).2 := by
  have get := store.sameSidecars_get (outputKey record)
  unfold storedCode
  generalize store.get (outputKey record) = result at get ⊢
  obtain ⟨_ | _ | _, after⟩ := result <;> exact get

theorem notes_refresh (workspace : Workspace) (specifier : Specifier) (staged? : Option Bytes)
    (keyed : workspace.graph.Keyed) :
    SameSidecars workspace.store (workspace.refresh specifier staged?).2.store ∨
      ∃ record, workspace.graph.get? specifier = some record ∧ record.folds = true ∧
        Notes record (externalsFrom workspace.graph record.dependencies) workspace.store
          (workspace.refresh specifier staged?).2.store := by
  cases view : workspace.graph.foldView? specifier with
  | none =>
    rw [refresh_idle view]
    exact .inl (.refl _)
  | some seen =>
    obtain ⟨record, found, folds, -⟩ := foldView?_eq_some view
    obtain rfl := keyed _ _ found
    unfold refresh
    simp only [found, folds, Bool.not_true, Bool.false_eq_true, if_false]
    have stored := sameSidecars_storedCode workspace.store record
    have patched {code : Bytes} {store : ArtifactStore} (reading : SameSidecars workspace.store store)
        (isStaged : Bool) {patched : Patched} (patches : patchEdges workspace.graph record code = .ok patched) :
        Notes record (externalsFrom workspace.graph record.dependencies) workspace.store
          (({ workspace with store } : Workspace).settle record isStaged patched).2.store := by
      rw [← (patchEdges_notes patches).2]
      exact notes_settle found reading isStaged patched
    cases staged? with
    | some code =>
      dsimp only
      split
      · exact .inl (.refl _)
      · exact .inl (.refl _)
      · next patches => exact .inr ⟨record, rfl, folds, patched (.refl _) true patches⟩
    | none =>
      dsimp only
      split
      · exact .inl stored
      · split
        · exact .inl stored
        · exact .inl stored
        · next patches => exact .inr ⟨record, rfl, folds, patched stored false patches⟩

theorem folds_of_refresh_error {workspace after : Workspace} {specifier : Specifier}
    {staged? : Option Bytes} {error : ArtifactError}
    (failed : workspace.refresh specifier staged? = (.error error, after)) :
    ∃ record, workspace.graph.get? specifier = some record ∧ record.folds = true := by
  cases view : workspace.graph.foldView? specifier with
  | none =>
    rw [refresh_idle view] at failed
    cases failed
  | some seen =>
    obtain ⟨record, found, folds, -⟩ := foldView?_eq_some view
    exact ⟨record, found, folds⟩

end Workspace

end ModuleBuild
