import ModuleBuild.Proofs.Compile.Attempts
import ModuleBuild.Proofs.Compile.Propagation
/-!
Repairing the importers of a module twice in a row. Whatever the first run finds in the records and in the
store, the second one changes nothing: a refresh leaves a module with nothing to do, and takes nothing from
what other modules are refreshed from.
-/

namespace ModuleBuild

open ModuleGraph

namespace Workspace

/-! ## What a refresh starts from -/

def withReads (workspace : Workspace) (reads : Nat) : Workspace :=
  { workspace with store := { workspace.store with blobReads := reads } }

/-- The record and the patched code that a refresh has to file, for a module that takes part in content
hashes. -/
def restamp (workspace : Workspace) (specifier : Specifier) :
    Except ArtifactError (Option (ModuleRecord × Patched)) :=
  match workspace.graph.get? specifier with
  | none => .ok none
  | some record =>
    if record.folds then
      match workspace.store.blobs.get? (outputKey record) with
      | none => .error (.missing record.specifier (outputKey record))
      | some code => (patchEdges workspace.graph record code).map fun patched => some (record, patched)
    else .ok none

def verdict (workspace : Workspace) (specifier : Specifier) :
    Except ArtifactError (Option (List MissingDependency)) :=
  (workspace.restamp specifier).map (Option.map (·.2.missing))

def Rests (workspace : Workspace) (specifier : Specifier) : Prop :=
  ∀ record patched, workspace.restamp specifier = .ok (some (record, patched)) →
    patched.isChanged = false ∧ record.isReady ∧
      workspace.graph.contentHash? record.specifier = some record.contentHash ∧
      record.output?.map (·.key) = some (artifactKey record.specifier record.contentHash)

variable {workspace : Workspace} {specifier : Specifier} {record : ModuleRecord} {patched : Patched}

theorem restamp_eq_some (found : workspace.restamp specifier = .ok (some (record, patched))) :
    workspace.graph.get? specifier = some record ∧ record.folds ∧
      ∃ code, workspace.store.blobs.get? (outputKey record) = some code ∧
        patchEdges workspace.graph record code = .ok patched := by
  unfold restamp at found
  cases there : workspace.graph.get? specifier with
  | none => simp [there] at found
  | some own =>
    cases folds : own.folds with
    | false => simp [there, folds] at found
    | true =>
      cases stored : workspace.store.blobs.get? (outputKey own) with
      | none => simp [there, folds, stored] at found
      | some code =>
        cases patches : patchEdges workspace.graph own code with
        | error error => simp [there, folds, stored, patches, Except.map] at found
        | ok result =>
          simp only [there, folds, stored, patches, Except.map, if_true, Except.ok.injEq,
            Option.some.injEq, Prod.mk.injEq] at found
          obtain ⟨rfl, rfl⟩ := found
          exact ⟨rfl, folds, code, stored, patches⟩

theorem restamp_of_patchEdges (found : workspace.graph.get? specifier = some record) (folds : record.folds)
    {code : Bytes} (stored : workspace.store.blobs.get? (outputKey record) = some code)
    (patches : patchEdges workspace.graph record code = .ok patched) :
    workspace.restamp specifier = .ok (some (record, patched)) := by
  simp [restamp, found, folds, stored, patches, Except.map]

theorem refresh_eq (inOrder : workspace.store.faults = .empty) (cuts : CutsTokens workspace.graph)
    (specifier : Specifier) :
    ∃ reads, workspace.refresh specifier none =
      match workspace.restamp specifier with
      | .error error => (.error error, workspace.withReads reads)
      | .ok none => (.ok none, workspace.withReads reads)
      | .ok (some (record, patched)) => (workspace.withReads reads).settle record false patched := by
  unfold refresh restamp
  cases found : workspace.graph.get? specifier with
  | none => exact ⟨workspace.store.blobReads, rfl⟩
  | some record =>
    cases folds : record.folds with
    | false => exact ⟨workspace.store.blobReads, by simp [withReads, folds]⟩
    | true =>
      refine ⟨workspace.store.blobReads + 1, ?_⟩
      simp only [storedCode, ArtifactStore.get, ArtifactStore.attempt_eq inOrder, folds, Bool.not_true,
        Bool.false_eq_true, if_false, if_true]
      cases stored : workspace.store.blobs.get? (outputKey record) with
      | none => rfl
      | some code =>
        cases patches : patchEdges workspace.graph record code with
        | error error =>
          -- A hash that cannot be cut would also spoil the workspace.
          obtain ⟨fault, rfl⟩ := patchEdges_error cuts patches
          simp only [patches]
          rfl
        | ok patched =>
          simp only [patches]
          rfl

theorem patchEdges_congr {first second : ModuleGraph} (revises : first.Revises second) (record : ModuleRecord)
    (code : Bytes) : patchEdges second record code = patchEdges first record code := by
  have each : patchEdge second record.specifier = patchEdge first record.specifier := by
    funext patched edge
    unfold patchEdge
    rw [revises.contentHash?]
    rcases revises.get? edge.target with ⟨absent, absent'⟩ | ⟨old, new, found, found', revises⟩
    · rw [absent, absent']
    · rw [found, found']
      simp only [revises.isExternal]
  rw [patchEdges, patchEdges, each]

/-- A module is refreshed from its record, the code stored for it, and what cannot be revised in the graph. -/
theorem restamp_congr {other : Workspace} (revises : workspace.graph.Revises other.graph)
    (same : other.graph.get? specifier = workspace.graph.get? specifier)
    (stored : ∀ record, workspace.graph.get? specifier = some record →
      other.store.blobs.get? (outputKey record) = workspace.store.blobs.get? (outputKey record)) :
    other.restamp specifier = workspace.restamp specifier := by
  unfold restamp
  rw [same]
  cases found : workspace.graph.get? specifier with
  | none => rfl
  | some record => simp only [stored record found, patchEdges_congr revises]

theorem Rests.congr {other : Workspace} (rests : workspace.Rests specifier)
    (revises : workspace.graph.Revises other.graph)
    (same : other.restamp specifier = workspace.restamp specifier) : other.Rests specifier := by
  intro record patched found
  obtain ⟨unchanged, ready, hashed, key⟩ := rests record patched (same ▸ found)
  exact ⟨unchanged, ready, (revises.contentHash? _).trans hashed, key⟩

/-! ## Reports -/

namespace Propagation

def add (propagation : Propagation) (specifier : Specifier) :
    Except ArtifactError (Option Refreshed) → Propagation
  | .error error => { propagation with failures := propagation.failures ++ [(specifier, error)] }
  | .ok none => propagation
  | .ok (some refreshed) =>
    { propagation with
      writes := propagation.writes + refreshed.writes
      missing := propagation.missing ++ refreshed.missing
      updated :=
        if refreshed.hashChanged then propagation.updated ++ [refreshed.record]
        else propagation.updated }

/-- A report with what the refresh of one module came to, but for what was written. -/
def note (propagation : Propagation) (specifier : Specifier) :
    Except ArtifactError (Option (List MissingDependency)) → Propagation
  | .error error => { propagation with failures := propagation.failures ++ [(specifier, error)] }
  | .ok none => propagation
  | .ok (some missing) => { propagation with missing := propagation.missing ++ missing }

def quiet (propagation : Propagation) : Propagation := { propagation with updated := [], writes := 0 }

theorem quiet_add (propagation : Propagation) (specifier : Specifier)
    (outcome : Except ArtifactError (Option Refreshed)) :
    (propagation.add specifier outcome).quiet =
      propagation.quiet.note specifier (outcome.map (Option.map (·.missing))) := by
  rcases outcome with error | none | refreshed <;> rfl

theorem mem_failures_note (propagation : Propagation) (specifier : Specifier)
    (verdict : Except ArtifactError (Option (List MissingDependency))) (failure : Specifier × ArtifactError) :
    failure ∈ (propagation.note specifier verdict).failures ↔
      failure ∈ propagation.failures ∨ failure.1 = specifier ∧ verdict = .error failure.2 := by
  obtain ⟨owner, cause⟩ := failure
  rcases verdict with error | none | missing <;> simp [note, eq_comm]

theorem mem_failures_foldl_note (verdict : Specifier → Except ArtifactError (Option (List MissingDependency)))
    (work : List Specifier) (propagation : Propagation) (failure : Specifier × ArtifactError) :
    failure ∈ (work.foldl (fun report other => report.note other (verdict other)) propagation).failures ↔
      failure ∈ propagation.failures ∨ failure.1 ∈ work ∧ verdict failure.1 = .error failure.2 := by
  induction work generalizing propagation with
  | nil => simp
  | cons specifier rest ih =>
    rw [List.foldl_cons, ih, mem_failures_note, List.mem_cons, or_assoc, or_and_right]
    refine or_congr_right (or_congr_left (and_congr_right ?_))
    rintro rfl
    rfl

end Propagation

theorem refreshAll_cons (workspace : Workspace) (propagation : Propagation) (specifier : Specifier)
    (rest : List Specifier) :
    workspace.refreshAll propagation (specifier :: rest) =
      (workspace.refresh specifier none).2.refreshAll
        (propagation.add specifier (workspace.refresh specifier none).1) rest := by
  rw [refreshAll]
  rcases workspace.refresh specifier none with ⟨error | none | refreshed, after⟩ <;> rfl

/-! ## One refresh -/

/-- A module has output, or code to be refreshed from. -/
def Supplied (workspace : Workspace) (specifier : Specifier) : Prop :=
  ∃ record, workspace.graph.get? specifier = some record ∧
    (record.output?.isSome ∨ (workspace.store.blobs.get? (outputKey record)).isSome)

/-- What repairs rely on. No byte of code is in the slots of two edges, and what a module refers to, or is
refreshed from, is not under a key of another module: of `modules`, no two share a digest. -/
structure Orderly (modules : Specifier → Prop) (workspace : Workspace) : Prop where
  inOrder : workspace.store.faults = .empty
  keyed : workspace.graph.Keyed
  cuts : CutsTokens workspace.graph
  apart : ∀ specifier record, workspace.graph.get? specifier = some record → SlotsApart record.dependencies
  owned : ∀ specifier record output, workspace.graph.get? specifier = some record →
    record.output? = some output → modules specifier ∧ ∃ hash, output.key = artifactKey specifier hash
  supplied : ∀ specifier record code, workspace.graph.get? specifier = some record →
    workspace.store.blobs.get? (outputKey record) = some code → modules specifier

/-- What refreshes leave to all modules: those that rest go on to rest, and no module is refreshed to another
end than it was. -/
structure Settles (before after : Workspace) : Prop where
  revises : before.graph.Revises after.graph
  ready : ∀ other, before.graph.IsReady other → after.graph.IsReady other
  rests : ∀ other, before.Rests other → after.Rests other
  verdict : ∀ other, after.verdict other = before.verdict other
  isSpoiled : after.isSpoiled = before.isSpoiled

theorem Settles.withReads (workspace : Workspace) (reads : Nat) : Settles workspace (workspace.withReads reads) :=
  ⟨.refl _, fun _ => id, fun _ => id, fun _ => rfl, rfl⟩

theorem Settles.trans {first second third : Workspace} (one : Settles first second)
    (two : Settles second third) : Settles first third where
  revises := one.revises.trans two.revises
  ready other ready := two.ready other (one.ready other ready)
  rests other rests := two.rests other (one.rests other rests)
  verdict other := (two.verdict other).trans (one.verdict other)
  isSpoiled := two.isSpoiled.trans one.isSpoiled

variable {modules : Specifier → Prop}

theorem Orderly.withReads (orderly : Orderly modules workspace) (reads : Nat) :
    Orderly modules (workspace.withReads reads) :=
  ⟨orderly.inOrder, orderly.keyed, orderly.cuts, orderly.apart, orderly.owned, orderly.supplied⟩

/-- A refreshed module is refreshed from what was filed, to the same end and without effect. -/
theorem Refreshes.rests_self {after : Workspace} {result : ModuleRecord} {hash : String} {code : Bytes}
    (refreshes : Refreshes workspace after record result hash code) (cuts : CutsTokens workspace.graph)
    (revises : workspace.graph.Revises after.graph) (folds : record.folds)
    (fit : StampsFit workspace.graph record.dependencies code.length) :
    after.Rests record.specifier ∧
      after.verdict record.specifier =
        .ok (some (missingFrom workspace.graph record.specifier record.dependencies)) := by
  obtain ⟨length, updated, -⟩ := refreshes.updated
  obtain ⟨written, there, agree, stamped⟩ := refreshes.stored
  have folds' : result.folds := by rw [updated]; exact folds
  have edges := refreshes.dependencies
  have filed : after.store.blobs.get? (outputKey result) = some written := by
    rw [updated]
    exact there
  rw [← edges] at fit stamped
  obtain ⟨patched, patches, -, unchanged⟩ := patchEdges_of_stamped cuts (agree.length ▸ fit) stamped
  have restamp : after.restamp record.specifier = .ok (some (result, patched)) :=
    restamp_of_patchEdges refreshes.get?_self folds' filed
      ((patchEdges_congr revises result written).trans patches)
  constructor
  · intro record' patched' found'
    rw [restamp, Except.ok.injEq, Option.some.injEq, Prod.mk.injEq] at found'
    obtain ⟨rfl, rfl⟩ := found'
    refine ⟨unchanged, by rw [updated]; rfl, ?_, by rw [updated]; rfl⟩
    rw [revises.contentHash?, refreshes.specifier, refreshes.hashed, updated]
  · rw [verdict, restamp]
    simp only [Except.map, Option.map_some, (patchEdges_notes patches).1, edges, refreshes.specifier]

section Refreshed

variable {after : Workspace} {result : ModuleRecord} {hash : String} {code : Bytes}
  (orderly : Orderly modules workspace) (distinct : DigestsDistinct modules)
  (found : workspace.graph.get? record.specifier = some record)
  (stored : workspace.store.blobs.get? (outputKey record) = some code)
  (refreshes : Refreshes workspace after record result hash code)

include orderly distinct found stored refreshes

theorem Orderly.blobs_other {other : Specifier} (differ : other ≠ record.specifier) {latest : ModuleRecord}
    (there : workspace.graph.get? other = some latest) :
    after.store.blobs.get? (outputKey latest) = workspace.store.blobs.get? (outputKey latest) := by
  have owned (old : OutputReference) (own : record.output? = some old) :=
    (orderly.owned _ _ old found own).2
  cases own : latest.output? with
  | some output =>
    obtain ⟨known, other, key⟩ := orderly.owned _ _ output there own
    rw [outputKey_of_output? own, key]
    exact refreshes.blobs_other distinct (orderly.supplied _ _ _ found stored) owned known differ other
  | none =>
    -- A module without output is refreshed from the empty key, under which nothing is filed.
    have bare : outputKey latest = "" := by rw [outputKey, own, Option.map_none, Option.getD_none]
    rw [bare]
    refine refreshes.blobs "" (artifactKey_ne_empty _ _).symm fun old own => ?_
    obtain ⟨other, key⟩ := owned old own
    rw [key]
    exact (artifactKey_ne_empty _ _).symm

theorem Orderly.of_refreshes (revises : workspace.graph.Revises after.graph) : Orderly modules after := by
  have own := orderly.supplied _ _ _ found stored
  refine
    { inOrder := refreshes.setup.faults.trans orderly.inOrder
      keyed := fun specifier record there => ?_
      cuts := fun specifier hash hashed => orderly.cuts specifier hash (revises.contentHash? _ ▸ hashed)
      apart := fun specifier record there => ?_
      owned := fun specifier latest output there output? => ?_
      supplied := fun specifier latest code there stored' => ?_ }
  · obtain ⟨old, there, revised⟩ := revises.of_get? there
    exact revised.specifier.trans (orderly.keyed _ _ there)
  · obtain ⟨old, there, revised⟩ := revises.of_get? there
    exact revised.dependencies ▸ orderly.apart _ _ there
  · by_cases same : specifier = record.specifier
    · subst same
      obtain ⟨length, updated, -⟩ := refreshes.updated
      rw [refreshes.get?_self, Option.some.injEq, updated] at there
      subst there
      cases output?
      exact ⟨own, hash, rfl⟩
    · exact orderly.owned _ _ output (refreshes.get?_other same ▸ there) output?
  · by_cases same : specifier = record.specifier
    · exact same ▸ own
    · have there' := refreshes.get?_other same ▸ there
      rw [orderly.blobs_other distinct found stored refreshes same there'] at stored'
      exact orderly.supplied _ _ code there' stored'

end Refreshed

/-- What comes of refreshing one module: the module rests, and nothing is taken from the others. -/
structure Repairs (modules : Specifier → Prop) (before : Workspace) (specifier : Specifier)
    (outcome : Except ArtifactError (Option Refreshed)) (after : Workspace) : Prop where
  orderly : Orderly modules after
  settles : Settles before after
  rests : after.Rests specifier
  others : ∀ other, other ≠ specifier → after.graph.get? other = before.graph.get? other
  verdict : outcome.map (Option.map (·.missing)) = before.verdict specifier

theorem refresh_of_rests (inOrder : workspace.store.faults = .empty) (cuts : CutsTokens workspace.graph)
    (rests : workspace.Rests specifier) :
    ∃ outcome reads, workspace.refresh specifier none = (outcome, workspace.withReads reads) ∧
      ∀ propagation : Propagation, propagation.add specifier outcome =
        propagation.note specifier (workspace.verdict specifier) := by
  obtain ⟨reads, refresh⟩ := refresh_eq inOrder cuts specifier
  cases restamp : workspace.restamp specifier with
  | error error =>
    rw [restamp] at refresh
    exact ⟨_, reads, refresh, fun propagation => by rw [verdict, restamp]; rfl⟩
  | ok restamped? =>
    cases restamped? with
    | none =>
      rw [restamp] at refresh
      exact ⟨_, reads, refresh, fun propagation => by rw [verdict, restamp]; rfl⟩
    | some restamped =>
      obtain ⟨record, patched⟩ := restamped
      obtain ⟨unchanged, ready, hashed, key⟩ := rests record patched restamp
      have hashed' : (workspace.withReads reads).graph.contentHash? record.specifier =
          some record.contentHash := hashed
      have kept : (workspace.withReads reads).settle record false patched =
          (.ok (some { record, hashChanged := false, writes := 0, missing := patched.missing }),
            workspace.withReads reads) := by
        simp [settle, hashed', unchanged, ready, key]
      rw [restamp] at refresh
      refine ⟨_, reads, refresh.trans kept, fun propagation => ?_⟩
      rw [verdict, restamp]
      rfl

section Runs

variable (distinct : DigestsDistinct modules)

include distinct

theorem Orderly.repairs_of_restamp (orderly : Orderly modules workspace)
    (restamp : workspace.restamp specifier = .ok (some (record, patched))) :
    ∃ refreshed after, workspace.refresh specifier none = (.ok (some refreshed), after) ∧
      Repairs modules workspace specifier (.ok (some refreshed)) after := by
  obtain ⟨found, folds, code, stored, patches⟩ := restamp_eq_some restamp
  obtain rfl := orderly.keyed _ _ found
  have fit := stampsFit_of_patchEdges orderly.cuts patches
  obtain ⟨refreshed, after, hash, done, refreshes, -, missing, -⟩ :=
    refresh_of_stampsFit orderly.inOrder found folds orderly.cuts fit (orderly.apart _ _ found)
      (.inr ⟨rfl, stored⟩)
  have revises : workspace.graph.Revises after.graph := by
    simpa only [done] using (attempts_refresh workspace record.specifier none).revises
  have own : workspace.verdict record.specifier =
      .ok (some (missingFrom workspace.graph record.specifier record.dependencies)) := by
    rw [verdict, restamp]
    simp only [Except.map, Option.map_some, (patchEdges_notes patches).1]
  obtain ⟨rests, again⟩ := refreshes.rests_self orderly.cuts revises folds fit
  have others {other : Specifier} (differ : other ≠ record.specifier) :
      after.restamp other = workspace.restamp other :=
    restamp_congr revises (refreshes.get?_other differ) fun latest there =>
      orderly.blobs_other distinct found stored refreshes differ there
  have settles : Settles workspace after := by
    refine
      { revises
        ready := fun other ready => ?_
        rests := fun other before => ?_
        verdict := fun other => ?_
        isSpoiled := refreshes.isSpoiled }
    -- each of the three holds of the module itself, which rests now, and of others, which are left alone
    all_goals by_cases same : other = record.specifier
    · obtain ⟨length, updated, -⟩ := refreshes.updated
      exact ⟨_, same ▸ refreshes.get?_self, by rw [updated]; rfl⟩
    · rw [IsReady, refreshes.get?_other same]
      exact ready
    · exact same ▸ rests
    · exact before.congr revises (others same)
    · rw [same, again, own]
    · rw [verdict, others same, verdict]
  refine ⟨refreshed, after, done,
    { orderly := orderly.of_refreshes distinct found stored refreshes revises
      settles
      rests
      others := fun other differ => refreshes.get?_other differ
      verdict := ?_ }⟩
  rw [own]
  simp only [Except.map, Option.map_some, missing]

theorem Orderly.repairs (orderly : Orderly modules workspace) (specifier : Specifier) :
    ∃ outcome after, workspace.refresh specifier none = (outcome, after) ∧
      Repairs modules workspace specifier outcome after := by
  obtain ⟨reads, refresh⟩ := refresh_eq orderly.inOrder orderly.cuts specifier
  have unfiled {outcome : Except ArtifactError (Option Refreshed)}
      (nothing : ∀ filed, workspace.restamp specifier ≠ .ok (some filed))
      (verdict : outcome.map (Option.map (·.missing)) = workspace.verdict specifier) :
      Repairs modules workspace specifier outcome (workspace.withReads reads) :=
    { orderly := orderly.withReads reads
      settles := .withReads workspace reads
      rests := fun record patched found => absurd found (nothing (record, patched))
      others := fun _ _ => rfl
      verdict }
  cases restamp : workspace.restamp specifier with
  | error error =>
    rw [restamp] at refresh
    exact ⟨_, _, refresh, unfiled (by simp [restamp]) (by rw [verdict, restamp]; rfl)⟩
  | ok restamped? =>
    cases restamped? with
    | none =>
      rw [restamp] at refresh
      exact ⟨_, _, refresh, unfiled (by simp [restamp]) (by rw [verdict, restamp]; rfl)⟩
    | some restamped =>
      obtain ⟨refreshed, after, done, repairs⟩ := orderly.repairs_of_restamp distinct restamp
      exact ⟨_, after, done, repairs⟩

/-- After a run all modules that were refreshed rest, and the report says what can be said without looking at
what was written. -/
theorem Orderly.refreshAll (work : List Specifier) {workspace : Workspace}
    (orderly : Orderly modules workspace) (propagation : Propagation) :
    ∃ result after, workspace.refreshAll propagation work = (result, after) ∧ Orderly modules after ∧
      Settles workspace after ∧ (∀ other ∈ work, after.Rests other) ∧
      (∀ other, other ∉ work → after.graph.get? other = workspace.graph.get? other) ∧
      result.quiet =
        work.foldl (fun report other => report.note other (workspace.verdict other)) propagation.quiet := by
  induction work generalizing workspace propagation with
  | nil => exact ⟨_, _, rfl, orderly, .withReads workspace _, by simp, fun _ _ => rfl, rfl⟩
  | cons specifier rest ih =>
    obtain ⟨outcome, middle, refresh, repairs⟩ := orderly.repairs distinct specifier
    obtain ⟨result, after, run, orderly, settles, rests, others, report⟩ :=
      ih repairs.orderly (propagation.add specifier outcome)
    refine ⟨result, after, by rw [refreshAll_cons, refresh, run], orderly, repairs.settles.trans settles, ?_,
      fun other apart => ?_, ?_⟩
    -- The head of the list goes on to rest while the others are refreshed.
    · exact List.forall_mem_cons.2 ⟨settles.rests specifier repairs.rests, rests⟩
    · rw [List.mem_cons, not_or] at apart
      rw [others other apart.2, repairs.others other apart.1]
    · rw [report, List.foldl_cons, Propagation.quiet_add, repairs.verdict]
      simp only [repairs.settles.verdict]

end Runs

theorem refreshAll_of_rests (work : List Specifier) {workspace : Workspace}
    (inOrder : workspace.store.faults = .empty) (cuts : CutsTokens workspace.graph)
    (rests : ∀ specifier ∈ work, workspace.Rests specifier) (propagation : Propagation) :
    ∃ reads, workspace.refreshAll propagation work =
      (work.foldl (fun report other => report.note other (workspace.verdict other)) propagation,
        workspace.withReads reads) := by
  induction work generalizing workspace propagation with
  | nil => exact ⟨workspace.store.blobReads, rfl⟩
  | cons specifier rest ih =>
    obtain ⟨outcome, reads, refresh, report⟩ :=
      refresh_of_rests inOrder cuts (rests specifier List.mem_cons_self)
    have rests' : ∀ other ∈ rest, (workspace.withReads reads).Rests other :=
      fun other member => rests other (List.mem_cons_of_mem _ member)
    obtain ⟨reads', run⟩ := @ih (workspace.withReads reads) inOrder cuts rests'
      (propagation.add specifier outcome)
    refine ⟨reads', ?_⟩
    rw [refreshAll_cons, refresh, run, report]
    rfl

/-! ## Which modules are refreshed -/

theorem isReady_of_mem_affected {graph : ModuleGraph} {changed specifier : Specifier}
    (member : specifier ∈ affected graph changed) : graph.IsReady specifier := by
  rw [affected_eq, List.mem_reverse] at member
  refine @Walk.run_induction _ graph .dependents readyBelow
    (fun _ found => ∀ other ∈ found, graph.IsReady other) (fun _ => True) (fun _ _ _ _ => trivial) ?_
    (fun _ _ _ kept => kept) (fun _ _ _ _ _ kept => kept) _ _ _ (fun _ _ _ _ => trivial) (by simp)
    specifier member
  intro met depth traced found _ below _ ready other member
  rcases (mem_enter_readyBelow below).1 member with old | ⟨rfl, own⟩
  · exact ready other old
  · exact own

/-- The same modules are refreshed when the importers stay, and which of them are ready. -/
theorem affected_congr {first second : ModuleGraph} (importers : second.importers = first.importers)
    (ready : ∀ specifier, second.IsReady specifier ↔ first.IsReady specifier) (changed : Specifier) :
    affected second changed = affected first changed := by
  have children (specifier : Specifier) :
      second.children .dependents specifier = first.children .dependents specifier := by
    simp only [ModuleGraph.children, ModuleGraph.dependents, importersOf, importers]
  have same (specifier : Specifier) :
      (second.get? specifier).any (·.isReady) = (first.get? specifier).any (·.isReady) := by
    rw [Bool.eq_iff_iff, any_isReady, any_isReady, ready]
  rw [affected_eq, affected_eq, Walk.run_congr children ?_ (fun _ _ => rfl) (fun _ _ _ => rfl)
    [Walk.frame first .dependents changed]]
  · simp only [Walk.shape_frame, children]
    rfl
  · intro met depth found
    simp only [readyBelow, same]

/-! ## Two runs -/

theorem orderly_of_ascii (inOrder : workspace.store.faults = .empty) (keyed : workspace.graph.Keyed)
    (ascii : ∀ specifier record, workspace.graph.get? specifier = some record →
      ∀ c ∈ record.sourceHash.toList, c.utf8Size = 1)
    (apart : ∀ specifier record, workspace.graph.get? specifier = some record →
      SlotsApart record.dependencies)
    (owned : ∀ specifier record output, workspace.graph.get? specifier = some record →
      record.output? = some output → ∃ hash, output.key = artifactKey specifier hash) :
    Orderly workspace.Supplied workspace where
  inOrder := inOrder
  keyed := keyed
  cuts := cutsTokens_of_ascii fun specifier record found _ => ascii specifier record found
  apart := apart
  owned specifier record output found own :=
    ⟨⟨record, found, .inl (by rw [own, Option.isSome_some])⟩, owned specifier record output found own⟩
  supplied _ record _ found stored := ⟨record, found, .inr (by rw [stored, Option.isSome_some])⟩

/-- Let the hashes of all sources be made of one-byte characters, let no byte of code be in the slots of two
edges, let all output be under keys of the modules that refer to it, and let no two modules share a digest that
have output, or code to be refreshed from. However little records and store agree otherwise, repairing the
importers of a module a second time changes nothing but the count of what was read: no blob and no sidecar is
written, no record changes, and the report tells again what failed and which imports have no record, but of no
writes and no updates. -/
theorem propagate_twice (workspace : Workspace) (inOrder : workspace.store.faults = .empty)
    (keyed : workspace.graph.Keyed)
    (ascii : ∀ specifier record, workspace.graph.get? specifier = some record →
      ∀ c ∈ record.sourceHash.toList, c.utf8Size = 1)
    (apart : ∀ specifier record, workspace.graph.get? specifier = some record →
      SlotsApart record.dependencies)
    (owned : ∀ specifier record output, workspace.graph.get? specifier = some record →
      record.output? = some output → ∃ hash, output.key = artifactKey specifier hash)
    (distinct : DigestsDistinct workspace.Supplied) (changed : Specifier) :
    let (first, middle) := workspace.propagate changed
    middle.isSpoiled = workspace.isSpoiled ∧ ∃ reads, middle.propagate changed =
      ({ first with updated := [], writes := 0 },
        { middle with store := { middle.store with blobReads := reads } }) := by
  obtain ⟨first, middle, run, orderly, settles, rests, others, report⟩ :=
    (orderly_of_ascii inOrder keyed ascii apart owned).refreshAll distinct (affected workspace.graph changed) {}
  -- Only ready modules are refreshed, and they stay ready, so the second run goes over the same list.
  have ready (specifier : Specifier) : middle.graph.IsReady specifier ↔ workspace.graph.IsReady specifier := by
    refine ⟨fun ready => ?_, settles.ready specifier⟩
    by_cases member : specifier ∈ affected workspace.graph changed
    · exact isReady_of_mem_affected member
    · rw [IsReady, others specifier member] at ready
      exact ready
  obtain ⟨reads, again⟩ := refreshAll_of_rests (affected workspace.graph changed) orderly.inOrder orderly.cuts
    rests {}
  rw [propagate, run]
  refine ⟨settles.isSpoiled, reads, ?_⟩
  rw [propagate, affected_congr settles.revises.importers ready, again]
  simp only [settles.verdict]
  exact congrArg (Prod.mk · (middle.withReads reads)) report.symm

theorem Orderly.mem_failures (orderly : Orderly modules workspace) (distinct : DigestsDistinct modules)
    (changed : Specifier) (failure : Specifier × ArtifactError) :
    failure ∈ (workspace.propagate changed).1.failures ↔
      failure.1 ∈ affected workspace.graph changed ∧ workspace.verdict failure.1 = .error failure.2 := by
  obtain ⟨result, after, run, -, -, -, -, report⟩ :=
    orderly.refreshAll distinct (affected workspace.graph changed) {}
  have failures : result.failures = result.quiet.failures := rfl
  rw [propagate, run, failures, report, Propagation.mem_failures_foldl_note]
  exact or_iff_right List.not_mem_nil

section Strained

def staleRecord : ModuleRecord :=
  { importerRecord with contentHash := "", output? := some ⟨artifactKey ⟨"/a.js"⟩ importerHash, 16⟩ }

/-- An importer that was never compiled, though it counts as ready. -/
def bareRecord : ModuleRecord :=
  { specifier := ⟨"/c.js"⟩
    sourceHash := importerHash
    dependencies := [{ target := ⟨"/b.js"⟩, slot? := some ⟨0, 16⟩ }]
    state := .ready }

/-- A module with one importer to be repaired, and one that cannot be. -/
def strained : Workspace where
  graph := ((ModuleGraph.empty.insert leafRecord).insert staleRecord).insert bareRecord
  store :=
    { blobs := OrderedMap.empty.insert (artifactKey ⟨"/a.js"⟩ importerHash)
        (Utf8.encode (List.replicate 16 '0')) }

theorem get?_strained {specifier : Specifier} {record : ModuleRecord}
    (found : strained.graph.get? specifier = some record) :
    specifier = ⟨"/c.js"⟩ ∧ record = bareRecord ∨ specifier = ⟨"/a.js"⟩ ∧ record = staleRecord ∨
      specifier = ⟨"/b.js"⟩ ∧ record = leafRecord := by
  simp only [strained, ModuleGraph.get?_insert] at found
  split at found
  · next same => exact .inl ⟨same.symm, (Option.some.inj found).symm⟩
  split at found
  · next same => exact .inr (.inl ⟨same.symm, (Option.some.inj found).symm⟩)
  split at found
  · next same => exact .inr (.inr ⟨same.symm, (Option.some.inj found).symm⟩)
  · cases found

theorem bare_strained : strained.store.blobs.get? "" = none :=
  (OrderedMap.get?_insert _ _ _ _).trans (if_neg (artifactKey_ne_empty _ _))

theorem distinct_strained : DigestsDistinct strained.Supplied := by
  have named {specifier : Specifier} (supplied : strained.Supplied specifier) :
      specifier = ⟨"/a.js"⟩ ∨ specifier = ⟨"/b.js"⟩ := by
    obtain ⟨record, found, supplied⟩ := supplied
    rcases get?_strained found with ⟨-, rfl⟩ | ⟨rfl, -⟩ | ⟨rfl, -⟩
    · have none : outputKey bareRecord = "" := rfl
      rw [none, bare_strained] at supplied
      rcases supplied with output | code
      · cases output
      · cases code
    · exact .inl rfl
    · exact .inr rfl
  intro first second one two same
  rcases named one with rfl | rfl <;> rcases named two with rfl | rfl
  · rfl
  · exact absurd same ownerDigest_pair
  · exact absurd same.symm ownerDigest_pair
  · rfl

/-- One importer is never repaired, which the second run finds again, and nothing else. -/
theorem propagate_twice_strained :
    let (first, middle) := strained.propagate ⟨"/b.js"⟩
    (⟨"/c.js"⟩, .missing ⟨"/c.js"⟩ "") ∈ first.failures ∧ middle.isSpoiled = false ∧
      ∃ reads, middle.propagate ⟨"/b.js"⟩ =
        ({ first with updated := [], writes := 0 },
          { middle with store := { middle.store with blobReads := reads } }) := by
  have indexed : strained.graph.Indexed := ((ModuleGraph.Indexed.empty.insert _).insert _).insert _
  have keyed : strained.graph.Keyed := fun specifier record found => indexed.keyed found
  have ascii : ∀ specifier record, strained.graph.get? specifier = some record →
      ∀ c ∈ record.sourceHash.toList, c.utf8Size = 1 := by
    have repeated {first c : Char} (member : c ∈ (String.ofList (List.replicate 64 first)).toList) : c = first :=
      List.eq_of_mem_replicate (String.toList_ofList ▸ member)
    intro specifier record found c member
    rcases get?_strained found with ⟨-, rfl⟩ | ⟨-, rfl⟩ | ⟨-, rfl⟩ <;> rw [repeated member] <;> decide
  have apart : ∀ specifier record, strained.graph.get? specifier = some record →
      SlotsApart record.dependencies := by
    intro specifier record found
    rcases get?_strained found with ⟨-, rfl⟩ | ⟨-, rfl⟩ | ⟨-, rfl⟩ <;>
      simp [SlotsApart, bareRecord, staleRecord, importerRecord, leafRecord]
  have owned : ∀ specifier record output, strained.graph.get? specifier = some record →
      record.output? = some output → ∃ hash, output.key = artifactKey specifier hash := by
    intro specifier record output found own
    rcases get?_strained found with ⟨-, rfl⟩ | ⟨rfl, rfl⟩ | ⟨rfl, rfl⟩
    · cases own
    · cases own
      exact ⟨_, rfl⟩
    · cases own
      exact ⟨_, rfl⟩
  have bare : strained.graph.get? ⟨"/c.js"⟩ = some bareRecord :=
    (ModuleGraph.get?_insert _ _ _).trans (if_pos rfl)
  have imports : strained.graph.Imports ⟨"/c.js"⟩ ⟨"/b.js"⟩ := by
    refine ⟨{ target := ⟨"/b.js"⟩, slot? := some ⟨0, 16⟩ }, ?_, rfl⟩
    rw [ModuleGraph.dependencies_of_get? bare]
    exact List.mem_singleton_self _
  have fails : strained.verdict ⟨"/c.js"⟩ = .error (.missing ⟨"/c.js"⟩ "") := by
    have folds : bareRecord.folds = true := by decide +kernel
    have code : strained.store.blobs.get? (outputKey bareRecord) = none := bare_strained
    simp only [verdict, restamp, bare, folds, code, if_true]
    rfl
  have failure := ((orderly_of_ascii rfl keyed ascii apart owned).mem_failures distinct_strained ⟨"/b.js"⟩
    (⟨"/c.js"⟩, .missing ⟨"/c.js"⟩ "")).2
      ⟨(ModuleGraph.mem_affected indexed).2 ⟨by decide, .single imports, bareRecord, bare, rfl⟩, fails⟩
  exact ⟨failure, propagate_twice strained rfl keyed ascii apart owned distinct_strained ⟨"/b.js"⟩⟩

end Strained

end Workspace

end ModuleBuild
