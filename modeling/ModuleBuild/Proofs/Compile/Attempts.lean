import ModuleBuild.Proofs.Compile.Revision
import ModuleBuild.Proofs.Compile.Turns
/-!
Refreshing a module, whatever the store does. Nothing of the graph changes but the record of the module, and
of that no more than what a refresh sets. A refresh that goes through leaves the module ready, with the
content hash that follows from the graph, and reports all imports without a record.
-/

namespace ModuleBuild

open ModuleGraph

namespace Workspace

/-! ## What is noted of imports -/

theorem patchEdge_notes {graph : ModuleGraph} {importer : Specifier} {patched after : Patched}
    {edge : DependencyEdge} (done : patchEdge graph importer patched edge = .ok after) :
    after.missing = patched.missing ++ missingFrom graph importer [edge] ∧
      after.externals = patched.externals ++ externalsFrom graph [edge] := by
  unfold patchEdge at done
  cases found : graph.get? edge.target with
  | none =>
    simp only [found, Except.ok.injEq] at done
    simp [← done, missingFrom, externalsFrom, found]
  | some target =>
    simp only [found] at done
    cases left : target.isExternal with
    | true =>
      simp only [left, if_true, Except.ok.injEq] at done
      simp [← done, missingFrom, externalsFrom, found, left]
    | false =>
      simp only [left, Bool.false_eq_true, if_false] at done
      have kept : after.missing = patched.missing ∧ after.externals = patched.externals := by
        repeat' split at done
        all_goals first
          | cases done; exact ⟨rfl, rfl⟩
          | cases done
      simp [kept, missingFrom, externalsFrom, found, left]

theorem patchEdges_notes {graph : ModuleGraph} {record : ModuleRecord} {code : Bytes} {patched : Patched}
    (done : patchEdges graph record code = .ok patched) :
    patched.missing = missingFrom graph record.specifier record.dependencies ∧
      patched.externals = externalsFrom graph record.dependencies := by
  have general (edges : List DependencyEdge) (start : Patched)
      (done : edges.foldlM (patchEdge graph record.specifier) start = .ok patched) :
      patched.missing = start.missing ++ missingFrom graph record.specifier edges ∧
        patched.externals = start.externals ++ externalsFrom graph edges := by
    induction edges generalizing start with
    | nil =>
      cases done
      simp [missingFrom, externalsFrom]
    | cons edge rest ih =>
      rw [List.foldlM_cons] at done
      cases first : patchEdge graph record.specifier start edge with
      | error error =>
        rw [first] at done
        cases done
      | ok middle =>
        rw [first] at done
        obtain ⟨missing, externals⟩ := ih middle done
        obtain ⟨missing', externals'⟩ := patchEdge_notes first
        rw [missing, externals, missing', externals', List.append_assoc, List.append_assoc]
        simp [missingFrom, externalsFrom, ← List.map_append, ← List.filter_append]
  exact general record.dependencies { code } done

/-! ## What a refresh may do -/

/-- What comes of filing the code of a module: the graph stays, or the record of the module is settled. -/
inductive Files (workspace : Workspace) (record : ModuleRecord) (patched : Patched) (hash : String) :
    Except ArtifactError (Option Refreshed) × Workspace → Prop
  | failed (error : ArtifactError) (after : Workspace)
    (graph : after.graph = workspace.graph ∨
      ∃ output, after.graph = workspace.graph.modify record.specifier (settledRecord hash output)) :
    Files workspace record patched hash (.error error, after)
  | gone (after : Workspace) (graph : after.graph = workspace.graph)
    (absent : workspace.graph.get? record.specifier = none) :
    Files workspace record patched hash (.ok none, after)
  | kept (refreshed : Refreshed) (after : Workspace) (graph : after.graph = workspace.graph)
    (same : record.contentHash = hash) (ready : record.isReady)
    (missing : refreshed.missing = patched.missing) (reported : refreshed.record = record) :
    Files workspace record patched hash (.ok (some refreshed), after)
  | settled (refreshed : Refreshed) (after : Workspace) (output : OutputReference)
    (graph : after.graph = workspace.graph.modify record.specifier (settledRecord hash output))
    (missing : refreshed.missing = patched.missing)
    (reported : workspace.graph.get? record.specifier = some record →
      refreshed.record = settledRecord hash output record) :
    Files workspace record patched hash (.ok (some refreshed), after)

theorem files_settle (workspace : Workspace) (record : ModuleRecord) (isFresh : Bool) (patched : Patched) :
    Files workspace record patched
      ((workspace.graph.contentHash? record.specifier).getD record.sourceHash)
      (workspace.settle record isFresh patched) := by
  unfold settle
  extract_lets specifier hash key oldKey? mustWrite writes moved change
  generalize (if mustWrite then file workspace.store key patched.code oldKey?
    else (.ok (), workspace.store)) = filing
  obtain ⟨filed, store⟩ := filing
  cases filed with
  | error error => exact .failed _ _ (.inl rfl)
  | ok _ =>
    dsimp only
    split
    · next idle =>
      obtain ⟨-, same, ready⟩ := idle
      exact .kept _ _ rfl (by simpa [moved] using same) ready rfl rfl
    · cases found : workspace.graph.get? specifier with
      | none =>
        simp only [update, found]
        exact .gone _ rfl found
      | some old =>
        simp only [update_of_get? change found]
        have reported (there : workspace.graph.get? record.specifier = some record) :
            change old = settledRecord hash ⟨key, patched.code.length⟩ record :=
          congrArg change (Option.some.inj (found.symm.trans there))
        split
        · split
          · exact .settled _ _ ⟨key, patched.code.length⟩ rfl rfl reported
          · exact .failed _ _ (.inr ⟨⟨key, patched.code.length⟩, rfl⟩)
        · exact .settled _ _ ⟨key, patched.code.length⟩ rfl rfl reported

namespace Files

variable {workspace : Workspace} {record : ModuleRecord} {patched : Patched} {hash : String}
  {outcome : Except ArtifactError (Option Refreshed) × Workspace}

theorem graph (files : Files workspace record patched hash outcome) :
    outcome.2.graph = workspace.graph ∨
      ∃ output, outcome.2.graph = workspace.graph.modify record.specifier (settledRecord hash output) := by
  cases files with
  | failed _ _ graph => exact graph
  | gone _ graph => exact .inl graph
  | kept _ _ graph => exact .inl graph
  | settled _ _ output graph => exact .inr ⟨output, graph⟩

theorem revises (files : Files workspace record patched hash outcome) :
    workspace.graph.Revises outcome.2.graph := by
  rcases files.graph with same | ⟨output, settled⟩
  · exact same ▸ .refl _
  · exact settled ▸ revises_modify _ _ fun old =>
      ⟨old.flags.isDynamicEntryOnly, hash, some output, .ready, rfl⟩

theorem flags (files : Files workspace record patched hash outcome) {other : Specifier} {new : ModuleRecord}
    (there : outcome.2.graph.get? other = some new) :
    ∃ old, workspace.graph.get? other = some old ∧ new.flags = old.flags := by
  rcases files.graph with same | ⟨output, settled⟩
  · exact ⟨new, same ▸ there, rfl⟩
  · rw [settled, get?_modify] at there
    split at there
    · next same =>
      obtain ⟨old, found, rfl⟩ := Option.map_eq_some_iff.1 there
      exact ⟨old, same ▸ found, rfl⟩
    · exact ⟨new, there, rfl⟩

theorem others (files : Files workspace record patched hash outcome) {other : Specifier}
    (differ : other ≠ record.specifier) : outcome.2.graph.get? other = workspace.graph.get? other := by
  rcases files.graph with same | ⟨output, settled⟩
  · rw [same]
  · rw [settled, get?_modify, if_neg (Ne.symm differ)]

theorem of_refreshed (files : Files workspace record patched hash outcome)
    (found : workspace.graph.get? record.specifier = some record) {refreshed : Refreshed}
    (done : outcome.1 = .ok (some refreshed)) :
    refreshed.missing = patched.missing ∧ ∃ result, outcome.2.graph.get? record.specifier = some result ∧
      result.isReady ∧ result.contentHash = hash ∧ result.dependencies = record.dependencies := by
  cases files with
  | failed => cases done
  | gone => cases done
  | kept _ _ graph same ready missing _ =>
    cases done
    exact ⟨missing, record, by rw [graph, found], ready, same, rfl⟩
  | settled _ _ output graph missing _ =>
    cases done
    exact ⟨missing, settledRecord hash output record, by rw [graph, get?_settled found, if_pos rfl], rfl,
      rfl, rfl⟩

theorem specifier_reported (files : Files workspace record patched hash outcome)
    (found : workspace.graph.get? record.specifier = some record) {refreshed : Refreshed}
    (done : outcome.1 = .ok (some refreshed)) : refreshed.record.specifier = record.specifier := by
  cases files with
  | failed => cases done
  | gone => cases done
  | kept _ _ _ _ _ _ reported =>
    cases done
    rw [reported]
  | settled _ _ output _ _ reported =>
    cases done
    rw [reported found]
    rfl

theorem of_none (files : Files workspace record patched hash outcome) (done : outcome.1 = .ok none) :
    workspace.graph.get? record.specifier = none := by
  cases files with
  | failed => cases done
  | gone _ _ absent => exact absent
  | kept => cases done
  | settled => cases done

end Files

inductive Attempts (workspace : Workspace) (specifier : Specifier) :
    Except ArtifactError (Option Refreshed) × Workspace → Prop
  | left (idle : workspace.graph.foldView? specifier = none) :
    Attempts workspace specifier (.ok none, workspace)
  | failed (error : ArtifactError) (after : Workspace) (graph : after.graph = workspace.graph) :
    Attempts workspace specifier (.error error, after)
  | filed (record : ModuleRecord) (patched : Patched) (opened : Workspace) (isFresh : Bool)
    (found : workspace.graph.get? specifier = some record) (folds : record.folds)
    (missing : patched.missing = missingFrom workspace.graph record.specifier record.dependencies)
    (graph : opened.graph = workspace.graph) :
    Attempts workspace specifier (opened.settle record isFresh patched)

theorem attempts_refresh (workspace : Workspace) (specifier : Specifier) (staged? : Option Bytes) :
    Attempts workspace specifier (workspace.refresh specifier staged?) := by
  cases view : workspace.graph.foldView? specifier with
  | none =>
    rw [refresh_idle view]
    exact .left view
  | some seen =>
    obtain ⟨record, found, folds, -⟩ := foldView?_eq_some view
    unfold refresh
    simp only [found, folds, Bool.not_true, Bool.false_eq_true, if_false]
    split
    · exact .failed _ _ rfl
    · split
      · exact .failed _ _ rfl
      · exact .failed _ _ rfl
      · next patched patches => exact .filed record _ _ _ found folds (patchEdges_notes patches).1 rfl

namespace Attempts

variable {workspace : Workspace} {specifier : Specifier}
  {outcome : Except ArtifactError (Option Refreshed) × Workspace}

theorem revises (attempts : Attempts workspace specifier outcome) :
    workspace.graph.Revises outcome.2.graph := by
  cases attempts with
  | left => exact .refl _
  | failed _ _ graph => exact graph ▸ .refl _
  | filed record patched opened isFresh _ _ _ graph =>
    exact graph ▸ (files_settle opened record isFresh patched).revises

theorem flags (attempts : Attempts workspace specifier outcome) {other : Specifier} {new : ModuleRecord}
    (there : outcome.2.graph.get? other = some new) :
    ∃ old, workspace.graph.get? other = some old ∧ new.flags = old.flags := by
  cases attempts with
  | left => exact ⟨new, there, rfl⟩
  | failed _ _ graph => exact ⟨new, graph ▸ there, rfl⟩
  | filed record patched opened isFresh _ _ _ graph =>
    exact graph ▸ (files_settle opened record isFresh patched).flags there

variable (keyed : workspace.graph.Keyed)

include keyed

theorem others (attempts : Attempts workspace specifier outcome) {other : Specifier}
    (differ : other ≠ specifier) : outcome.2.graph.get? other = workspace.graph.get? other := by
  cases attempts with
  | left => rfl
  | failed _ _ graph => exact congrArg (·.get? other) graph
  | filed record patched opened isFresh found _ _ graph =>
    obtain rfl := keyed _ _ found
    exact ((files_settle opened record isFresh patched).others differ).trans (congrArg (·.get? other) graph)

theorem of_none (attempts : Attempts workspace specifier outcome) (done : outcome.1 = .ok none) :
    workspace.graph.foldView? specifier = none := by
  cases attempts with
  | left idle => exact idle
  | failed => cases done
  | filed record patched opened isFresh found _ _ graph =>
    obtain rfl := keyed _ _ found
    have absent := (files_settle opened record isFresh patched).of_none done
    cases (graph ▸ absent).symm.trans found

/-- A module that was refreshed is ready and up to date, and its imports without a record are reported. -/
theorem of_refreshed (attempts : Attempts workspace specifier outcome) {refreshed : Refreshed}
    (done : outcome.1 = .ok (some refreshed)) :
    ∃ record, outcome.2.graph.get? specifier = some record ∧ record.isReady ∧
      workspace.graph.contentHash? specifier = some record.contentHash ∧
      refreshed.missing = missingFrom workspace.graph specifier record.dependencies := by
  cases attempts with
  | left => cases done
  | failed => cases done
  | filed record patched opened isFresh found folds missing graph =>
    obtain rfl := keyed _ _ found
    obtain ⟨imports, hashed⟩ := contentHash?_eq_some (foldView?_of_get? found folds)
    have files := files_settle opened record isFresh patched
    rw [graph, hashed, Option.getD_some] at files
    obtain ⟨reported, result, there, ready, same, edges⟩ :=
      files.of_refreshed (graph ▸ found) done
    exact ⟨result, there, ready, same ▸ hashed, by rw [reported, missing, edges]⟩

theorem specifier_reported (attempts : Attempts workspace specifier outcome) {refreshed : Refreshed}
    (done : outcome.1 = .ok (some refreshed)) : refreshed.record.specifier = specifier := by
  cases attempts with
  | left => cases done
  | failed => cases done
  | filed record patched opened isFresh found _ _ graph =>
    obtain rfl := keyed _ _ found
    exact (files_settle opened record isFresh patched).specifier_reported (graph ▸ found) done

end Attempts

theorem revises_refreshAll (workspace : Workspace) (propagation : Propagation)
    (specifiers : List Specifier) :
    workspace.graph.Revises (workspace.refreshAll propagation specifiers).2.graph := by
  induction specifiers generalizing workspace propagation with
  | nil => exact .refl _
  | cons specifier rest ih =>
    have step := (attempts_refresh workspace specifier none).revises
    rw [refreshAll]
    split <;> next refreshed => exact (refreshed ▸ step).trans (ih _ _)

end Workspace

end ModuleBuild
