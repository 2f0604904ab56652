import ModuleBuild.Proofs.Compile.Attempts
import ModuleBuild.Proofs.Compile.Calls
/-!
Settling and repairing modules leaves alone where they come from: their source hashes, and whether they are
compiled at all. It loads nothing, and what failed stays failed.
-/

namespace ModuleBuild

open ModuleGraph Workspace ArtifactStore Pass

def ModuleRecord.origin (record : ModuleRecord) : String × Bool := (record.sourceHash, record.isExternal)

def ModuleGraph.KeepsOrigins (first second : ModuleGraph) : Prop :=
  ∀ specifier, (second.get? specifier).map (·.origin) = (first.get? specifier).map (·.origin)

theorem ModuleGraph.KeepsOrigins.trans {first second third : ModuleGraph} (one : first.KeepsOrigins second)
    (two : second.KeepsOrigins third) : first.KeepsOrigins third :=
  fun specifier => (two specifier).trans (one specifier)

theorem ModuleGraph.KeepsOrigins.isExternal {first second : ModuleGraph} (keeps : first.KeepsOrigins second)
    (specifier : Specifier) :
    (second.get? specifier).any (·.isExternal) = (first.get? specifier).any (·.isExternal) := by
  have same := congrArg (Option.any Prod.snd) (keeps specifier)
  rw [Option.any_map, Option.any_map] at same
  exact same

theorem ModuleGraph.KeepsOrigins.sourceHash {first second : ModuleGraph} (keeps : first.KeepsOrigins second)
    (specifier : Specifier) :
    (second.get? specifier).map (·.sourceHash) = (first.get? specifier).map (·.sourceHash) := by
  have same := congrArg (Option.map Prod.fst) (keeps specifier)
  rw [Option.map_map, Option.map_map] at same
  exact same

theorem ModuleGraph.keepsOrigins_modify (graph : ModuleGraph) (specifier : Specifier)
    {change : ModuleRecord → ModuleRecord} (keeps : ∀ record, (change record).origin = record.origin) :
    graph.KeepsOrigins (graph.modify specifier change) := by
  intro other
  rw [get?_modify]
  split
  · next same =>
    subst same
    rw [Option.map_map]
    exact congrArg (Option.map · _) (funext keeps)
  · rfl

theorem ModuleGraph.Revises.keepsOrigins {first second : ModuleGraph} (revises : first.Revises second) :
    first.KeepsOrigins second := by
  intro specifier
  rcases revises.get? specifier with ⟨absent, absent'⟩ | ⟨old, new, found, found', revises⟩
  · rw [absent, absent']
  · rw [found, found', Option.map_some, Option.map_some, ModuleRecord.origin, revises.sourceHash,
      revises.isExternal, ModuleRecord.origin]

/-- What is reported of a module stays an error, and what was loaded or transpiled stays so. -/
structure PassReport.Extends (first second : PassReport) : Prop where
  loads : second.loads = first.loads
  calls : second.transpilerCalls = first.transpilerCalls
  errors : ∀ specifier error, first.outcomes.get? specifier = some (.error error) →
    ∃ error, second.outcomes.get? specifier = some (.error error)

theorem PassReport.extends_absorb (report : PassReport) (workspace : Workspace)
    (propagation : Propagation) :
    let (after, repaired) := report.absorb workspace propagation
    report.Extends after ∧ workspace.graph.KeepsOrigins repaired.graph := by
  refine ⟨⟨rfl, rfl, fun specifier error failed => ?_⟩, ?_⟩
  · let Fails (outcomes : OrderedMap Specifier (Except ModuleError ModuleRecord)) : Prop :=
      ∃ error, outcomes.get? specifier = some (.error error)
    refine List.foldlRecOn (motive := Fails) propagation.failures _ ⟨error, failed⟩
      fun outcomes failed failure _ => ?_
    simp only [Fails, OrderedMap.get?_insert]
    split
    · exact ⟨_, rfl⟩
    · exact failed
  · exact List.foldlRecOn propagation.failures _ (fun _ => rfl) fun graph keeps failure _ =>
      ModuleGraph.KeepsOrigins.trans keeps (graph.keepsOrigins_modify failure.1 fun _ => rfl)

theorem Workspace.extends_repairImporters (workspace : Workspace) (report : PassReport)
    (changed : Specifier) :
    let (after, repaired) := workspace.repairImporters report changed
    report.Extends after ∧ workspace.graph.KeepsOrigins repaired.graph := by
  have refreshed := workspace.revises_refreshAll {} (affected workspace.graph changed)
  obtain ⟨extends', keeps⟩ := report.extends_absorb (workspace.propagate changed).2
    (workspace.propagate changed).1
  exact ⟨extends', refreshed.keepsOrigins.trans keeps⟩

namespace Pass

/-- While modules are settled nothing is loaded or transpiled, and those that failed stay failed. -/
structure Rests (first second : Pass) : Prop where
  loads : second.loads = first.loads
  calls : second.transpilerCalls = first.transpilerCalls
  errors : ∀ specifier error, first.errors.get? specifier = some error →
    ∃ error, second.errors.get? specifier = some error
  graph : first.workspace.graph.KeepsOrigins second.workspace.graph

theorem Rests.refl (pass : Pass) : Rests pass pass :=
  ⟨rfl, rfl, fun _ error failed => ⟨error, failed⟩, fun _ => rfl⟩

theorem Rests.trans {first second third : Pass} (one : Rests first second) (two : Rests second third) :
    Rests first third := by
  refine ⟨two.loads.trans one.loads, two.calls.trans one.calls, fun specifier error failed => ?_,
    one.graph.trans two.graph⟩
  obtain ⟨_, failed'⟩ := one.errors specifier error failed
  exact two.errors specifier _ failed'

theorem Rests.clear {first second : Pass} (rests : Rests first second) {specifier : Specifier}
    (clear : second.errors.get? specifier = none) : first.errors.get? specifier = none := by
  by_contra failed
  obtain ⟨error, failed⟩ := Option.ne_none_iff_exists'.1 failed
  obtain ⟨_, failed'⟩ := rests.errors specifier error failed
  cases failed'.symm.trans clear

theorem rests_enter (pass : Pass) (specifier : Specifier) : Rests pass (pass.enter specifier) :=
  ⟨rfl, rfl, fun _ error failed => ⟨error, failed⟩, (revises_updateEntryFlag _ specifier).keepsOrigins⟩

theorem rests_fail (pass : Pass) (specifier : Specifier) (error : ModuleError) :
    Rests pass (pass.fail specifier error) := by
  refine ⟨rfl, rfl, fun other old failed => ?_,
    pass.workspace.graph.keepsOrigins_modify specifier fun _ => rfl⟩
  have inserted := OrderedMap.get?_insert pass.errors specifier other error
  by_cases same : specifier = other
  · exact ⟨error, inserted.trans (if_pos same)⟩
  · exact ⟨old, inserted.trans ((if_neg same).trans failed)⟩

theorem rests_settleOne (pass : Pass) (report : PassReport) (specifier : Specifier) :
    Rests pass (pass.settleOne report specifier).1 := by
  cases failed : pass.errors.get? specifier with
  | some error =>
    rw [settleOne_failed failed]
    exact .refl pass
  | none =>
    rw [settleOne_of_clear failed]
    dsimp only
    split
    · exact rests_enter pass specifier
    · have refreshed := (attempts_refresh (pass.enter specifier).workspace specifier
        ((pass.enter specifier).staged.get? specifier)).revises
      have entered := rests_enter pass specifier
      generalize (pass.enter specifier).workspace.refresh specifier
        ((pass.enter specifier).staged.get? specifier) = result at refreshed ⊢
      obtain ⟨refreshed?, workspace⟩ := result
      have left : Rests pass { pass.enter specifier with workspace } :=
        entered.trans ⟨rfl, rfl, fun _ error failed => ⟨error, failed⟩, refreshed.keepsOrigins⟩
      dsimp only
      split
      · exact left.trans (rests_fail _ specifier _)
      · exact left
      · exact left

theorem rests_settleAll (pass : Pass) (report : PassReport) (work : List Specifier) :
    Rests pass (settleAll pass report work).1 := by
  induction work generalizing pass report with
  | nil => exact .refl pass
  | cons specifier rest ih => exact (rests_settleOne pass report specifier).trans (ih _ _)

theorem rests_settle (pass : Pass) (touched : List Specifier) :
    let (report, workspace) := pass.settle touched
    report.loads = pass.loads.reverse ∧ pass.workspace.graph.KeepsOrigins workspace.graph ∧
      ∀ specifier ∈ touched, ∀ error, pass.errors.get? specifier = some error →
        ∃ error, report.outcomes.get? specifier = some (.error error) := by
  have whole := rests_settleAll pass {} touched
  simp only [settle_eq]
  generalize settleAll pass {} touched = result at whole ⊢
  obtain ⟨last, report⟩ := result
  refine ⟨congrArg List.reverse whole.loads, whole.graph, fun specifier member error failed => ?_⟩
  obtain ⟨error', failed'⟩ := whole.errors specifier error failed
  refine ⟨error', ?_⟩
  rw [get?_outcomes, if_pos member, outcome?, failed']

end Pass

namespace Workspace

/-- What a pass makes of a module is what it finds of it, once the modules have had their turns. -/
theorem extends_compileAll (workspace : Workspace) (tools : Toolchain) (roots : List Specifier)
    (options : CompileOptions) :
    let (pass, touched) := Pass.visitAll tools options [] { workspace } (roots.map (·, options.forceRefresh))
    let (report, after) := workspace.compileAll tools roots options
    report.loads = pass.loads.reverse ∧ pass.workspace.graph.KeepsOrigins after.graph ∧
      ∀ specifier ∈ touched, ∀ error, pass.errors.get? specifier = some error →
        ∃ error, report.outcomes.get? specifier = some (.error error) := by
  generalize visited : Pass.visitAll tools options [] { workspace } (roots.map (·, options.forceRefresh)) =
    result
  obtain ⟨pass, touched⟩ := result
  dsimp only
  refine workspace.compileAll_induction tools roots options ?_ ?_
  · rw [visited]
    exact pass.rests_settle touched
  · rintro report middle root ⟨loads, graph, failures⟩
    obtain ⟨more, later⟩ := middle.extends_repairImporters report root
    refine ⟨more.loads.trans loads, graph.trans later, fun specifier member error failed => ?_⟩
    obtain ⟨error', failed'⟩ := failures specifier member error failed
    exact more.errors specifier error' failed'

theorem calls_compileAll (workspace : Workspace) (tools : Toolchain) (roots : List Specifier)
    (options : CompileOptions) :
    (workspace.compileAll tools roots options).1.transpilerCalls =
      (Pass.visitAll tools options [] { workspace }
        (roots.map (·, options.forceRefresh))).1.transpilerCalls.reverse := by
  generalize visited : Pass.visitAll tools options [] { workspace } (roots.map (·, options.forceRefresh)) =
    result
  obtain ⟨pass, touched⟩ := result
  refine workspace.compileAll_induction tools roots options ?_ ?_
  · rw [visited]
    dsimp only
    rw [settle_eq]
    exact congrArg List.reverse (pass.rests_settleAll {} touched).calls
  · intro report middle root calls
    exact (middle.extends_repairImporters report root).1.calls.trans calls

end Workspace

end ModuleBuild
