import ModuleBuild.Proofs.Compile.StockTurns
/-!
Imports while modules have their turns. A module gets new imports only in its own turn, and what it then imports
has a turn of its own; so the imports of a module that has none are at most lost.
-/

namespace ModuleBuild

open ModuleGraph Workspace ArtifactStore

namespace ModuleGraph

def importsTo (graph : ModuleGraph) (importer target : Specifier) : List DependencyEdge :=
  (graph.dependencies importer).filter (·.target = target)

/-- All imports of a module are dynamic. -/
def OnlyDynamic (graph : ModuleGraph) (target : Specifier) : Prop :=
  ∀ importer, ∀ edge ∈ graph.dependencies importer, edge.target = target → edge.isDynamic = true

def DropsTo (first second : ModuleGraph) (target : Specifier) : Prop :=
  ∀ importer, second.importsTo importer target = first.importsTo importer target ∨
    second.importsTo importer target = []

def Drops (first second : ModuleGraph) : Prop :=
  ∀ importer, second.dependencies importer = first.dependencies importer ∨
    second.dependencies importer = []

variable {first second third graph : ModuleGraph} {importer target : Specifier}

theorem mem_importsTo {edge : DependencyEdge} :
    edge ∈ graph.importsTo importer target ↔ edge ∈ graph.dependencies importer ∧ edge.target = target := by
  simp [importsTo]

theorem imports_iff_importsTo : graph.Imports importer target ↔ graph.importsTo importer target ≠ [] := by
  constructor
  · rintro ⟨edge, imports⟩
    exact List.ne_nil_of_mem (mem_importsTo.2 imports)
  · intro some
    obtain ⟨edge, member⟩ := List.exists_mem_of_ne_nil _ some
    exact ⟨edge, mem_importsTo.1 member⟩

theorem importsTo_congr (same : second.dependencies importer = first.dependencies importer) :
    second.importsTo importer target = first.importsTo importer target := by
  rw [importsTo, importsTo, same]

theorem Drops.refl (graph : ModuleGraph) : graph.Drops graph := fun _ => .inl rfl

theorem Drops.trans (one : first.Drops second) (two : second.Drops third) : first.Drops third := by
  intro importer
  rcases two importer with same | none
  · rw [same]
    exact one importer
  · exact .inr none

theorem importsTo_of_dependencies (target : Specifier)
    (drops : second.dependencies importer = first.dependencies importer ∨ second.dependencies importer = []) :
    second.importsTo importer target = first.importsTo importer target ∨
      second.importsTo importer target = [] := by
  refine drops.imp importsTo_congr fun none => ?_
  rw [importsTo, none]
  rfl

theorem Drops.dropsTo (drops : first.Drops second) (target : Specifier) : first.DropsTo second target :=
  fun importer => importsTo_of_dependencies target (drops importer)

theorem Revises.drops (revises : first.Revises second) : first.Drops second :=
  fun importer => .inl (revises.dependencies importer)

theorem DropsTo.refl (graph : ModuleGraph) (target : Specifier) : graph.DropsTo graph target :=
  fun _ => .inl rfl

theorem DropsTo.trans (one : first.DropsTo second target) (two : second.DropsTo third target) :
    first.DropsTo third target := by
  intro importer
  rcases two importer with same | none
  · rw [same]
    exact one importer
  · exact .inr none

theorem OnlyDynamic.of_dropsTo (only : first.OnlyDynamic target) (drops : first.DropsTo second target) :
    second.OnlyDynamic target := by
  intro importer edge member leads
  have listed : edge ∈ second.importsTo importer target := mem_importsTo.2 ⟨member, leads⟩
  rcases drops importer with same | none
  · exact only importer edge (mem_importsTo.1 (same ▸ listed)).1 leads
  · exact absurd (none ▸ listed) List.not_mem_nil

theorem isDynamicEntry_iff (indexed : graph.Indexed) :
    graph.isDynamicEntry target = true ↔
      (∃ importer, graph.Imports importer target) ∧ graph.OnlyDynamic target := by
  have importers : (graph.dependents target ≠ []) ↔ ∃ importer, graph.Imports importer target := by
    constructor
    · intro some
      obtain ⟨importer, member⟩ := List.exists_mem_of_ne_nil _ some
      exact ⟨importer, (mem_dependents indexed).1 member⟩
    · rintro ⟨importer, imports⟩
      exact List.ne_nil_of_mem ((mem_dependents indexed).2 imports)
  rw [isDynamicEntry, Bool.and_eq_true, Bool.not_eq_true', List.isEmpty_eq_false_iff, importers]
  refine and_congr_right fun _ => ?_
  simp only [List.all_eq_true, List.mem_filter, decide_eq_true_eq, mem_dependents indexed]
  constructor
  · intro all importer edge member leads
    exact all importer ⟨edge, member, leads⟩ edge ⟨member, leads⟩
  · rintro only importer - edge ⟨member, leads⟩
    exact only importer edge member leads

theorem isDynamicEntry_of_dropsTo (indexed : first.Indexed) (indexed' : second.Indexed)
    (drops : first.DropsTo second target)
    (kept : ∀ importer, first.Imports importer target → second.Imports importer target) :
    second.isDynamicEntry target = first.isDynamicEntry target := by
  have same (importer : Specifier) :
      second.importsTo importer target = first.importsTo importer target := by
    rcases drops importer with same | none
    · exact same
    · by_contra differ
      exact imports_iff_importsTo.1 (kept importer (imports_iff_importsTo.2 fun empty =>
        differ (none.trans empty.symm))) none
  have back : second.DropsTo first target := fun importer => .inl (same importer).symm
  rw [Bool.eq_iff_iff, isDynamicEntry_iff indexed, isDynamicEntry_iff indexed']
  simp only [imports_iff_importsTo, same]
  exact and_congr_right fun _ => ⟨fun only => only.of_dropsTo back, fun only => only.of_dropsTo drops⟩

theorem dependencies_of_mentioned (mentioned : Mentioned importer (first.get? importer) (second.get? importer)) :
    second.dependencies importer = first.dependencies importer ∨ second.dependencies importer = [] := by
  cases mentioned with
  | same kept => exact .inl (dependencies_congr kept)
  | created _ found =>
    rw [dependencies_of_get? found]
    exact .inr rfl
  | external _ found =>
    rw [dependencies_of_get? found]
    exact .inr rfl

end ModuleGraph

namespace Pass

/-! ## Indexes -/

theorem indexed_compileOutput (resolver : Resolver) {pass : Pass} (indexed : pass.workspace.graph.Indexed)
    (specifier : Specifier) (source : String) (kind : SourceKind) (output : Transpiled) :
    (pass.compileOutput resolver specifier source kind output).2.workspace.graph.Indexed := by
  cases resolved : resolveImports resolver specifier output.imports with
  | mk items error? =>
    cases error? with
    | some error =>
      simp only [compileOutput, link_error resolved]
      exact indexed_mentionExternals indexed (externalsOf items)
    | none =>
      simp only [compileOutput, link_ok resolved]
      refine indexed_install indexed (externalsOf items) specifier _ ?_ _
      exact fun _ => rfl

theorem indexed_build (tools : Toolchain) {pass : Pass} (indexed : pass.workspace.graph.Indexed)
    (record : ModuleRecord) : (pass.build tools record).2.workspace.graph.Indexed := by
  have run := buildRun tools pass record
  generalize pass.build tools record = result at run ⊢
  cases run with
  | unloaded => exact indexed
  | unread => exact indexed
  | @restored _ restored =>
    refine indexed_install indexed restored.externals record.specifier _ ?_ _
    exact fun _ => rfl
  | untranspiled _ _ _ _ counted => rcases counted with rfl | rfl <;> exact indexed
  | transpiled => exact indexed_compileOutput _ (by exact indexed) _ _ _ _

theorem indexed_compileOrFail (tools : Toolchain) {pass : Pass} (indexed : pass.workspace.graph.Indexed)
    (specifier : Specifier) (record : ModuleRecord) :
    (pass.compileOrFail tools specifier record).1.workspace.graph.Indexed := by
  have built := indexed_build tools indexed record
  unfold compileOrFail
  split
  · next error after result =>
    rw [result] at built
    exact built.modify specifier fun _ => rfl
  · next targets after result =>
    rw [result] at built
    exact built

theorem indexed_visit (tools : Toolchain) (options : CompileOptions) {pass : Pass}
    (indexed : pass.workspace.graph.Indexed) (specifier : Specifier) (isForced : Bool) :
    (pass.visit tools options specifier isForced).1.workspace.graph.Indexed := by
  have mentioned : (pass.setGraph (pass.workspace.graph.mention specifier)).workspace.graph.Indexed :=
    indexed.mention specifier
  rcases visit_cases tools options pass specifier isForced with ⟨-, visit⟩ | ⟨-, -, visit⟩
  · rw [visit]
    exact mentioned
  · rw [visit]
    exact indexed_compileOrFail tools mentioned specifier _

/-! ## Turns -/

theorem PassesBy.failsBare {specifier : Specifier} {before after : Pass}
    (passes : PassesBy specifier before after) (fails : before.FailsBare specifier) :
    after.FailsBare specifier := by
  obtain ⟨⟨error, failed⟩, record, found, errored, bare⟩ := fails
  exact ⟨⟨error, passes.errors.trans failed⟩, record, passes.record.of_errored found errored, errored, bare⟩

/-- Only modules that were claimed failed, and of those nothing is kept. -/
structure Marks (claimed : List Specifier) (pass : Pass) : Prop where
  clear : ∀ specifier, specifier ∉ claimed → pass.errors.get? specifier = none
  failed : ∀ specifier error, pass.errors.get? specifier = some error → pass.FailsBare specifier

variable {tools : Toolchain} {options : CompileOptions} {pass : Pass} {specifier : Specifier}

theorem Marks.visit {claimed : List Specifier} (marks : pass.Marks claimed)
    (keyed : pass.workspace.graph.Keyed) (fresh : specifier ∉ claimed) (isForced : Bool) :
    (pass.visit tools options specifier isForced).1.Marks (specifier :: claimed) := by
  have turn := hasTurn_visit tools options keyed specifier isForced
  refine ⟨fun other absent => ?_, fun other error failed => ?_⟩
  · obtain ⟨differ, absent⟩ := not_or.1 (mt List.mem_cons.2 absent)
    exact (turn.others other differ).errors.trans (marks.clear other absent)
  · by_cases own : other = specifier
    · subst own
      have clear := marks.clear other fresh
      by_cases due : pass.IsDue other isForced
      · obtain ⟨targets, loads, -⟩ := turn.due due
        refine loads.own.resolve_right fun ⟨same, _⟩ => ?_
        cases (same.trans clear).symm.trans failed
      · cases ((turn.idle due).errors.trans clear).symm.trans failed
    · have passes := turn.others other own
      exact passes.failsBare (marks.failed other error (passes.errors.symm.trans failed))

/-- The turn of a module brings no imports of another, unless it leads to that one. -/
theorem dropsTo_visit (whole : options.ignoreDependencies = false) (keyed : pass.workspace.graph.Keyed)
    (isForced : Bool) {target : Specifier}
    (apart : (tools.sources.get? specifier).isSome = true →
      target ∉ (pass.visit tools options specifier isForced).2) :
    pass.workspace.graph.DropsTo (pass.visit tools options specifier isForced).1.workspace.graph target := by
  have turn := hasTurn_visit tools options keyed specifier isForced
  have bystander {importer : Specifier} (passes : PassesBy importer pass
      (pass.visit tools options specifier isForced).1) :=
    importsTo_of_dependencies target (dependencies_of_mentioned passes.record)
  intro importer
  by_cases own : importer = specifier
  · subst own
    by_cases due : pass.IsDue importer isForced
    · obtain ⟨targets, loads, followed⟩ := turn.due due
      right
      rcases loads.own with ⟨-, record, found, -, bare⟩ | ⟨-, source, record, load, found, -, within⟩
      · rw [importsTo, dependencies_of_get? found, bare]
        rfl
      · rw [importsTo, dependencies_of_get? found, List.filter_eq_nil_iff]
        rw [whole] at followed
        intro edge member leads
        refine apart ?_ (followed ▸ of_decide_eq_true leads ▸ within edge member)
        cases entry : tools.sources.get? importer with
        | none => simp [SourceTree.load, entry] at load
        | some _ => rfl
    · exact bystander (turn.idle due)
  · exact bystander (turn.others importer own)

/-- What all turns of a pass come to: a module that has none is no more than mentioned, and gets no imports. -/
theorem visited_visitAll (tools : Toolchain) {options : CompileOptions}
    (whole : options.ignoreDependencies = false) (claimed : List Specifier) (pass : Pass)
    (work : List (Specifier × Bool)) (indexed : pass.workspace.graph.Indexed) (marks : pass.Marks claimed) :
    let (after, touched) := visitAll tools options claimed pass work
    after.workspace.graph.Indexed ∧ after.Marks touched ∧ ∀ target, target ∉ touched →
      Mentioned target (pass.workspace.graph.get? target) (after.workspace.graph.get? target) ∧
        pass.workspace.graph.DropsTo after.workspace.graph target := by
  induction claimed, pass, work using visitAll_induction tools options with
  | done claimed pass =>
    rw [visitAll]
    exact ⟨indexed, ⟨fun other absent => marks.clear other (mt List.mem_reverse.2 absent), marks.failed⟩,
      fun target _ => ⟨.same rfl, .refl _ target⟩⟩
  | old claimed pass other isForced rest old ih =>
    rw [visitAll_of_mem tools options old]
    exact ih indexed marks
  | turn claimed pass other isForced rest targets fresh leads next ih =>
    have keyed : pass.workspace.graph.Keyed := fun _ _ => indexed.keyed
    have turn := hasTurn_visit tools options keyed other isForced
    have done (specifier : Specifier) := @mem_visitAll tools options (other :: claimed)
      (pass.visit tools options other isForced).1 (targets.map (·, false) ++ rest) specifier
    have later := ih (indexed_visit tools options indexed other isForced) (marks.visit keyed fresh isForced)
    rw [next]
    generalize visitAll tools options (other :: claimed) (pass.visit tools options other isForced).1
      (targets.map (·, false) ++ rest) = result at later done ⊢
    obtain ⟨after, touched⟩ := result
    refine ⟨later.1, later.2.1, fun target absent => ?_⟩
    obtain ⟨mentioned, drops⟩ := later.2.2 target absent
    have differ : target ≠ other := fun same => absent (done target (.inl (same ▸ List.mem_cons_self)))
    -- what the turn leads to is visited, so it leads not to the target
    have apart (sourced : (tools.sources.get? other).isSome = true) :
        target ∉ (pass.visit tools options other isForced).2 := fun member =>
      absent (done target (.inr ⟨false, List.mem_append_left _
        (List.mem_map.2 ⟨target, (leads target).2 ⟨sourced, member⟩, rfl⟩)⟩))
    exact ⟨(turn.others target differ).record.trans mentioned,
      (dropsTo_visit whole keyed isForced apart).trans drops⟩

end Pass

end ModuleBuild
