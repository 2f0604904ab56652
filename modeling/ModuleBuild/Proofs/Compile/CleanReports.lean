import ModuleBuild.Proofs.Bundle.Gate
import ModuleBuild.Proofs.Compile.ContentAddress
import ModuleBuild.Proofs.Compile.Grounded
import ModuleBuild.Proofs.Compile.Takeover
/-!
What a clean report is worth to the gate before a bundle. All that a pass touched passes the gate by itself,
and so does all that imports lead to from its roots, as far as the pass had to follow them: behind a module
that was ready, or is left alone, it does not look.
-/

namespace ModuleBuild

open ModuleGraph Workspace ArtifactStore Pass Relation

namespace ModuleGraph

/-- A module that the gate has nothing against: it is left alone, or up to date and all its imports have
records. -/
def IsComplete (graph : ModuleGraph) (specifier : Specifier) : Prop :=
  ∃ record, graph.get? specifier = some record ∧
    (record.isExternal ∨ record.isReady ∧ graph.isCurrent record ∧
      ∀ edge ∈ record.dependencies, graph.contains edge.target)

def HasOrigin (graph : ModuleGraph) (specifier : Specifier) : Prop :=
  ∃ record, graph.get? specifier = some record ∧ (record.isExternal ∨ record.sourceHash ≠ "")

/-- A module behind which a pass does not look unless it is forced to. -/
def HidesImports (graph : ModuleGraph) (specifier : Specifier) : Prop :=
  ∃ record, graph.get? specifier = some record ∧ (record.isExternal ∨ record.isReady)

variable {first second : ModuleGraph} {specifier : Specifier}

theorem IsComplete.fault? (complete : first.IsComplete specifier) (modules : List Specifier) :
    Bundle.fault? first modules specifier (first.get? specifier) = none := by
  obtain ⟨record, found, fine⟩ := complete
  rw [Bundle.fault?_eq_none_iff, found]
  exact fine.imp_right fun ⟨ready, rest⟩ => ⟨eq_of_beq ready, rest⟩

theorem Revises.contains (revises : first.Revises second) (specifier : Specifier) :
    second.contains specifier = first.contains specifier := by
  rcases revises.get? specifier with ⟨absent, absent'⟩ | ⟨old, new, found, found', -⟩
  · rw [contains_eq, contains_eq, absent, absent']
  · rw [contains_eq, contains_eq, found, found', Option.isSome_some, Option.isSome_some]

theorem IsComplete.revises (complete : first.IsComplete specifier) (revises : first.Revises second)
    (same : second.get? specifier = first.get? specifier) : second.IsComplete specifier := by
  obtain ⟨record, found, fine⟩ := complete
  refine ⟨record, same.trans found, fine.imp_right fun ⟨ready, current, recorded⟩ => ⟨ready, ?_, ?_⟩⟩
  · rw [isCurrent, revises.contentHash?]
    exact current
  · exact fun edge member => (revises.contains edge.target).trans (recorded edge member)

theorem HasOrigin.keeps (origin : first.HasOrigin specifier) (keeps : first.KeepsOrigins second) :
    second.HasOrigin specifier := by
  obtain ⟨record, found, own⟩ := origin
  have same := keeps specifier
  rw [found, Option.map_some] at same
  obtain ⟨new, found', same⟩ := Option.map_eq_some_iff.1 same
  obtain ⟨source, isExternal⟩ := Prod.mk.inj same
  exact ⟨new, found', by rwa [isExternal, source]⟩

theorem HidesImports.hasOrigin (grounded : first.Grounded) (hides : first.HidesImports specifier) :
    first.HasOrigin specifier := by
  obtain ⟨record, found, isExternal | ready⟩ := hides
  · exact ⟨record, found, .inl isExternal⟩
  · exact ⟨record, found, (grounded specifier record found).2 ready⟩

theorem HidesImports.mentioned (hides : first.HidesImports specifier)
    (mentioned : Mentioned specifier (first.get? specifier) (second.get? specifier)) :
    second.HidesImports specifier := by
  obtain ⟨record, found, idle⟩ := hides
  cases mentioned with
  | same kept => exact ⟨record, kept.trans found, idle⟩
  | created absent => cases absent.symm.trans found
  | external _ there => exact ⟨_, there, .inl rfl⟩

end ModuleGraph

/-! ## What is settled -/

/-- A refresh that goes through and meets no import without a record leaves nothing against the module. -/
theorem Workspace.Attempts.isComplete {workspace after : Workspace} {specifier : Specifier}
    {refreshed? : Option Refreshed} (attempts : Attempts workspace specifier (.ok refreshed?, after))
    (grounded : workspace.graph.Grounded) (origin : workspace.graph.HasOrigin specifier)
    (recorded : ∀ refreshed, refreshed? = some refreshed → refreshed.missing = []) :
    after.graph.IsComplete specifier := by
  cases refreshed? with
  | none =>
    obtain ⟨record, found, own⟩ := origin
    obtain ⟨new, there, revises⟩ := attempts.revises.get?_of_get? found
    have idle := attempts.of_none grounded.keyed rfl
    refine ⟨new, there, .inl ?_⟩
    by_contra compiled
    have folds : record.folds := by simp_all [revises.isExternal, ModuleRecord.folds]
    cases (foldView?_of_get? found folds).symm.trans idle
  | some refreshed =>
    obtain ⟨record, there, ready, hashed, reported⟩ := attempts.of_refreshed grounded.keyed rfl
    rw [recorded refreshed rfl, eq_comm, missingFrom_eq_nil_iff] at reported
    refine ⟨record, there, .inr ⟨ready, ?_, fun edge member => ?_⟩⟩
    · rw [isCurrent, (attempts.grounded grounded specifier record there).1, attempts.revises.contentHash?,
        hashed, Option.getD_some, beq_self_eq_true]
    · rw [attempts.revises.contains, contains_eq, Option.isSome_iff_exists]
      exact reported edge member

namespace Pass

variable {pass : Pass}

/-- A module that is settled without a failure and without missing imports. -/
theorem settleOne_clean (grounded : pass.workspace.graph.Grounded) {specifier : Specifier}
    (origin : pass.workspace.graph.HasOrigin specifier) (report : PassReport) :
    let (after, report') := pass.settleOne report specifier
    after.errors.get? specifier = none → report'.missing = [] →
      report.missing = [] ∧ pass.workspace.graph.Revises after.workspace.graph ∧
        (∀ other, other ≠ specifier →
          after.workspace.graph.get? other = pass.workspace.graph.get? other) ∧
        after.workspace.graph.IsComplete specifier := by
  cases failed : pass.errors.get? specifier with
  | some error =>
    rw [settleOne_failed failed]
    exact fun clear => by cases failed.symm.trans clear
  | none =>
    have enters := revises_updateEntryFlag pass.workspace.graph specifier
    have others (other : Specifier) (differ : other ≠ specifier) :
        (pass.enter specifier).workspace.graph.get? other = pass.workspace.graph.get? other :=
      get?_enter_other pass differ
    have grounded' : (pass.enter specifier).workspace.graph.Grounded := grounded.updateEntryFlag specifier
    have origin' : (pass.enter specifier).workspace.graph.HasOrigin specifier :=
      origin.keeps enters.keepsOrigins
    rw [settleOne_of_clear failed]
    dsimp only
    split
    · next upToDate =>
      intro _ none
      obtain ⟨record, found, -⟩ := origin'
      obtain ⟨earlier, missing⟩ := List.append_eq_nil_iff.1 none
      rw [missing_eq, dependencies_of_get? found, missingFrom_eq_nil_iff] at missing
      simp only [isSettled, found, Bool.and_eq_true] at upToDate
      refine ⟨earlier, enters, others, record, found, .inr ⟨upToDate.2.1, upToDate.2.2, ?_⟩⟩
      exact fun edge member => by rw [contains_eq, Option.isSome_iff_exists.2 (missing edge member)]
    -- a refresh notes what it misses, so an empty list leaves the module complete
    · have attempts := attempts_refresh (pass.enter specifier).workspace specifier
        ((pass.enter specifier).staged.get? specifier)
      generalize (pass.enter specifier).workspace.refresh specifier
        ((pass.enter specifier).staged.get? specifier) = outcome at attempts ⊢
      have revises := enters.trans attempts.revises
      have others' (other : Specifier) (differ : other ≠ specifier) :=
        (attempts.others grounded'.keyed differ).trans (others other differ)
      obtain ⟨error | _ | refreshed, after⟩ := outcome
      · have fails := (OrderedMap.get?_insert pass.errors specifier specifier
          (ModuleError.artifact error)).trans (if_pos rfl)
        exact fun clear => by cases fails.symm.trans clear
      · exact fun _ none => ⟨none, revises, others', attempts.isComplete grounded' origin' (by simp)⟩
      · intro _ none
        obtain ⟨earlier, missing⟩ := List.append_eq_nil_iff.1 none
        refine ⟨earlier, revises, others', attempts.isComplete grounded' origin' ?_⟩
        rintro _ ⟨⟩
        exact missing

/-- Modules that are settled without failures and without missing imports. -/
theorem settleAll_clean (grounded : pass.workspace.graph.Grounded) (work : List Specifier)
    (origin : ∀ specifier ∈ work, pass.workspace.graph.HasOrigin specifier) (report : PassReport) :
    let (after, report') := settleAll pass report work
    (∀ specifier ∈ work, after.errors.get? specifier = none) → report'.missing = [] →
      report.missing = [] ∧ pass.workspace.graph.Revises after.workspace.graph ∧
        (∀ other, other ∉ work →
          after.workspace.graph.get? other = pass.workspace.graph.get? other) ∧
        ∀ specifier ∈ work, after.workspace.graph.IsComplete specifier := by
  induction work generalizing pass report with
  | nil => exact fun _ none => ⟨none, .refl _, fun _ _ => rfl, nofun⟩
  | cons specifier rest ih =>
    have one := settleOne_clean grounded (origin specifier List.mem_cons_self) report
    have grounded' := grounded_settleOne grounded report specifier
    have keeps := (rests_settleOne pass report specifier).graph
    rw [show settleAll pass report (specifier :: rest) =
      settleAll (pass.settleOne report specifier).1 (pass.settleOne report specifier).2 rest from rfl]
    generalize pass.settleOne report specifier = result at one grounded' keeps ⊢
    obtain ⟨middle, report'⟩ := result
    have later := ih grounded' (fun other member =>
      (origin other (List.mem_cons_of_mem _ member)).keeps keeps) report'
    have rests := rests_settleAll middle report' rest
    generalize settleAll middle report' rest = result at later rests ⊢
    obtain ⟨last, report''⟩ := result
    intro clear none
    obtain ⟨none', revises', others', complete'⟩ :=
      later (fun other member => clear other (List.mem_cons_of_mem _ member)) none
    obtain ⟨earlier, revises, others, complete⟩ :=
      one (rests.clear (clear specifier List.mem_cons_self)) none'
    refine ⟨earlier, revises.trans revises', fun other absent => ?_, fun other member => ?_⟩
    · obtain ⟨differ, absent⟩ := not_or.1 (mt List.mem_cons.2 absent)
      exact (others' other absent).trans (others other differ)
    · by_cases again : other ∈ rest
      · exact complete' other again
      · obtain rfl := (List.mem_cons.1 member).resolve_right again
        exact complete.revises revises' (others' other again)

/-! ## What is visited -/

/-- A pass deals with a module: the module has a source or needs none, and what it imports is dealt with too,
unless the pass did not look. -/
structure DealsWith (base graph : ModuleGraph) (touched : List Specifier) (specifier : Specifier) : Prop where
  origin : graph.HasOrigin specifier
  follows : base.HidesImports specifier ∨ ∀ target, graph.Imports specifier target → target ∈ touched

theorem hidesImports_of_idle {specifier : Specifier}
    (idle : ¬ pass.IsDue specifier false) : pass.workspace.graph.HidesImports specifier := by
  unfold IsDue at idle
  cases found : pass.workspace.graph.get? specifier with
  | none => simp [found] at idle
  | some record =>
    refine ⟨record, found, ?_⟩
    cases isExternal : record.isExternal <;> simp_all

theorem dealsWith_visitAll (tools : Toolchain) (pass : Pass) (grounded : pass.workspace.graph.Grounded)
    (roots : List Specifier) (specifier : Specifier) :
    let (after, touched) := visitAll tools {} [] pass (roots.map (·, false))
    specifier ∈ touched → after.errors.get? specifier = none →
      DealsWith pass.workspace.graph after.workspace.graph touched specifier := by
  have turn := visitAll_turn tools {} [] pass (roots.map (·, false)) grounded.keyed
    (List.not_mem_nil : specifier ∉ [])
  have grounded' := grounded_visitAll tools {} [] pass (roots.map (·, false)) grounded
  generalize visitAll tools {} [] pass (roots.map (·, false)) = result at turn grounded' ⊢
  obtain ⟨last, touched⟩ := result
  intro member clear
  obtain ⟨-, middle, isForced, named, before, forced, after, leads⟩ :=
    turn.resolve_left fun turn => turn.1 member
  obtain rfl : isForced = false := by simpa using forced
  have turn := hasTurn_visit tools {} named specifier false
  by_cases due : middle.IsDue specifier false
  · obtain ⟨targets, loads, followed⟩ := turn.due due
    rcases loads.own with ⟨⟨error, failed⟩, -⟩ | ⟨-, source, record, load, found, same, within⟩
    · cases (after.errors.trans failed).symm.trans clear
    · have loaded : record.sourceHash ≠ "" := by rw [same]; exact sourceHash_ne _
      have found' := after.record.of_loaded found loaded
      refine ⟨⟨record, found', .inr loaded⟩, .inr ?_⟩
      rintro target ⟨edge, written, rfl⟩
      rw [dependencies_of_get? found'] at written
      have given : (tools.sources.get? specifier).isSome := by
        cases entry : tools.sources.get? specifier with
        | none => simp [SourceTree.load, entry] at load
        | some _ => rfl
      exact leads given _ (followed ▸ within edge written)
  -- a module that is not due was ready or left alone, and stays so unless it is mentioned
  · have passes := (turn.idle due).trans after
    have hides := (hidesImports_of_idle due).mentioned passes.record
    refine ⟨hides.hasOrigin grounded', ?_⟩
    obtain ⟨record, found, idle⟩ := hides
    cases before.record.trans passes.record with
    | same kept => exact .inl ⟨record, kept.symm.trans found, idle⟩
    | created _ there =>
      obtain rfl := Option.some.inj (there.symm.trans found)
      cases idle <;> contradiction
    | external _ there =>
      refine .inr fun target imports => ?_
      obtain ⟨edge, written, -⟩ := imports
      rw [dependencies_of_get? there] at written
      cases written

end Pass

/-! ## What a clean report is worth -/

theorem PassReport.ensureClean_eq_ok (report : PassReport) :
    report.ensureClean = .ok () ↔ report.isClean = true := by
  unfold ensureClean isClean
  split <;> simp_all

/-- A report vouches for what it covers: the roots and what they import, up to modules that were ready before
the pass or are left alone. -/
structure PassReport.Vouches (report : PassReport) (before after : ModuleGraph) (roots : List Specifier) :
    Prop where
  rooted : ∀ root ∈ roots, report.outcomes.contains root
  complete : ∀ specifier, report.outcomes.contains specifier → after.IsComplete specifier
  follows : ∀ specifier, report.outcomes.contains specifier → before.HidesImports specifier ∨
    ∀ target, after.Imports specifier target → report.outcomes.contains target

theorem Pass.vouches_settle {pass : Pass} (grounded : pass.workspace.graph.Grounded) {base : ModuleGraph}
    {roots touched : List Specifier} (rooted : ∀ root ∈ roots, root ∈ touched)
    (deals : ∀ specifier ∈ touched, pass.errors.get? specifier = none →
      DealsWith base pass.workspace.graph touched specifier) :
    let (report, after) := pass.settle touched
    report.ensureClean = .ok () → report.Vouches base after.graph roots := by
  have settled (origin : ∀ specifier ∈ touched, pass.workspace.graph.HasOrigin specifier) :=
    settleAll_clean grounded touched origin {}
  have rests := rests_settleAll pass {} touched
  rw [settle_eq]
  generalize settleAll pass {} touched = result at settled rests ⊢
  obtain ⟨last, report⟩ := result
  dsimp only at settled rests ⊢
  rw [PassReport.ensureClean_eq_ok, PassReport.isClean_iff]
  rintro ⟨noErrors, noMissing⟩
  have clear (specifier : Specifier) (member : specifier ∈ touched) :
      last.errors.get? specifier = none := by
    by_contra failed
    obtain ⟨error, failed⟩ := Option.ne_none_iff_exists'.1 failed
    refine noErrors specifier error ?_
    rw [get?_outcomes, if_pos member, outcome?, failed]
  have deals' (specifier : Specifier) (member : specifier ∈ touched) :=
    deals specifier member (rests.clear (clear specifier member))
  obtain ⟨-, revises, -, complete⟩ :=
    settled (fun specifier member => (deals' specifier member).origin) clear noMissing
  have touches (specifier : Specifier) :
      (last.outcomes touched).contains specifier ↔ specifier ∈ touched := by
    rw [OrderedMap.contains, get?_outcomes]
    by_cases member : specifier ∈ touched
    · obtain ⟨record, found, -⟩ := complete specifier member
      simp [member, outcome?, clear specifier member, found]
    · simp [member]
  refine ⟨fun root member => (touches root).2 (rooted root member),
    fun specifier told => complete specifier ((touches specifier).1 told), fun specifier told => ?_⟩
  refine (deals' specifier ((touches specifier).1 told)).follows.imp_right fun follows target imports => ?_
  rw [Imports, revises.dependencies] at imports
  exact (touches target).2 (follows target imports)

theorem vouches_compileAll {workspace : Workspace} (grounded : workspace.graph.Grounded)
    (tools : Toolchain) (roots : List Specifier) :
    let (report, after) := workspace.compileAll tools roots
    report.ensureClean = .ok () → report.Vouches workspace.graph after.graph roots := by
  have grounded' := grounded_visitAll tools {} [] { workspace } (roots.map (·, false)) grounded
  have deals := dealsWith_visitAll tools { workspace } grounded roots
  have rooted (root : Specifier) (member : root ∈ roots) :=
    mem_visitAll tools {} [] { workspace } (roots.map (·, false))
      (.inr ⟨false, List.mem_map.2 ⟨root, member, rfl⟩⟩)
  exact vouches_settle grounded' rooted deals

namespace PassReport.Vouches

variable {report : PassReport} {before after : ModuleGraph} {roots : List Specifier}
  (vouches : report.Vouches before after roots)

include vouches

/-- What imports lead to from a module that a report covers is covered as well, or hidden from it. -/
theorem covers_or_hides {first other : Specifier} (told : report.outcomes.contains first)
    (leads : ReflTransGen after.Imports first other) : report.outcomes.contains other ∨
      ∃ kept, report.outcomes.contains kept ∧ before.HidesImports kept ∧
        TransGen after.Imports kept other := by
  induction leads with
  | refl => exact .inl told
  | @tail middle _ _ imports ih =>
    rcases ih with told | ⟨kept, told, hides, leads⟩
    · exact (vouches.follows middle told).symm.imp (· _ imports) fun hides =>
        ⟨middle, told, hides, .single imports⟩
    · exact .inr ⟨kept, told, hides, leads.tail imports⟩

theorem check {entries : List Bundle.EntryPoint}
    (among : ∀ entry ∈ entries, ∀ root ∈ entry.modules, root ∈ roots)
    {fault : FatalError} (fails : Bundle.check after entries = .error fault) :
    ∃ kept hidden, report.outcomes.contains kept ∧ before.HidesImports kept ∧
      TransGen after.Imports kept hidden ∧ report.outcomes.contains hidden = false ∧
      Bundle.fault? after (entries.flatMap (·.modules)) hidden (after.get? hidden) = some fault := by
  unfold Bundle.check at fails
  dsimp only at fails
  split at fails
  · next found =>
    cases fails
    obtain ⟨⟨hidden, record?⟩, met, faulty⟩ := List.exists_of_findSome?_eq_some found
    obtain ⟨⟨root, member, leads⟩, rfl⟩ := (Bundle.mem_reachedFrom _ _ _ _).1 met
    obtain ⟨entry, listed, named⟩ := List.mem_flatMap.1 member
    have untold : report.outcomes.contains hidden = false := by
      by_contra told
      have passes := (vouches.complete hidden (by simpa using told)).fault? (entries.flatMap (·.modules))
      cases passes.symm.trans faulty
    rcases vouches.covers_or_hides (vouches.rooted root (among entry listed root named)) leads with
      told | ⟨kept, told, hides, leads⟩
    · cases untold.symm.trans told
    · exact ⟨kept, hidden, told, hides, leads, untold, faulty⟩
  · cases fails

end PassReport.Vouches

/-- Whatever was done before, a clean report of a pass that forces nothing means that each module it covers is
complete. The gate may still find fault, but only behind modules that were ready before or are left alone. -/
theorem check_of_ensureClean (store : ArtifactStore) (calls : List (Toolchain × Call)) (tools : Toolchain)
    (roots : List Specifier) (entries : List Bundle.EntryPoint)
    (among : ∀ entry ∈ entries, ∀ root ∈ entry.modules, root ∈ roots) :
    let before := ({ store } : Workspace).performAll calls
    let (report, after) := before.compileAll tools roots
    report.ensureClean = .ok () →
      (∀ root ∈ roots, report.outcomes.contains root) ∧
      (∀ specifier, report.outcomes.contains specifier → after.graph.IsComplete specifier) ∧
      ∀ fault, Bundle.check after.graph entries = .error fault →
        ∃ kept hidden, report.outcomes.contains kept ∧ before.graph.HidesImports kept ∧
          TransGen after.graph.Imports kept hidden ∧ report.outcomes.contains hidden = false ∧
          Bundle.fault? after.graph (entries.flatMap (·.modules)) hidden (after.graph.get? hidden) =
            some fault := by
  have grounded : (({ store } : Workspace).performAll calls).graph.Grounded :=
    grounded_performAll (fun _ _ found => by cases found) calls
  have vouched := vouches_compileAll grounded tools roots
  intro before
  generalize before.compileAll tools roots = result at vouched ⊢
  obtain ⟨report, after⟩ := result
  intro clean
  have vouches := vouched clean
  exact ⟨vouches.rooted, vouches.complete, fun fault fails => vouches.check among fails⟩

theorem check_of_first_build (store : ArtifactStore) (tools : Toolchain) (roots : List Specifier)
    (entries : List Bundle.EntryPoint) (among : ∀ entry ∈ entries, ∀ root ∈ entry.modules, root ∈ roots) :
    let (report, after) := ({ store } : Workspace).compileAll tools roots
    report.ensureClean = .ok () → Bundle.check after.graph entries = .ok () := by
  have vouched := @vouches_compileAll { store } (fun _ _ found => by cases found) tools roots
  generalize ({ store } : Workspace).compileAll tools roots = result at vouched ⊢
  obtain ⟨report, after⟩ := result
  intro clean
  cases checked : Bundle.check after.graph entries with
  | ok _ => rfl
  | error fault =>
    obtain ⟨kept, _, _, ⟨record, found, _⟩, _⟩ := (vouched clean).check among checked
    cases found

/-! ## A clean report that hides a failure -/

theorem ModuleGraph.isSettled_updateEntryFlag {graph : ModuleGraph} {specifier : Specifier}
    (settled : graph.isSettled specifier) :
    (graph.updateEntryFlag specifier).isSettled specifier := by
  unfold isSettled at settled ⊢
  cases found : graph.get? specifier with
  | none => simp [found] at settled
  | some record =>
    have there := get?_updateEntryFlag graph specifier specifier
    rw [if_pos rfl, found, Option.map_some] at there
    simp only [found, Bool.and_eq_true] at settled
    simp only [there, Bool.and_eq_true]
    refine ⟨settled.1, ?_⟩
    rw [isCurrent, (revises_updateEntryFlag graph specifier).contentHash?]
    exact settled.2

/-- Nothing happens to a root that is settled, and nothing is reported of what it imports. -/
theorem ensureClean_of_isSettled {workspace : Workspace} (tools : Toolchain) {root : Specifier}
    {record : ModuleRecord} (found : workspace.graph.get? root = some record)
    (settled : workspace.graph.isSettled root)
    (recorded : ∀ edge ∈ record.dependencies, ∃ target, workspace.graph.get? edge.target = some target) :
    let (report, after) := workspace.compileAll tools [root]
    report.ensureClean = .ok () ∧ after.graph = workspace.graph.updateEntryFlag root := by
  have ready : record.isReady := by
    simp only [isSettled, found, Bool.and_eq_true] at settled
    exact settled.1
  have visit : visit tools {} { workspace } root false = ({ workspace }, []) := by
    have mention : workspace.graph.mention root = workspace.graph := mention_of_get? found
    simp [Pass.visit, claim_eq, mention, setGraph, found, ready]
  have settled' : ({ workspace } : Pass).settleOne {} root =
      (enter { workspace } root, { missing := (enter { workspace } root).workspace.missing root }) := by
    rw [settleOne_of_clear rfl]
    simp [enter, setGraph, isSettled_updateEntryFlag settled]
  have none : (enter { workspace } root).workspace.missing root = [] := by
    rw [missing_eq, missingFrom_eq_nil_iff]
    intro edge member
    have revises := revises_updateEntryFlag workspace.graph root
    rw [show (enter { workspace } root).workspace.graph = workspace.graph.updateEntryFlag root from rfl,
      revises.dependencies, dependencies_of_get? found] at member
    obtain ⟨target, there⟩ := recorded edge member
    obtain ⟨new, there', -⟩ := revises.get?_of_get? there
    exact ⟨new, there'⟩
  simp only [compileAll, List.map_cons, List.map_nil, Bool.false_eq_true, if_false]
  rw [visitAll_single visit, settle_eq,
    show settleAll { workspace } {} [root] = settleOne { workspace } {} root from rfl, settled', none]
  refine ⟨?_, rfl⟩
  rw [PassReport.ensureClean_eq_ok, PassReport.isClean_iff]
  refine ⟨fun specifier error failed => ?_, rfl⟩
  have told := (get?_outcomes _ _ _).symm.trans failed
  split at told
  · have clear : outcome? (enter { workspace } root).errors (enter { workspace } root).workspace.graph
        specifier = ((enter { workspace } root).workspace.graph.get? specifier).map .ok := rfl
    obtain ⟨_, -, ends⟩ := Option.map_eq_some_iff.1 (clear.symm.trans told)
    cases ends
  · cases told

section Dangling

/-- A module was compiled while its import has no source. -/
def dangled : Workspace := ({} : Workspace).performAll [(dangling, .compile danglingRoots {})]

theorem settled_dangled : ∃ record imported, dangled.graph.get? ⟨"app:a"⟩ = some record ∧
    dangled.graph.isSettled ⟨"app:a"⟩ ∧
    (∀ edge ∈ record.dependencies, ∃ target, dangled.graph.get? edge.target = some target) ∧
    dangled.graph.Imports ⟨"app:a"⟩ ⟨"app:d"⟩ ∧ dangled.graph.get? ⟨"app:d"⟩ = some imported ∧
    imported.isExternal = false ∧ imported.isReady = false := by
  have blank : ({} : Workspace).IsBlank := ⟨rfl, rfl, rfl, rfl⟩
  have followed : FollowedDangling dangling dangled := followed_compile (.inl rfl)
  obtain ⟨touched, errors, compiled, -⟩ := compiled_dangling (.inl rfl)
  obtain ⟨record, found, ready, is, consistent, -⟩ := followed.importer (.inl rfl)
  have external {specifier : Specifier} (left : Reached IsDangling danglingRoots specifier true) : False := by
    cases (reached_listed danglingModules (by decide) closed_dangling left).1
  have recorded : ∀ edge ∈ record.dependencies, ∃ target, dangled.graph.get? edge.target = some target := by
    rcases Tracks.kinds_of_fresh blank.get? compiled found with
      ⟨left, -⟩ | ⟨error, fails, -⟩ | ⟨image, start, same, -, there⟩
    · exact (external left).elim
    · cases fails
    · obtain rfl := Except.ok.inj (same.symm.trans (image?_importer (.inl rfl)))
      rw [is.describes.edges]
      exact there
  have imports : (⟨⟨"app:d"⟩, false, some ⟨20, 16⟩⟩ : DependencyEdge) ∈ record.dependencies := by
    rw [is.describes.edges, edges_importerImage]
    exact List.mem_cons_self
  obtain ⟨imported, there⟩ := recorded _ imports
  refine ⟨record, imported, found, ?_, recorded, ⟨_, dependencies_of_get? found ▸ imports, rfl⟩, there, ?_⟩
  · simp only [isSettled, found, Bool.and_eq_true]
    exact ⟨ready, consistent.isCurrent⟩
  · rcases Tracks.kinds_of_fresh blank.get? compiled there with
      ⟨left, -⟩ | ⟨error, -, rfl⟩ | ⟨image, _, is, -⟩
    · exact (external left).elim
    · exact ⟨rfl, rfl⟩
    · cases is

theorem ensureClean_dangled :
    let (report, after) := dangled.compileAll dangling danglingRoots
    report.ensureClean = .ok () ∧ after.graph = dangled.graph.updateEntryFlag ⟨"app:a"⟩ := by
  obtain ⟨record, -, found, settled, recorded, -⟩ := settled_dangled
  exact ensureClean_of_isSettled dangling found settled recorded

/-- Compiled once more, a module whose import failed is as ready as before, and nothing is said of its import.
The gate finds it. -/
theorem clean_report_hides_failure :
    let (report, after) := dangled.compileAll dangling danglingRoots
    report.ensureClean = .ok () ∧
      Bundle.check after.graph [{ name := "main", modules := danglingRoots }] ≠ .ok () := by
  obtain ⟨record, imported, found, -, -, imports, there, compiled, unready⟩ := settled_dangled
  have run := ensureClean_dangled
  generalize dangled.compileAll dangling danglingRoots = result at run ⊢
  obtain ⟨report, after⟩ := result
  obtain ⟨clean, same⟩ := run
  refine ⟨clean, fun passes => ?_⟩
  have revises : dangled.graph.Revises after.graph := same ▸ revises_updateEntryFlag _ _
  have there' : after.graph.get? ⟨"app:d"⟩ = some imported := by
    rw [same, get?_updateEntryFlag, if_neg (by decide)]
    exact there
  have imports' : after.graph.Imports ⟨"app:a"⟩ ⟨"app:d"⟩ := by
    rw [Imports, revises.dependencies]
    exact imports
  have own := (Bundle.check_eq_ok _ _).1 passes ⟨"app:a"⟩ (by simp [danglingRoots]) ⟨"app:d"⟩
    (.single imports')
  rw [Bundle.fault?_eq_none_iff, there'] at own
  rcases own with isExternal | ⟨ready, -⟩
  · cases compiled.symm.trans isExternal
  · simp [ModuleRecord.isReady, ready] at unready

theorem check_of_ensureClean_dangled :
    let (report, after) := dangled.compileAll dangling danglingRoots
    report.ensureClean = .ok () ∧ after.graph.IsComplete ⟨"app:a"⟩ ∧ ∀ fault,
      Bundle.check after.graph [{ name := "main", modules := danglingRoots }] = .error fault →
        ∃ kept hidden, report.outcomes.contains kept ∧ dangled.graph.HidesImports kept ∧
          TransGen after.graph.Imports kept hidden ∧ report.outcomes.contains hidden = false ∧
          Bundle.fault? after.graph danglingRoots hidden (after.graph.get? hidden) = some fault := by
  have run := ensureClean_dangled
  have whole := check_of_ensureClean {} [(dangling, .compile danglingRoots {})] dangling danglingRoots
    [{ name := "main", modules := danglingRoots }] (by simp)
  dsimp only at whole
  rw [← dangled] at whole
  generalize dangled.compileAll dangling danglingRoots = result at whole run ⊢
  obtain ⟨report, after⟩ := result
  obtain ⟨rooted, complete, faults⟩ := whole run.1
  exact ⟨run.1, complete _ (rooted _ List.mem_cons_self), faults⟩

end Dangling

end ModuleBuild
