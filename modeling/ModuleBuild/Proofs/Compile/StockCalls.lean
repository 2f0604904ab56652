import ModuleBuild.Proofs.Compile.CallHistory
import ModuleBuild.Proofs.Compile.Origins
import ModuleBuild.Proofs.Compile.StockPass
import Mathlib.Data.List.Induction
/-!
Calls to a compiler over a workspace whose store is accounted for. Each is a pass that does not fail to
settle anything, then repairs that do not fail either; what no record refers to afterwards was left by a
module that failed.
-/

namespace ModuleBuild

open ModuleGraph Workspace ArtifactStore Pass Relation

namespace Pass

theorem nodup_visitAll (tools : Toolchain) (options : CompileOptions) (claimed : List Specifier) (pass : Pass)
    (work : List (Specifier × Bool)) (nodup : claimed.Nodup) :
    (visitAll tools options claimed pass work).2.Nodup := by
  induction claimed, pass, work using visitAll_induction tools options with
  | done claimed pass =>
    rw [visitAll]
    exact List.nodup_reverse.2 nodup
  | old claimed pass other isForced rest old ih =>
    rw [visitAll_of_mem tools options old]
    exact ih nodup
  | turn claimed pass other isForced rest targets fresh _ next ih =>
    rw [next]
    exact ih (List.nodup_cons.2 ⟨fresh, nodup⟩)

/-- A pass in which all modules have their turns and are then settled. -/
structure PassesStock (astray : String → Prop) (base : Workspace) (touched : List Specifier)
    (first last : Pass) (report : PassReport) : Prop where
  turns : TakesTurns astray base touched.reverse first
  settles : SettlesStocks (Strayed astray base first) touched first last {} report

theorem passesStock (tools : Toolchain) (options : CompileOptions) {modules : Specifier → Prop}
    (distinct : DigestsDistinct modules) {astray : String → Prop} {base : Workspace}
    (stocks : Stocks astray .clear base) (work : List (Specifier × Bool))
    (within : ∀ {other record},
      (visitAll tools options [] { workspace := base } work).1.workspace.graph.get? other = some record →
        modules other) :
    let (first, touched) := visitAll tools options [] { workspace := base } work
    let (last, report) := settleAll first {} touched
    PassesStock astray base touched first last report := by
  have turns := takesTurns_visitAll tools options [] { workspace := base } work (.start stocks)
  have nodup := nodup_visitAll tools options [] { workspace := base } work List.nodup_nil
  generalize visitAll tools options [] { workspace := base } work = result at within turns nodup ⊢
  obtain ⟨first, touched⟩ := result
  dsimp only at within turns nodup ⊢
  have settles := settlesStocks_settleAll distinct touched nodup first within
    (turns.stocks.congr (funext fun _ => by simp [backlog]))
    (fun specifier member => turns.turned specifier (List.mem_reverse.2 member)) {}
  generalize settleAll first {} touched = result at settles ⊢
  exact ⟨turns, settles⟩

section Failed

variable {astray : String → Prop} {base : Workspace} {claimed : List Specifier} {first : Pass}
  (turns : TakesTurns astray base claimed first) {specifier : Specifier} {error : ModuleError}
  (errors : first.errors.get? specifier = some error)

include turns errors

theorem TakesTurns.mem_of_error : specifier ∈ claimed := by
  by_contra absent
  cases (turns.unstarted specifier absent).2.2.symm.trans errors

theorem TakesTurns.get?_of_error : ∃ record, first.workspace.graph.get? specifier = some record ∧
    record.isReady = false ∧ record.output? = none := by
  cases turns.turned specifier (turns.mem_of_error errors) with
  | failed _ found errored bare => exact ⟨_, found, ModuleRecord.unready_of_errored errored, bare⟩
  | left clear => cases clear.symm.trans errors
  | ample clear => cases clear.symm.trans errors

end Failed

theorem SettlesStocks.get?_of_error {astray : String → Prop} {work : List Specifier} {first last : Pass}
    {earlier later : PassReport} (settles : SettlesStocks astray work first last earlier later)
    {specifier : Specifier} (member : specifier ∈ work) {error : ModuleError}
    (errors : first.errors.get? specifier = some error) :
    last.workspace.graph.get? specifier = first.workspace.graph.get? specifier := by
  cases settles.settled specifier member with
  | failed _ same => exact same
  | left clear => cases clear.symm.trans errors
  | current clear => cases clear.symm.trans errors
  | refreshed clear => cases clear.symm.trans errors

theorem PassesStock.get?_of_error {astray : String → Prop} {base : Workspace} {touched : List Specifier}
    {first last : Pass} {report : PassReport} (passes : PassesStock astray base touched first last report)
    {specifier : Specifier} {error : ModuleError} (errors : first.errors.get? specifier = some error) :
    last.workspace.graph.get? specifier = first.workspace.graph.get? specifier :=
  passes.settles.get?_of_error (List.mem_reverse.1 (passes.turns.mem_of_error errors)) errors

end Pass

namespace ModuleGraph

theorem KeepsOrigins.get?_of_get? {first second : ModuleGraph} (keeps : first.KeepsOrigins second)
    {specifier : Specifier} {record : ModuleRecord} (found : first.get? specifier = some record) :
    ∃ new, second.get? specifier = some new := by
  have same := keeps specifier
  rw [found, Option.map_some] at same
  obtain ⟨new, there, -⟩ := Option.map_eq_some_iff.1 same
  exact ⟨new, there⟩

theorem KeepsOrigins.of_get? {first second : ModuleGraph} (keeps : first.KeepsOrigins second)
    {specifier : Specifier} {record : ModuleRecord} (found : second.get? specifier = some record) :
    ∃ old, first.get? specifier = some old := by
  have same := keeps specifier
  rw [found, Option.map_some] at same
  obtain ⟨old, there, -⟩ := Option.map_eq_some_iff.1 same.symm
  exact ⟨old, there⟩

end ModuleGraph

/-- The output that a module had is no longer referred to, since the module is not ready any more. -/
def Abandons (before after : Workspace) (key : String) : Prop :=
  ∃ specifier, before.graph.RefersTo specifier key ∧
    ∀ record, after.graph.get? specifier = some record → record.isReady = false

theorem Repaired.get?_of_unready {astray : String → Prop} {changed specifier : Specifier}
    {before after : Workspace} (repaired : Repaired astray changed before after)
    (indexed : before.graph.Indexed)
    (unready : ∀ record, before.graph.get? specifier = some record → record.isReady = false) :
    after.graph.get? specifier = before.graph.get? specifier := by
  refine repaired.steps.get?_other fun member => ?_
  obtain ⟨-, -, record, found, ready⟩ := (mem_affected indexed).1 member
  rw [unready record found] at ready
  cases ready

theorem present_compileAll (base : Workspace) (tools : Toolchain) (roots : List Specifier)
    (options : CompileOptions) {other : Specifier} {record : ModuleRecord}
    (found : (visitAll tools options [] { workspace := base }
      (roots.map (·, options.forceRefresh))).1.workspace.graph.get? other = some record) :
    ∃ new, (base.compileAll tools roots options).2.graph.get? other = some new :=
  (base.extends_compileAll tools roots options).2.1.get?_of_get? found

section Calls

variable {modules : Specifier → Prop} (distinct : DigestsDistinct modules) {astray : String → Prop}
  {base : Workspace} (stocks : Stocks astray .clear base) (tools : Toolchain)

include distinct stocks

/-- After a compilation nothing waits, and what strayed belonged to modules that failed. -/
theorem stocks_compileAll (roots : List Specifier) (options : CompileOptions)
    (within : ∀ {other record}, (base.compileAll tools roots options).2.graph.get? other = some record →
      modules other) :
    let after := (base.compileAll tools roots options).2
    Stocks (fun key => astray key ∨ Abandons base after key) .clear after := by
  have within' {other : Specifier} {record : ModuleRecord}
      (found : (visitAll tools options [] { workspace := base }
        (roots.map (·, options.forceRefresh))).1.workspace.graph.get? other = some record) :
      modules other := by
    obtain ⟨new, there⟩ := present_compileAll base tools roots options found
    exact within there
  have passes := passesStock tools options distinct stocks (roots.map (·, options.forceRefresh)) within'
  generalize visited : visitAll tools options [] { workspace := base }
    (roots.map (·, options.forceRefresh)) = result at within' passes
  obtain ⟨first, touched⟩ := result
  dsimp only at within' passes
  have failed {specifier : Specifier} {error : ModuleError}
      (errors : first.errors.get? specifier = some error) := passes.turns.get?_of_error errors
  -- what failed has no output, and no repair changes that; so what it referred to is abandoned at the end
  suffices left : Stocks (Strayed astray base first) .clear (base.compileAll tools roots options).2 ∧
      ∀ specifier error, first.errors.get? specifier = some error →
        (base.compileAll tools roots options).2.graph.get? specifier =
          first.workspace.graph.get? specifier by
    refine left.1.mono fun key stray => stray.imp_right ?_
    rintro ⟨specifier, error, errors, refers⟩
    obtain ⟨record, found, unready, -⟩ := failed errors
    refine ⟨specifier, refers, fun new there => ?_⟩
    obtain rfl := Option.some.inj (found.symm.trans ((left.2 specifier error errors).symm.trans there))
    exact unready
  refine (base.compileAll_induction tools roots options (motive := fun result =>
    first.workspace.graph.KeepsOrigins result.2.graph ∧ Stocks (Strayed astray base first) .clear result.2 ∧
      ∀ specifier error, first.errors.get? specifier = some error →
        result.2.graph.get? specifier = first.workspace.graph.get? specifier) ?_ ?_).2
  · rw [visited]
    dsimp only
    rw [settle_eq]
    generalize settleAll first {} touched = result at passes
    exact ⟨passes.settles.revises.keepsOrigins, passes.settles.stocks, fun _ _ => passes.get?_of_error⟩
  · rintro report middle root ⟨keeps, stocks', same⟩
    have within'' {other : Specifier} {record : ModuleRecord}
        (found : middle.graph.get? other = some record) : modules other := by
      obtain ⟨old, there⟩ := keeps.of_get? found
      exact within' there
    have repaired := (stocks'.propagate distinct within'' root).2
    have equal := (stocks'.repairImporters distinct within'' report root).1
    refine ⟨keeps.trans (middle.extends_repairImporters report root).2, equal ▸ repaired.stocks,
      fun specifier error errors => ?_⟩
    have before : middle.graph.get? specifier = first.workspace.graph.get? specifier :=
      same specifier error errors
    obtain ⟨record, found, unready, -⟩ := failed errors
    rw [equal, repaired.get?_of_unready stocks'.indexed, before]
    intro new there
    obtain rfl := Option.some.inj (found.symm.trans (before.symm.trans there))
    exact unready

end Calls

/-! ## Following a source -/

/-- A module that had a record and whose source was not found in a pass is taken out. -/
def IsTakenOut (base : Workspace) (first : Pass) (specifier : Specifier) : Prop :=
  (∃ record, base.graph.get? specifier = some record) ∧
    ∃ error, first.errors.get? specifier = some error ∧ error.isNotFound = true

theorem isTakenOut_iff {base : Workspace} {first : Pass} {specifier : Specifier} {graph : ModuleGraph} :
    ((base.graph.get? specifier).isSome && isGone (outcome? first.errors graph specifier)) = true ↔
      IsTakenOut base first specifier := by
  cases own : base.graph.get? specifier with
  | none => simp [IsTakenOut, own]
  | some old =>
    cases errors : first.errors.get? specifier with
    | none => simp [IsTakenOut, errors, isGone_of_clear errors]
    | some error => simp [IsTakenOut, own, errors, outcome?, isGone]

/-- Following a source that a module is known to use: a pass, after which the module may be taken out and its
importers are repaired once. -/
structure FollowsStock (astray : String → Prop) (tools : Toolchain) (specifier : Specifier)
    (base : Workspace) (first : Pass) (touched : List Specifier) (last : Pass) (middle after : Workspace) :
    Prop where
  used : (∃ record, base.graph.get? specifier = some record) ∨ base.graph.dependents specifier ≠ []
  visited : visitAll tools { forceRefresh := true } [] { workspace := base } [(specifier, true)] =
    (first, touched)
  turns : TakesTurns astray base touched.reverse first
  settles : ∃ report, settleAll first {} touched = (last, report) ∧
    SettlesStocks (Strayed astray base first) touched first last {} report
  out : IsTakenOut base first specifier ∧ middle = last.workspace.remove specifier ∨
    ¬ IsTakenOut base first specifier ∧ middle = last.workspace
  stocks : Stocks (Strayed astray base first) .clear middle
  repair : after = (middle.propagate specifier).2
  repaired : Repaired (Strayed astray base first) specifier middle after

theorem graph_remove (workspace : Workspace) (specifier : Specifier) :
    (workspace.remove specifier).graph = (workspace.graph.erase specifier).1 := by
  have found := erase_snd workspace.graph specifier
  unfold Workspace.remove
  cases own : workspace.graph.get? specifier with
  | none => simp [erase, own]
  | some record =>
    rw [own] at found
    generalize workspace.graph.erase specifier = result at found ⊢
    obtain ⟨graph, record?⟩ := result
    obtain rfl : record? = some record := found
    dsimp only
    split
    · rfl
    · split <;> rfl

theorem get?_remove (workspace : Workspace) (specifier other : Specifier) :
    (workspace.remove specifier).graph.get? other =
      if specifier = other then none else workspace.graph.get? other := by
  rw [graph_remove, get?_erase]

theorem get?_remove_other (workspace : Workspace) {specifier other : Specifier} (differ : other ≠ specifier) :
    (workspace.remove specifier).graph.get? other = workspace.graph.get? other :=
  (get?_remove workspace specifier other).trans (if_neg (Ne.symm differ))

namespace FollowsStock

variable {astray : String → Prop} {tools : Toolchain} {specifier : Specifier} {base : Workspace}
  {first : Pass} {touched : List Specifier} {last : Pass} {middle after : Workspace}
  (follows : FollowsStock astray tools specifier base first touched last middle after)

include follows

theorem unready_of_error {other : Specifier} {error : ModuleError}
    (errors : first.errors.get? other = some error) (record : ModuleRecord)
    (there : after.graph.get? other = some record) : record.isReady = false := by
  obtain ⟨old, found, unready, -⟩ := follows.turns.get?_of_error errors
  obtain ⟨report, -, settles⟩ := follows.settles
  have same := settles.get?_of_error (List.mem_reverse.1 (follows.turns.mem_of_error errors)) errors
  have unready' (new : ModuleRecord) (there : middle.graph.get? other = some new) :
      new.isReady = false := by
    rcases follows.out with ⟨-, rfl⟩ | ⟨-, rfl⟩
    · rw [get?_remove] at there
      split at there
      · cases there
      · rw [same, found] at there
        exact Option.some.inj there ▸ unready
    · rw [same, found] at there
      exact Option.some.inj there ▸ unready
  exact unready' record ((follows.repaired.get?_of_unready follows.stocks.indexed unready').symm.trans there)

end FollowsStock

/-- Modules that a pass meets have records before or after the source was followed. -/
theorem present_sourceChanged (base : Workspace) (tools : Toolchain) (specifier : Specifier)
    (used : ¬ ((base.graph.get? specifier).isNone && (base.graph.dependents specifier).isEmpty) = true)
    {other : Specifier} {record : ModuleRecord}
    (found : (visitAll tools { forceRefresh := true } [] { workspace := base }
      [(specifier, true)]).1.workspace.graph.get? other = some record) :
    (∃ old, base.graph.get? other = some old) ∨
      ∃ new, (base.sourceChanged tools specifier).2.graph.get? other = some new := by
  obtain ⟨passedTo, there⟩ := present_compileAll base tools [specifier] { forceRefresh := true } found
  rw [sourceChanged_eq, if_neg used]
  generalize base.compileAll tools [specifier] { forceRefresh := true } = result at there ⊢
  obtain ⟨report, passed⟩ := result
  have repaired (middle : Workspace) (there : ∃ new, middle.graph.get? other = some new) :
      ∃ new, (if specifier ∈ report.changed then middle
        else (middle.repairImporters report specifier).2).graph.get? other = some new := by
    split
    · exact there
    · obtain ⟨new, there⟩ := there
      exact (middle.extends_repairImporters report specifier).2.get?_of_get? there
  dsimp only at there ⊢
  by_cases same : other = specifier
  · subst same
    cases own : base.graph.get? other with
    | some old => exact .inl ⟨old, rfl⟩
    | none => exact .inr (repaired _ ⟨passedTo, by simpa using there⟩)
  · refine .inr (repaired _ ?_)
    split
    · exact ⟨passedTo, (get?_remove_other passed same).trans there⟩
    · exact ⟨passedTo, there⟩

section Follow

variable {modules : Specifier → Prop} (distinct : DigestsDistinct modules) {astray : String → Prop}
  {base : Workspace} {tools : Toolchain} {specifier : Specifier}

include distinct

/-- What is done after a pass over a source: a module that is gone is taken out, and the importers are repaired
once, at the end of the pass or after it. -/
theorem Pass.PassesStock.repairs {touched : List Specifier} {first last : Pass} {report whole : PassReport}
    (passes : PassesStock astray base touched first last report)
    (within : ∀ {other record}, base.graph.get? other = some record ∨
      last.workspace.graph.get? other = some record → modules other)
    (changed : whole.changed = report.changed)
    (outcome : whole.outcomes.get? specifier = outcome? first.errors last.workspace.graph specifier) :
    let (report, passed) :=
      if specifier ∈ whole.changed then last.workspace.repairImporters whole specifier
      else (whole, last.workspace)
    let found := (base.graph.get? specifier).isSome && isGone (report.outcomes.get? specifier)
    let middle := if found = true then passed.remove specifier else passed
    let after := if specifier ∈ report.changed then middle else (middle.repairImporters report specifier).2
    ∃ middle, (IsTakenOut base first specifier ∧ middle = last.workspace.remove specifier ∨
        ¬ IsTakenOut base first specifier ∧ middle = last.workspace) ∧
      Stocks (Strayed astray base first) .clear middle ∧ after = (middle.propagate specifier).2 ∧
      Repaired (Strayed astray base first) specifier middle after := by
  have stocks := passes.settles.stocks
  have inLast {other : Specifier} {record : ModuleRecord}
      (found : last.workspace.graph.get? other = some record) : modules other := within (.inr found)
  by_cases moved : specifier ∈ whole.changed
  · have clear : first.errors.get? specifier = none := by
      rcases passes.settles.changed specifier (changed ▸ moved) with known | ⟨-, clear⟩
      · cases known
      · exact clear
    have stays : ¬ IsTakenOut base first specifier := by
      rintro ⟨-, error, errors, -⟩
      cases clear.symm.trans errors
    have repaired := (stocks.propagate distinct inLast specifier).2
    obtain ⟨equal, outcomes, kept⟩ := stocks.repairImporters distinct inLast whole specifier
    -- the pass repaired the importers already, and they are not repaired again
    rw [if_pos moved]
    generalize last.workspace.repairImporters whole specifier = result at equal outcomes kept
    obtain ⟨later, after⟩ := result
    dsimp only at equal outcomes kept ⊢
    subst equal
    rw [outcomes, outcome, if_neg (mt isTakenOut_iff.1 stays), if_pos (kept specifier moved)]
    exact ⟨last.workspace, .inr ⟨stays, rfl⟩, stocks, rfl, repaired⟩
  · rw [if_neg moved]
    dsimp only
    rw [if_neg moved, outcome]
    by_cases out : IsTakenOut base first specifier
    · obtain ⟨⟨old, own⟩, error, errors, -⟩ := id out
      obtain ⟨record, found, -, bare⟩ := passes.turns.get?_of_error errors
      have stocks' := stocks.remove ((passes.get?_of_error errors).trans found) bare
      have inRest {other : Specifier} {record : ModuleRecord}
          (found : (last.workspace.remove specifier).graph.get? other = some record) : modules other := by
        by_cases same : other = specifier
        · exact same ▸ within (.inl own)
        · exact inLast ((get?_remove_other _ same).symm.trans found)
      rw [if_pos (isTakenOut_iff.2 out), (stocks'.repairImporters distinct inRest whole specifier).1]
      exact ⟨_, .inl ⟨out, rfl⟩, stocks', rfl, (stocks'.propagate distinct inRest specifier).2⟩
    · rw [if_neg (mt isTakenOut_iff.1 out), (stocks.repairImporters distinct inLast whole specifier).1]
      exact ⟨_, .inr ⟨out, rfl⟩, stocks, rfl, (stocks.propagate distinct inLast specifier).2⟩

variable (stocks : Stocks astray .clear base) (tools : Toolchain) (specifier : Specifier)
  (within : ∀ {other record}, base.graph.get? other = some record ∨
    (base.sourceChanged tools specifier).2.graph.get? other = some record → modules other)

include stocks within

theorem followsStock :
    (base.sourceChanged tools specifier).2 = base ∧ base.graph.get? specifier = none ∧
        base.graph.dependents specifier = [] ∨
      ∃ first touched last middle,
        FollowsStock astray tools specifier base first touched last middle
          (base.sourceChanged tools specifier).2 := by
  have eq := sourceChanged_eq base tools specifier
  by_cases unused : ((base.graph.get? specifier).isNone && (base.graph.dependents specifier).isEmpty) = true
  · rw [if_pos unused] at eq
    rw [Bool.and_eq_true, Option.isNone_iff_eq_none, List.isEmpty_iff] at unused
    exact .inl ⟨eq, unused⟩
  have within' {other : Specifier} {record : ModuleRecord}
      (found : (visitAll tools { forceRefresh := true } [] { workspace := base }
        [(specifier, true)]).1.workspace.graph.get? other = some record) : modules other := by
    rcases present_sourceChanged base tools specifier unused found with ⟨_, there⟩ | ⟨_, there⟩
    · exact within (.inl there)
    · exact within (.inr there)
  have used : (∃ record, base.graph.get? specifier = some record) ∨ base.graph.dependents specifier ≠ [] := by
    cases found : base.graph.get? specifier with
    | some record => exact .inl ⟨record, rfl⟩
    | none => exact .inr fun none => unused (by rw [found, none]; rfl)
  rw [if_neg unused] at eq
  have passes := passesStock tools { forceRefresh := true } distinct stocks [(specifier, true)] within'
  have member := mem_visitAll tools { forceRefresh := true } [] { workspace := base } [(specifier, true)]
    (.inr ⟨true, List.mem_cons_self⟩)
  refine .inr ?_
  generalize (base.sourceChanged tools specifier).2 = after at eq within ⊢
  simp only [compileAll, List.map_cons, List.map_nil, List.foldl_cons, List.foldl_nil, if_true] at eq
  generalize visited : visitAll tools { forceRefresh := true } [] { workspace := base } [(specifier, true)] =
    result at eq within' passes member
  obtain ⟨first, touched⟩ := result
  dsimp only at eq within' passes member
  have settled : (first.settle touched).2 = (settleAll first {} touched).1.workspace ∧
      (first.settle touched).1.changed = (settleAll first {} touched).2.changed ∧
      (first.settle touched).1.outcomes = (settleAll first {} touched).1.outcomes touched := by
    rw [settle_eq]
    exact ⟨rfl, rfl, rfl⟩
  generalize settling : settleAll first {} touched = result at settled passes
  obtain ⟨last, report⟩ := result
  generalize first.settle touched = result at eq settled
  obtain ⟨whole, passed⟩ := result
  dsimp only at eq passes settled
  obtain ⟨rfl, changed, outcomes⟩ := settled
  have outcome : whole.outcomes.get? specifier = outcome? first.errors last.workspace.graph specifier := by
    rw [outcomes, get?_outcomes, if_pos member, passes.settles.errors]
  -- the importers are repaired once, after a module that is gone was taken out
  have repairs := passes.repairs distinct (by
    rintro other record (there | there)
    · exact within (.inl there)
    · obtain ⟨old, there, -⟩ := passes.settles.revises.of_get? there
      exact within' there) changed outcome
  dsimp only at repairs
  rw [← eq] at repairs
  obtain ⟨middle, out, stocks', repair, repaired⟩ := repairs
  exact ⟨first, touched, last, middle, used, visited, passes.turns, ⟨report, settling, passes.settles⟩, out,
    stocks', repair, repaired⟩

theorem stocks_sourceChanged :
    let after := (base.sourceChanged tools specifier).2
    Stocks (fun key => astray key ∨ Abandons base after key) .clear after := by
  rcases followsStock distinct stocks tools specifier within with
    ⟨same, -⟩ | ⟨first, touched, last, middle, follows⟩
  · rw [same]
    exact stocks.mono fun _ => .inl
  · refine follows.repaired.stocks.mono fun key stray => stray.imp_right ?_
    rintro ⟨other, error, errors, refers⟩
    exact ⟨other, refers, follows.unready_of_error errors⟩

end Follow

theorem Stocks.perform {modules : Specifier → Prop} (distinct : DigestsDistinct modules)
    {astray : String → Prop} {base : Workspace} (stocks : Stocks astray .clear base) (tools : Toolchain)
    (call : Call) (within : ∀ {other record}, base.graph.get? other = some record ∨
      (base.perform tools call).graph.get? other = some record → modules other) :
    Stocks (fun key => astray key ∨ Abandons base (base.perform tools call) key) .clear
      (base.perform tools call) := by
  cases call with
  | compile roots options => exact stocks_compileAll distinct stocks tools roots options (within <| .inr ·)
  | notice specifier => exact stocks_sourceChanged distinct stocks tools specifier within

/-! ## Histories -/

/-- The modules that have a record at some time in a sequence of calls. -/
def Met (workspace : Workspace) (calls : List (Toolchain × Call)) (specifier : Specifier) : Prop :=
  ∃ earlier, earlier <+: calls ∧ ∃ record, (workspace.performAll earlier).graph.get? specifier = some record

/-- Output that some call left behind. -/
def Abandoned (workspace : Workspace) (calls : List (Toolchain × Call)) (key : String) : Prop :=
  ∃ earlier call, earlier ++ [call] <+: calls ∧
    Abandons (workspace.performAll earlier) (workspace.performAll (earlier ++ [call])) key

theorem performAll_concat (workspace : Workspace) (calls : List (Toolchain × Call))
    (call : Toolchain × Call) :
    workspace.performAll (calls ++ [call]) = (workspace.performAll calls).perform call.1 call.2 := by
  rw [performAll, List.foldl_append]
  rfl

/-- After any calls, the store holds what ready modules refer to and what was left behind. -/
theorem Workspace.IsBlank.stocks_performAll {workspace : Workspace} (blank : workspace.IsBlank)
    {calls : List (Toolchain × Call)} (distinct : DigestsDistinct (Met workspace calls))
    (earlier : List (Toolchain × Call)) (before : earlier <+: calls) :
    Stocks (Abandoned workspace earlier) .clear (workspace.performAll earlier) := by
  induction earlier using List.reverseRecOn with
  | nil => exact blank.stocks _
  | append_singleton earlier call ih =>
    have before' : earlier <+: calls := (List.prefix_append _ _).trans before
    have whole := performAll_concat workspace earlier call
    have stocks := (ih before').perform distinct call.1 call.2 (by
      rintro other record (there | there)
      · exact ⟨earlier, before', record, there⟩
      · exact ⟨earlier ++ [call], before, record, whole ▸ there⟩)
    rw [← whole] at stocks
    refine stocks.mono fun key stray => ?_
    rcases stray with ⟨past, last, inside, abandons⟩ | abandons
    · exact ⟨past, last, inside.trans (List.prefix_append _ _), abandons⟩
    · exact ⟨earlier, call, List.prefix_rfl, abandons⟩

section Then

variable {workspace : Workspace} {calls : List (Toolchain × Call)} {first second : Toolchain × Call}

theorem met_then {specifier : Specifier} {record : ModuleRecord}
    (there : (workspace.performAll calls).graph.get? specifier = some record ∨
      ((workspace.performAll calls).perform first.1 first.2).graph.get? specifier = some record ∨
      (((workspace.performAll calls).perform first.1 first.2).perform second.1 second.2).graph.get? specifier =
        some record) : Met workspace (calls ++ [first, second]) specifier := by
  have last : calls ++ [first, second] = calls ++ [first] ++ [second] := by simp
  rcases there with there | there | there
  · exact ⟨calls, List.prefix_append _ _, record, there⟩
  · exact ⟨calls ++ [first], ⟨[second], last.symm⟩, record, by rwa [performAll_concat]⟩
  · exact ⟨calls ++ [first, second], List.prefix_rfl, record, by
      rwa [last, performAll_concat, performAll_concat]⟩

theorem Workspace.IsBlank.stocks_then (blank : workspace.IsBlank)
    (distinct : DigestsDistinct (Met workspace (calls ++ [first, second]))) :
    Stocks (Abandoned workspace (calls ++ [first])) .clear
      ((workspace.performAll calls).perform first.1 first.2) := by
  rw [← performAll_concat]
  exact blank.stocks_performAll distinct (calls ++ [first]) ⟨[second], by simp⟩

end Then

theorem Coherent.reached_of_met {known : Toolchain → Prop} {roots : List Specifier}
    (coherent : Coherent known roots) {workspace : Workspace} (blank : workspace.IsBlank)
    (keepsText : workspace.store.keepsText = false) {calls : List (Toolchain × Call)}
    (used : ∀ call ∈ calls, known call.1)
    (rooted : ∀ call ∈ calls, ∀ root ∈ call.2.roots, Reached known roots root false) {specifier : Specifier}
    (met : Met workspace calls specifier) : ∃ isExternal, Reached known roots specifier isExternal := by
  obtain ⟨earlier, before, record, found⟩ := met
  have inside {call : Toolchain × Call} (member : call ∈ earlier) := before.subset member
  obtain ⟨sound, -⟩ := blank.sound.performAll coherent.scope earlier (fun kept => by simp [keepsText] at kept)
    (fun call member => used call (inside member)) (fun call member => rooted call (inside member))
  cases sound.record found with
  | left isLeaf => exact ⟨true, isLeaf⟩
  | awaiting own => exact ⟨false, own⟩
  | failed own => exact ⟨false, own⟩
  | compiled own => exact ⟨false, own⟩

end ModuleBuild
