import ModuleBuild.Proofs.Compile.ServicePass
import ModuleBuild.Proofs.Compile.Leftovers
/-!
What a listener is told after a changed source was followed: once of each module whose content hash is not
what it was, and always of the changed one.
-/

namespace ModuleBuild

open ModuleGraph Workspace ArtifactStore Pass Relation

variable {modules leaf : Specifier → Prop} {tools : Toolchain} {workspace : Workspace}

/-- What is done after a source changed, as a report tells it. Of the other modules exactly those count as
changed whose hash moved since some graph in which it was as before. -/
structure Accounts (modules leaf : Specifier → Prop) (changed : Specifier) (before after : Workspace)
    (report : PassReport) : Prop where
  serviceable : Serviceable modules leaf .clear after
  setup : SameSetup before.store after.store
  nodup : report.changed.Nodup
  moved : ∃ start : ModuleGraph, start.Rehashes after.graph ∧ ∀ other, other ≠ changed →
    start.storedHash other = before.graph.storedHash other ∧
    (other ∈ report.changed ↔ after.graph.storedHash other ≠ start.storedHash other)

structure Retried (modules leaf : Specifier → Prop) (changed : Specifier) (before after : Workspace)
    (report : PassReport) : Prop extends Accounts modules leaf changed before after report where
  present : ∃ record, after.graph.get? changed = some record
  gone : isGone (report.outcomes.get? changed) = true → modules changed ∧ report.changed = [] ∧
    ∃ record, after.graph.get? changed = some record ∧ HasFailed record

theorem Accounts.changed_iff {changed : Specifier} {after : Workspace} {report : PassReport}
    (accounts : Accounts modules leaf changed workspace after report) {other : Specifier}
    (differ : other ≠ changed) : other ∈ report.changed ↔
      after.graph.storedHash other ≠ workspace.graph.storedHash other := by
  obtain ⟨start, -, moved⟩ := accounts.moved
  obtain ⟨same, noted⟩ := moved other differ
  rw [noted, same]

theorem Pass.Passes.retried {changed : Specifier} {touched : List Specifier} {first : Pass}
    {passed : Workspace} {report : PassReport}
    (passes : Passes modules leaf (· = changed) workspace touched first passed report)
    (member : changed ∈ touched) (alone : first.errors.get? changed ≠ none → touched = [changed])
    (settled : first.settle touched = (report, passed)) :
    Retried modules leaf changed workspace passed report where
  serviceable := passes.clears.serviceable
  setup := passes.visiting.setup.trans passes.clears.setup
  present := passes.clears.present changed member
  nodup := by
    obtain ⟨more, same, sub⟩ := passes.clears.added
    rw [same]
    exact sub.nodup passes.nodup
  moved := ⟨first.workspace.graph, passes.clears.rehashes, fun other differ =>
    ⟨passes.visiting.hash other fun same => absurd same differ,
      (passes.clears.reports other).trans (by simp)⟩⟩
  gone := by
    intro gone
    rw [passes.outcomes, if_pos member] at gone
    cases passes.visiting.turned changed member with
    | served clear =>
      rw [isGone_of_clear clear] at gone
      cases gone
    | failed own errors found failed =>
      obtain rfl := alone (by simp [errors])
      rw [settle_eq, show settleAll first {} [changed] = first.settleOne {} changed from rfl,
        settleOne_failed errors] at settled
      obtain ⟨rfl, rfl⟩ := Prod.mk.inj settled
      exact ⟨own, rfl, _, found, failed⟩

section Repair

variable (apart : ∀ {specifier}, modules specifier → ¬ leaf specifier) {changed : Specifier}
  {passed : Workspace} {report : PassReport}

include apart

theorem Accounts.repairImporters (distinct : DigestsDistinct modules)
    (accounts : Accounts modules leaf changed workspace passed report) :
    let (report', after) := passed.repairImporters report changed
    Accounts modules leaf changed workspace after report' ∧
      after.graph.get? changed = passed.graph.get? changed ∧ report'.outcomes = report.outcomes := by
  have repaired := accounts.serviceable.repairImporters apart distinct report changed
  generalize passed.repairImporters report changed = result at repaired ⊢
  obtain ⟨report', after⟩ := result
  obtain ⟨start, rehashes, moved⟩ := accounts.moved
  refine ⟨⟨repaired.serviceable, accounts.setup.trans repaired.setup, repaired.nodup accounts.nodup, start,
    rehashes.trans repaired.rehashes, fun other differ => ?_⟩, repaired.own, repaired.outcomes⟩
  obtain ⟨same, noted⟩ := moved other differ
  exact ⟨same, by rw [repaired.reports, noted, rehashes.moved_trans repaired.rehashes]⟩

/-- A module whose source is gone is taken out. Nothing else has changed by then. -/
theorem Retried.remove (retried : Retried modules leaf changed workspace passed report)
    (gone : isGone (report.outcomes.get? changed) = true) :
    Accounts modules leaf changed workspace (passed.remove changed) report ∧
      (passed.remove changed).graph.get? changed = none := by
  obtain ⟨own, none, record, found, failed⟩ := retried.gone gone
  obtain ⟨serviceable, setup, absent, others⟩ := retried.serviceable.remove apart own found failed
  refine ⟨⟨serviceable, retried.setup.trans setup, retried.nodup, _, .refl _, fun other differ => ⟨?_, ?_⟩⟩, absent⟩
  · rw [storedHash_congr (others other differ)]
    by_contra moved
    have listed := (retried.changed_iff differ).2 moved
    rw [none] at listed
    cases listed
  · simp [none]

end Repair

section Compile

variable (scope : Scope (· = tools) modules leaf) (serviceable : Serviceable modules leaf .clear workspace)
  (readable : workspace.store.Readable modules leaf)

include serviceable

theorem Serviceable.mayCompile {specifier : Specifier}
    (used : ¬ ((workspace.graph.get? specifier).isNone &&
      (workspace.graph.dependents specifier).isEmpty) = true) :
    modules specifier ∨ leaf specifier ∧ ∃ record, workspace.graph.get? specifier = some record := by
  rcases record_or_importer serviceable.indexed used with
    ⟨record, found⟩ | ⟨importer, record, there, edge, inside, rfl⟩
  · rcases serviceable.record found with ⟨own, -⟩ | ⟨⟨isLeaf, -⟩ | ⟨own, -⟩, -⟩
    · exact .inl own
    · exact .inr ⟨isLeaf, record, found⟩
    · exact .inl own
  · rcases serviceable.record there with ⟨-, rfl | failed⟩ | ⟨⟨-, _, rfl⟩ | ⟨-, held⟩, -⟩
    · cases inside
    · rw [failed.edges] at inside
      cases inside
    · cases inside
    · exact held.targets edge inside

include scope readable

/-- A changed source is compiled again, and importers are repaired at once if its hash moved. -/
theorem Serviceable.retry {specifier : Specifier}
    (able : modules specifier ∨ leaf specifier ∧ ∃ record, workspace.graph.get? specifier = some record) :
    let (report, after) := workspace.compileAll tools [specifier] { forceRefresh := true }
    Retried modules leaf specifier workspace after report := by
  have run := passes_ok scope serviceable readable { forceRefresh := true } (.single able)
  have start : Visiting modules leaf (· = specifier) workspace [] { workspace } := .start serviceable
  have visit := start.visit List.not_mem_nil able scope readable { forceRefresh := true }
    fun _ : true = true => rfl
  have alone := touched_of_failed serviceable.indexed visit.2.2.2
  simp only [Workspace.compileAll, List.map_cons, List.map_nil, if_true, List.foldl_cons, List.foldl_nil]
  generalize visitAll tools { forceRefresh := true } [] { workspace } [(specifier, true)] = result
    at run alone ⊢
  obtain ⟨first, touched⟩ := result
  dsimp only at run alone ⊢
  generalize settled : first.settle touched = result at run ⊢
  obtain ⟨report, passed⟩ := result
  obtain ⟨passes, done⟩ := run
  have retried := passes.retried (done _ List.mem_cons_self) alone settled
  dsimp only
  split
  · next listed =>
    have repaired := retried.toAccounts.repairImporters scope.apart scope.distinct
    generalize passed.repairImporters report specifier = result at repaired ⊢
    obtain ⟨report', after⟩ := result
    obtain ⟨accounts, own, outcomes⟩ := repaired
    refine ⟨accounts, own ▸ retried.present, fun gone => ?_⟩
    rw [outcomes] at gone
    rw [(retried.gone gone).2.1] at listed
    cases listed
  · exact retried

theorem Serviceable.compileAll {roots : List Specifier} (rooted : ∀ root ∈ roots, modules root)
    (options : CompileOptions) :
    let (_, after) := workspace.compileAll tools roots options
    Serviceable modules leaf .clear after ∧ SameSetup workspace.store after.store := by
  have able : Work modules leaf (fun _ => True) workspace (roots.map (·, options.forceRefresh)) :=
    .of_roots rooted fun _ _ _ => trivial
  have run := passes_ok scope serviceable readable options able
  generalize visited : visitAll tools options [] { workspace } (roots.map (·, options.forceRefresh)) = result
    at run
  obtain ⟨pass, touched⟩ := result
  obtain ⟨passes, -⟩ := run
  refine @compileAll_induction (fun result => Serviceable modules leaf .clear result.2 ∧
    SameSetup workspace.store result.2.store) workspace tools roots options ?_ fun report middle root kept => ?_
  · rw [visited]
    exact ⟨passes.clears.serviceable, passes.visiting.setup.trans passes.clears.setup⟩
  · have repaired := kept.1.repairImporters scope.apart scope.distinct report root
    exact ⟨repaired.serviceable, kept.2.trans repaired.setup⟩

end Compile

/-- What a listener hears after a source changed: of the changed module, which has to be loaded again if it
was taken out or its noted hash moved, and once of each other module whose noted hash moved. -/
structure HearsExactly (changed : Specifier) (before after : ModuleGraph) (outcome : ChangeOutcome) : Prop where
  settled : ∃ first others, outcome.settled = first :: others ∧ first.specifier = changed ∧
    (first.needsReload = true ↔ outcome.isRemoved = true ∨ after.storedHash changed ≠ before.storedHash changed) ∧
    (∀ event ∈ others, event.needsReload = true) ∧
    (others.map (·.specifier)).Nodup ∧
    ∀ other, other ∈ others.map (·.specifier) ↔
      other ≠ changed ∧ after.storedHash other ≠ before.storedHash other
  removed : outcome.isRemoved = true ↔
    (∃ record, before.get? changed = some record) ∧ after.get? changed = none

/-- The modules that are reported beside the changed one. -/
theorem Accounts.others {changed : Specifier} {after : Workspace} {report : PassReport}
    (accounts : Accounts modules leaf changed workspace after report) :
    let others := (report.changed.filter (· ≠ changed)).map fun other =>
      ({ specifier := other, needsReload := true } : Settled)
    (∀ event ∈ others, event.needsReload = true) ∧ (others.map (·.specifier)).Nodup ∧
      ∀ other, other ∈ others.map (·.specifier) ↔
        other ≠ changed ∧ after.graph.storedHash other ≠ workspace.graph.storedHash other := by
  simp only [List.map_map, Function.comp_def, List.map_id']
  refine ⟨fun event listed => ?_, accounts.nodup.filter _, fun other => ?_⟩
  · obtain ⟨other, -, rfl⟩ := List.mem_map.1 listed
    rfl
  · rw [List.mem_filter, decide_eq_true_iff, and_comm]
    exact and_congr_right fun differ => accounts.changed_iff differ

theorem needsReload_settledState {changed : Specifier} {record : ModuleRecord}
    (found : workspace.graph.get? changed = some record) (oldHash : String) :
    (workspace.settledState changed oldHash).specifier = changed ∧
      ((workspace.settledState changed oldHash).needsReload = true ↔
        workspace.graph.storedHash changed ≠ oldHash) := by
  rw [settledState, found, storedHash_of_get? found]
  exact ⟨rfl, bne_iff_ne⟩

theorem Accounts.finish (apart : ∀ {specifier}, modules specifier → ¬ leaf specifier)
    (distinct : DigestsDistinct modules) {changed : Specifier} {passed : Workspace} {report : PassReport}
    (accounts : Accounts modules leaf changed workspace passed report) :
    let (report', after) :=
      if changed ∈ report.changed then (report, passed) else passed.repairImporters report changed
    Accounts modules leaf changed workspace after report' ∧
      after.graph.get? changed = passed.graph.get? changed := by
  split
  · next result same =>
    split at same
    · obtain ⟨rfl, rfl⟩ := Prod.mk.inj same
      exact ⟨accounts, rfl⟩
    · have repaired := accounts.repairImporters apart distinct
      rw [same] at repaired
      exact ⟨repaired.1, repaired.2.1⟩

theorem sourceChanged_eq_of_used {changed : Specifier}
    (used : ¬ ((workspace.graph.get? changed).isNone && (workspace.graph.dependents changed).isEmpty) = true) :
    workspace.sourceChanged tools changed =
      let (report, passed) := workspace.compileAll tools [changed] { forceRefresh := true }
      let isRemoved := (workspace.graph.get? changed).isSome && isGone (report.outcomes.get? changed)
      let middle := if isRemoved then passed.remove changed else passed
      let first :=
        if isRemoved then { specifier := changed, needsReload := true, error? := some "module removed" }
        else middle.settledState changed (workspace.graph.storedHash changed)
      let (report, after) :=
        if changed ∈ report.changed then (report, middle) else middle.repairImporters report changed
      let others := (report.changed.filter (· ≠ changed)).map fun other =>
        { specifier := other, needsReload := true }
      ({ settled := first :: others, report, isRemoved }, after) := by
  rw [Workspace.sourceChanged]
  simp only [used]
  rfl

section SourceChanged

variable (scope : Scope (· = tools) modules leaf) (serviceable : Serviceable modules leaf .clear workspace)
  (readable : workspace.store.Readable modules leaf)

include scope serviceable readable

theorem Serviceable.sourceChanged_of_used {changed : Specifier}
    (used : ¬ ((workspace.graph.get? changed).isNone && (workspace.graph.dependents changed).isEmpty) = true) :
    let (outcome, after) := workspace.sourceChanged tools changed
    Serviceable modules leaf .clear after ∧ SameSetup workspace.store after.store ∧
      HearsExactly changed workspace.graph after.graph outcome := by
  have retried := serviceable.retry scope readable (serviceable.mayCompile used)
  rw [sourceChanged_eq_of_used used]
  generalize workspace.compileAll tools [changed] { forceRefresh := true } = result at retried ⊢
  obtain ⟨report, passed⟩ := result
  by_cases removed :
      ((workspace.graph.get? changed).isSome && isGone (report.outcomes.get? changed)) = true
  · obtain ⟨known, gone⟩ := Bool.and_eq_true_iff.1 removed
    obtain ⟨accounts, absent⟩ := retried.remove scope.apart gone
    have last := accounts.finish scope.apart scope.distinct
    simp only [removed, if_true]
    generalize (if changed ∈ report.changed then (report, passed.remove changed)
      else (passed.remove changed).repairImporters report changed) = result at last ⊢
    obtain ⟨report', after⟩ := result
    obtain ⟨accounts', own⟩ := last
    obtain ⟨reload, nodup, members⟩ := accounts'.others
    refine ⟨accounts'.serviceable, accounts'.setup, ⟨_, _, rfl, rfl, by simp, reload, nodup, members⟩, ?_⟩
    simp [Option.isSome_iff_exists.1 known, own, absent]
  · have last := retried.toAccounts.finish scope.apart scope.distinct
    simp only [removed, Bool.false_eq_true, if_false]
    generalize (if changed ∈ report.changed then (report, passed)
      else passed.repairImporters report changed) = result at last ⊢
    obtain ⟨report', after⟩ := result
    obtain ⟨accounts', own⟩ := last
    obtain ⟨reload, nodup, members⟩ := accounts'.others
    obtain ⟨record, found⟩ := retried.present
    obtain ⟨named, moved⟩ := needsReload_settledState found (workspace.graph.storedHash changed)
    refine ⟨accounts'.serviceable, accounts'.setup, ⟨_, _, rfl, named, ?_, reload, nodup, members⟩, ?_⟩
    · rw [moved, storedHash_congr own]
      simp
    · simp [own, found]

end SourceChanged

/-! ## Histories -/

section Histories

variable {known : Toolchain → Prop} (scopes : ∀ tools, known tools → Scope (· = tools) modules leaf)

include scopes

theorem Serviceable.perform (serviceable : Serviceable modules leaf .clear workspace)
    (readable : workspace.store.Readable modules leaf) (used : known tools) {call : Call}
    (rooted : ∀ root ∈ call.roots, modules root) :
    Serviceable modules leaf .clear (workspace.perform tools call) ∧
      SameSetup workspace.store (workspace.perform tools call).store := by
  cases call with
  | compile roots options => exact serviceable.compileAll (scopes tools used) readable rooted options
  | notice specifier =>
    by_cases ignored : ((workspace.graph.get? specifier).isNone &&
        (workspace.graph.dependents specifier).isEmpty) = true
    · rw [Workspace.perform, sourceChanged_eq, if_pos ignored]
      exact ⟨serviceable, .refl _⟩
    · obtain ⟨last, setup, -⟩ := serviceable.sourceChanged_of_used (scopes tools used) readable ignored
      exact ⟨last, setup⟩

/-- Whatever a compiler is asked to do, no refresh fails in its workspace afterwards. -/
theorem Serviceable.performAll (calls : List (Toolchain × Call))
    (serviceable : Serviceable modules leaf .clear workspace)
    (readable : workspace.store.Readable modules leaf) (used : ∀ call ∈ calls, known call.1)
    (rooted : ∀ call ∈ calls, ∀ root ∈ call.2.roots, modules root) :
    Serviceable modules leaf .clear (workspace.performAll calls) ∧
      SameSetup workspace.store (workspace.performAll calls).store := by
  induction calls generalizing workspace with
  | nil => exact ⟨serviceable, .refl _⟩
  | cons call rest ih =>
    obtain ⟨serviceable', setup⟩ := serviceable.perform scopes readable (used call List.mem_cons_self)
      (rooted call List.mem_cons_self)
    obtain ⟨last, setup'⟩ := ih serviceable' (readable.congr setup)
      (fun other member => used other (List.mem_cons_of_mem _ member))
      fun other member => rooted other (List.mem_cons_of_mem _ member)
    exact ⟨last, setup.trans setup'⟩

end Histories

/-- Let a compiler be asked to do anything, and then be told that a source changed that some module is known
to use. What a listener hears is of the changed module, and once of each other module whose content hash is
not what it was, and of no more. -/
theorem sourceChanged_hears_exactly (calls : List (Toolchain × Call)) (tools : Toolchain) (changed : Specifier)
    (workspace : Workspace) (blank : workspace.IsBlank)
    (apart : Unambiguous (fun version => version = tools ∨ version ∈ calls.map Prod.fst)
      (calls.flatMap fun call => call.2.roots))
    (distinct : DigestsDistinct (Reached (fun version => version = tools ∨ version ∈ calls.map Prod.fst)
      (calls.flatMap fun call => call.2.roots) · false))
    (readable : workspace.store.Readable
      (Reached (fun version => version = tools ∨ version ∈ calls.map Prod.fst)
        (calls.flatMap fun call => call.2.roots) · false)
      (Reached (fun version => version = tools ∨ version ∈ calls.map Prod.fst)
        (calls.flatMap fun call => call.2.roots) · true)) :
    let before := workspace.performAll calls
    let (outcome, after) := before.sourceChanged tools changed
    ((∃ record, before.graph.get? changed = some record) ∨ before.graph.dependents changed ≠ []) →
      HearsExactly changed before.graph after.graph outcome := by
  have scopes (version : Toolchain) (used : version = tools ∨ version ∈ calls.map Prod.fst) :=
    scope_of_known apart distinct used
  obtain ⟨serviceable, setup⟩ := (blank.serviceable .clear).performAll scopes calls readable
    (fun call member => .inr (List.mem_map.2 ⟨call, member, rfl⟩))
    (fun call member root listed => .root (List.mem_flatMap.2 ⟨call, member, listed⟩))
  intro before
  generalize result : before.sourceChanged tools changed = outcome
  obtain ⟨outcome, after⟩ := outcome
  intro met
  have used : ¬ ((before.graph.get? changed).isNone && (before.graph.dependents changed).isEmpty) = true := by
    rcases met with ⟨record, found⟩ | imported
    · simp [found]
    · simp [imported]
  have heard := serviceable.sourceChanged_of_used (scopes tools (.inl rfl)) (readable.congr setup) used
  rw [result] at heard
  exact heard.2.2

/-- Two modules import a third that gets a source. -/
theorem sourceChanged_hears_exactly_fork :
    let before := ({} : Workspace).performAll [(fork, .compile forkRoots {})]
    let (outcome, after) := before.sourceChanged grownFork ⟨"app:d"⟩
    (∃ record, before.graph.get? ⟨"app:d"⟩ = some record) ∧
      HearsExactly ⟨"app:d"⟩ before.graph after.graph outcome := by
  obtain ⟨-, -, ⟨reason, found⟩, -⟩ := compileAll_fork
  have coherent := coherent_fork isFork_of_version
  exact ⟨⟨_, found⟩, sourceChanged_hears_exactly [(fork, .compile forkRoots {})] grownFork ⟨"app:d"⟩ {}
    ⟨rfl, rfl, rfl, rfl⟩ coherent.apart coherent.distinct nofun (.inl ⟨_, found⟩)⟩

end ModuleBuild
