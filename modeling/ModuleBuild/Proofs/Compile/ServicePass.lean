import ModuleBuild.Proofs.Compile.ServiceTurns
/-!
The second half of a pass over a serviceable workspace: all that was claimed is settled without a failure,
and the modules whose content hash moves are reported as changed.
-/

namespace ModuleBuild.Pass

open ModuleGraph Workspace ArtifactStore Relation

variable {modules leaf : Specifier → Prop}

section Enter

variable {pass : Pass} (indexed : pass.workspace.graph.Indexed) (specifier : Specifier)

theorem storedHash_enter (pass : Pass) (specifier other : Specifier) :
    (pass.enter specifier).workspace.graph.storedHash other = pass.workspace.graph.storedHash other := by
  rw [ModuleGraph.storedHash, get?_enter]
  split
  · next same =>
    subst same
    rw [ModuleGraph.storedHash, Option.map_map]
    rfl
  · rfl

theorem rehashes_enter (pass : Pass) (specifier : Specifier) :
    pass.workspace.graph.Rehashes (pass.enter specifier).workspace.graph :=
  ⟨(revises_updateEntryFlag _ specifier).foldView?, fun other => .inl (storedHash_enter pass specifier other)⟩

include indexed

theorem changes_enter :
    ChangesOne modules leaf specifier pass.workspace (pass.enter specifier).workspace where
  setup := .refl _
  indexed := (revises_updateEntryFlag _ specifier).indexed indexed
  others _ differ := .inl (get?_enter_other pass differ)
  adds := .of_get? fun _ _ there => by
    obtain ⟨old, there', -⟩ := (revises_updateEntryFlag _ specifier).of_get? there
    exact ⟨old, there'⟩
  sameOwn other _ _ := .refl _ other
  present := fun _ ⟨_, found⟩ => by
    obtain ⟨new, found', -⟩ := (revises_updateEntryFlag _ specifier).get?_of_get? found
    exact ⟨new, found'⟩

theorem held_enter {record : ModuleRecord} {staged? : Option Bytes}
    (held : Held modules leaf pass.workspace staged? record) (isEntry : Bool) :
    Held modules leaf (pass.enter specifier).workspace staged? (record.withEntry isEntry) := by
  have changes : ChangesOne modules leaf specifier pass.workspace (pass.enter specifier).workspace :=
    changes_enter indexed specifier
  exact
    { held with
      targets := fun edge member => (held.targets edge member).imp_right fun ⟨isLeaf, found⟩ =>
        ⟨isLeaf, changes.present_leaf isLeaf found⟩ }

end Enter

structure ClearsOne (modules leaf : Specifier → Prop) (specifier : Specifier) (rest : List Specifier)
    (before after : Pass) (first second : PassReport) : Prop where
  serviceable : Serviceable modules leaf (after.backlog rest) after.workspace
  changes : ChangesOne modules leaf specifier before.workspace after.workspace
  others : ∀ other, other ≠ specifier →
    after.workspace.graph.get? other = before.workspace.graph.get? other
  staged : after.staged = before.staged
  errors : after.errors = before.errors
  present : ∃ record, after.workspace.graph.get? specifier = some record
  rehashes : before.workspace.graph.Rehashes after.workspace.graph
  changed : second.changed = first.changed ++
    if after.workspace.graph.storedHash specifier ≠ before.workspace.graph.storedHash specifier then [specifier]
    else []

section SettleOne

variable (apart : ∀ {specifier}, modules specifier → ¬ leaf specifier) (distinct : DigestsDistinct modules)
  {pass : Pass} {specifier : Specifier} {rest : List Specifier} (fresh : specifier ∉ rest)
  (serviceable : Serviceable modules leaf (pass.backlog (specifier :: rest)) pass.workspace)

include fresh in
theorem backlog_rest (pass : Pass) : pass.backlog rest specifier = none ∧
    ∀ other, other ≠ specifier → pass.backlog rest other = pass.backlog (specifier :: rest) other :=
  ⟨if_neg fresh, fun other differ => by simp [backlog, differ]⟩

include fresh serviceable

theorem clearsOne_failed {record : ModuleRecord} (own : modules specifier) {error : ModuleError}
    (errors : pass.errors.get? specifier = some error)
    (found : pass.workspace.graph.get? specifier = some record) (failed : HasFailed record)
    (report : PassReport) :
    let (after, report') := pass.settleOne report specifier
    ClearsOne modules leaf specifier rest pass after report report' := by
  obtain ⟨-, same⟩ := backlog_rest fresh pass
  have changes : ChangesOne modules leaf specifier pass.workspace pass.workspace :=
    ⟨.refl _, serviceable.indexed, fun _ _ => .inl rfl, .of_get? fun _ record found => ⟨record, found⟩,
      fun other _ _ => .refl _ other, fun _ found => found⟩
  rw [settleOne_failed errors]
  refine ⟨serviceable.change changes same (fun new there => ?_) fun own sidecar there =>
      serviceable.sidecar own there, changes, fun _ _ => rfl, rfl, rfl, ⟨record, found⟩, .refl _, by simp⟩
  exact .bare own (.inr (Option.some.inj (found.symm.trans there) ▸ failed))

theorem clearsOne_idle {record : ModuleRecord} (found : pass.workspace.graph.get? specifier = some record)
    (ready : record.isReady = true) (serves : Serves modules leaf pass.workspace none specifier record)
    {report report' : PassReport} (reported : report'.changed = report.changed) :
    ClearsOne modules leaf specifier rest pass (pass.enter specifier) report report' := by
  obtain ⟨done, same⟩ := backlog_rest fresh pass
  have changes : ChangesOne modules leaf specifier pass.workspace (pass.enter specifier).workspace :=
    changes_enter serviceable.indexed specifier
  have entered := get?_enter_of_get? found
  refine ⟨serviceable.change changes same (fun new there => ?_) fun own sidecar there =>
      serviceable.sidecar own there, changes,
    fun _ => get?_enter_other pass, rfl, rfl,
    ⟨_, entered⟩, rehashes_enter pass specifier, by simp [reported, storedHash_enter]⟩
  obtain rfl := Option.some.inj (entered.symm.trans there)
  have waits : (pass.enter specifier).backlog rest specifier = none := done
  rw [waits]
  cases serves with
  | left isLeaf left => exact .serves (.left isLeaf (left.withEntry _)) (.inl ready)
  | held own held => exact .serves (.held own (held_enter serviceable.indexed specifier held _)) (.inl ready)

include apart distinct

/-- A module that is held is refreshed, unless it is up to date. -/
theorem clearsOne_held {record : ModuleRecord} (own : modules specifier)
    (clear : pass.errors.get? specifier = none)
    (found : pass.workspace.graph.get? specifier = some record)
    (held : Held modules leaf pass.workspace (pass.staged.get? specifier) record) (report : PassReport) :
    let (after, report') := pass.settleOne report specifier
    ClearsOne modules leaf specifier rest pass after report report' := by
  obtain ⟨done, same⟩ := backlog_rest fresh pass
  have changes : ChangesOne modules leaf specifier pass.workspace (pass.enter specifier).workspace :=
    changes_enter serviceable.indexed specifier
  have entered := get?_enter_of_get? found
  have held' := held_enter serviceable.indexed specifier held (pass.workspace.graph.isDynamicEntry specifier)
  by_cases upToDate : (((pass.enter specifier).staged.get? specifier).isNone &&
      (pass.enter specifier).workspace.graph.isSettled specifier) = true
  · rw [settleOne_of_clear clear]
    simp only [upToDate, if_true]
    obtain ⟨unstaged, settled⟩ := Bool.and_eq_true_iff.1 upToDate
    have unstaged' : pass.staged.get? specifier = none := Option.isNone_iff_eq_none.1 unstaged
    simp only [isSettled, entered] at settled
    exact clearsOne_idle fresh serviceable found (Bool.and_eq_true_iff.1 settled).1
      (.held own (unstaged' ▸ held)) rfl
  · have serviceable' : Serviceable modules leaf (pass.backlog (specifier :: rest))
        (pass.enter specifier).workspace := by
      refine serviceable.change changes (fun _ _ => rfl) (fun new there => ?_) fun own sidecar there =>
        serviceable.sidecar own there
      obtain rfl := Option.some.inj (entered.symm.trans there)
      have waits : pass.backlog (specifier :: rest) specifier = some (pass.staged.get? specifier) :=
        if_pos List.mem_cons_self
      rw [waits]
      exact .serves (.held own held') (.inr rfl)
    obtain rfl := serviceable.indexed.keyed found
    obtain ⟨refreshed, after, refresh, last, renews⟩ :=
      @Serviceable.refresh _ _ _ _ (record.withEntry (pass.workspace.graph.isDynamicEntry record.specifier))
        apart distinct serviceable' entered own _ held' (pass.backlog rest) done same
    have rehashes := (rehashes_enter pass record.specifier).trans renews.rehashes
    rw [settleOne_refreshed clear upToDate refresh]
    refine ⟨last, changes.trans renews.changes, fun other differ => ?_, rfl, rfl, ⟨_, renews.found⟩, rehashes, ?_⟩
    · exact (renews.others other differ).trans (get?_enter_other pass differ)
    · have moved := renews.moved
      rw [ModuleRecord.withEntry, storedHash_enter] at moved
      dsimp only at moved ⊢
      cases changed : refreshed.hashChanged <;> simp_all

theorem clearsOne_settleOne (turned : TurnedTo modules leaf pass specifier) (report : PassReport) :
    let (after, report') := pass.settleOne report specifier
    ClearsOne modules leaf specifier rest pass after report report' := by
  cases turned with
  | failed own errors found failed => exact clearsOne_failed fresh serviceable own errors found failed report
  | @served record clear found serves =>
    cases serves with
    | held own held => exact clearsOne_held apart distinct fresh serviceable own clear found held report
    | left isLeaf left =>
      have ready : record.isReady = true := by
        obtain ⟨_, rfl⟩ := left
        rfl
      have idle : (pass.enter specifier).workspace.graph.foldView? specifier = none := by
        have entered := get?_enter_of_get? found
        obtain ⟨_, rfl⟩ := left
        simp [foldView?, entered, ModuleRecord.withEntry, ModuleRecord.folds, ModuleRecord.external]
      rw [settleOne_of_clear clear]
      dsimp only
      split
      · exact clearsOne_idle fresh serviceable found ready (.left isLeaf left) rfl
      · rw [refresh_idle idle]
        exact clearsOne_idle fresh serviceable found ready (.left isLeaf left) rfl

end SettleOne

/-- All modules that were claimed were settled, and those whose hash moved are added to the changed ones. -/
structure ClearsAll (modules leaf : Specifier → Prop) (work : List Specifier) (before after : Workspace)
    (first second : List Specifier) : Prop where
  serviceable : Serviceable modules leaf .clear after
  setup : SameSetup before.store after.store
  others : ∀ other, other ∉ work → after.graph.get? other = before.graph.get? other
  present : ∀ specifier ∈ work, ∃ record, after.graph.get? specifier = some record
  rehashes : before.graph.Rehashes after.graph
  reports : ∀ other, other ∈ second ↔
    other ∈ first ∨ after.graph.storedHash other ≠ before.graph.storedHash other
  added : ∃ more, second = first ++ more ∧ more.Sublist work

theorem ClearsOne.changed_iff {specifier : Specifier} {rest : List Specifier} {before after : Pass}
    {first second : PassReport} (one : ClearsOne modules leaf specifier rest before after first second)
    (other : Specifier) : other ∈ second.changed ↔ other ∈ first.changed ∨
      after.workspace.graph.storedHash other ≠ before.workspace.graph.storedHash other := by
  rw [one.changed, List.mem_append]
  refine or_congr_right ?_
  by_cases same : other = specifier
  · subst same
    split <;> simp_all
  · rw [storedHash_congr (one.others other same)]
    split <;> simp [same]

theorem clearsAll_settleAll (apart : ∀ {specifier}, modules specifier → ¬ leaf specifier)
    (distinct : DigestsDistinct modules) (work : List Specifier) (nodup : work.Nodup) (pass : Pass)
    (serviceable : Serviceable modules leaf (pass.backlog work) pass.workspace)
    (turned : ∀ specifier ∈ work, TurnedTo modules leaf pass specifier) (report : PassReport) :
    let (after, report') := settleAll pass report work
    ClearsAll modules leaf work pass.workspace after.workspace report.changed report'.changed ∧
      after.errors = pass.errors := by
  induction work generalizing pass report with
  | nil =>
    exact ⟨⟨serviceable.congr fun _ => (if_neg List.not_mem_nil).symm, .refl _, fun _ _ => rfl, by simp,
      .refl _, fun _ => by simp, [], by simp⟩, rfl⟩
  | cons specifier rest ih =>
    obtain ⟨fresh, nodup'⟩ := List.nodup_cons.1 nodup
    have one := clearsOne_settleOne apart distinct fresh serviceable (turned specifier List.mem_cons_self) report
    rw [show settleAll pass report (specifier :: rest) = settleAll (pass.settleOne report specifier).1
      (pass.settleOne report specifier).2 rest from rfl]
    generalize pass.settleOne report specifier = result at one ⊢
    obtain ⟨middle, report'⟩ := result
    have step : StepOf modules leaf specifier pass middle :=
      ⟨one.changes, fun other _ => congrArg (·.get? other) one.staged,
        fun other _ => congrArg (·.get? other) one.errors⟩
    have later := ih nodup' middle one.serviceable (fun other member =>
      (turned other (List.mem_cons_of_mem _ member)).later serviceable.indexed step
        fun same => fresh (same ▸ member)) report'
    dsimp only at later ⊢
    generalize settleAll middle report' rest = result at later ⊢
    obtain ⟨after, report''⟩ := result
    obtain ⟨later, errors⟩ := later
    refine ⟨⟨later.serviceable, one.changes.setup.trans later.setup, fun other absent => ?_,
      fun other member => ?_, one.rehashes.trans later.rehashes, fun other => ?_, ?_⟩, errors.trans one.errors⟩
    · obtain ⟨differ, absent'⟩ := not_or.1 (mt List.mem_cons.2 absent)
      exact (later.others other absent').trans (one.others other differ)
    · rcases List.mem_cons.1 member with rfl | inside
      · rw [later.others _ fresh]
        exact one.present
      · exact later.present other inside
    · rw [later.reports, one.changed_iff, one.rehashes.moved_trans later.rehashes, or_assoc]
    · obtain ⟨more, same, sub⟩ := later.added
      rw [same, one.changed]
      split
      · exact ⟨specifier :: more, by simp, sub.cons_cons specifier⟩
      · exact ⟨more, by simp, sub.cons specifier⟩

structure Passes (modules leaf forced : Specifier → Prop) (base : Workspace) (touched : List Specifier)
    (first : Pass) (after : Workspace) (report : PassReport) : Prop where
  visiting : Visiting modules leaf forced base touched first
  nodup : touched.Nodup
  clears : ClearsAll modules leaf touched first.workspace after [] report.changed
  outcomes : ∀ specifier, report.outcomes.get? specifier =
    if specifier ∈ touched then outcome? first.errors after.graph specifier else none

theorem passes_ok {tools : Toolchain} (scope : Scope (· = tools) modules leaf) {workspace : Workspace}
    (serviceable : Serviceable modules leaf .clear workspace)
    (readable : workspace.store.Readable modules leaf) {forced : Specifier → Prop} (options : CompileOptions)
    {work : List (Specifier × Bool)} (able : Work modules leaf forced workspace work) :
    let (first, touched) := visitAll tools options [] { workspace } work
    let (report, after) := first.settle touched
    Passes modules leaf forced workspace touched first after report ∧ ∀ item ∈ work, item.1 ∈ touched := by
  have visited := visiting_visitAll scope readable options [] { workspace } work (.start serviceable)
    List.nodup_nil able.mayClaim able.forced
  generalize visitAll tools options [] { workspace } work = result at visited ⊢
  obtain ⟨first, touched⟩ := result
  obtain ⟨visiting, nodup, -, done⟩ := visited
  have settled := clearsAll_settleAll scope.apart scope.distinct touched nodup first visiting.serviceable
    visiting.turned {}
  dsimp only
  rw [settle_eq]
  generalize settleAll first {} touched = result at settled ⊢
  obtain ⟨last, report⟩ := result
  obtain ⟨clears, errors⟩ := settled
  refine ⟨⟨visiting, nodup, clears, fun specifier => ?_⟩, done⟩
  rw [← errors]
  exact get?_outcomes last touched specifier

theorem touched_of_failed {tools : Toolchain} {options : CompileOptions} {workspace : Workspace}
    (indexed : workspace.graph.Indexed) {specifier : Specifier} {isForced : Bool}
    (stops : let (middle, targets) := ({ workspace } : Pass).visit tools options specifier isForced
      middle.errors.get? specifier ≠ none → targets = []) :
    let (after, touched) := visitAll tools options [] { workspace } [(specifier, isForced)]
    after.errors.get? specifier ≠ none → touched = [specifier] := by
  have keyed : ({ workspace } : Pass).workspace.graph.Keyed := fun _ _ found => indexed.keyed found
  have turn := hasTurn_visit tools options keyed specifier isForced
  rw [visitAll_of_fresh tools options List.not_mem_nil]
  generalize ({ workspace } : Pass).visit tools options specifier isForced = result at stops turn ⊢
  obtain ⟨middle, targets⟩ := result
  obtain ⟨-, passes⟩ := visitAll_passesBy tools options [specifier] middle
    ((if (tools.sources.get? specifier).isSome then targets else []).map (·, false) ++ []) turn.keyed
    List.mem_cons_self
  intro failed
  rw [passes.errors] at failed
  rw [stops failed, ite_self]
  simp [visitAll]

end ModuleBuild.Pass