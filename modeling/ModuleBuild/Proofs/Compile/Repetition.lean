import ModuleBuild.Proofs.Compile.Resting
/-!
A source that is followed twice although it did not change in between. The second time all modules are at
rest: those that fail do so with the same error, the others are up to date, and no record and nothing in store
changes. Only a module whose source is missing and that others import has a record after every other time.
-/

namespace ModuleBuild

open ModuleGraph Workspace ArtifactStore Pass Relation

namespace Pass

theorem FailsWith.unique {tools : Toolchain} {store : ArtifactStore} {record : ModuleRecord}
    {first second : ModuleError} (one : FailsWith tools store record first)
    (two : FailsWith tools store record second) : first = second := by
  rcases one with ⟨fresh, fails⟩ | ⟨cause, unreadable, rfl⟩
  · rcases two with ⟨-, fails'⟩ | ⟨cause, unreadable, -⟩
    · exact Except.error.inj (fails.symm.trans fails')
    · cases fresh.symm.trans unreadable
  · rcases two with ⟨fresh, -⟩ | ⟨cause', unreadable', rfl⟩
    · cases fresh.symm.trans unreadable
    · rw [Except.error.inj (unreadable.symm.trans unreadable')]

section Visit

variable {tools : Toolchain} (options : CompileOptions) {pass : Pass} {specifier : Specifier}

structure GoesOn (first second : Pass) : Prop where
  workspace : SameAs first.workspace second.workspace
  staged : second.staged = first.staged
  errors : ∀ specifier, first.errors.get? specifier ≠ none → second.errors.get? specifier ≠ none

theorem GoesOn.refl (pass : Pass) : GoesOn pass pass := ⟨.refl _, rfl, fun _ => id⟩

theorem GoesOn.trans {first second third : Pass} (one : GoesOn first second) (two : GoesOn second third) :
    GoesOn first third :=
  ⟨one.workspace.trans two.workspace, two.staged.trans one.staged,
    fun specifier failed => two.errors specifier (one.errors specifier failed)⟩

theorem visit_of_idle {isForced : Bool} (idle : ¬ pass.IsDue specifier isForced) {record : ModuleRecord}
    (found : pass.workspace.graph.get? specifier = some record) :
    pass.visit tools options specifier isForced = (pass, []) := by
  rcases visit_cases tools options pass specifier isForced with ⟨-, visit⟩ | ⟨due, -⟩
  · rw [visit, mention_of_get? found]
    rfl
  · exact absurd due idle

theorem visit_of_refused (inOrder : pass.workspace.store.faults = .empty) (keyed : pass.workspace.graph.Keyed)
    {error : ModuleError} (refused : Refused tools pass.workspace.store pass.workspace.graph specifier error)
    (isForced : Bool) :
    ∃ after, pass.visit tools options specifier isForced = (after, []) ∧ GoesOn pass after ∧
      after.errors.get? specifier = some error := by
  obtain ⟨record, found, compiled⟩ := refused.found
  have due : pass.IsDue specifier isForced := by
    simp [IsDue, found, ModuleRecord.failed, ModuleRecord.isReady, compiled]
  rcases visit_cases tools options pass specifier isForced with ⟨idle, -⟩ | ⟨-, -, visit⟩
  · exact absurd due idle
  obtain rfl : record.specifier = specifier := keyed specifier (record.failed error.message) found
  have fails : FailsWith tools pass.workspace.store (record.failed error.message) error :=
    refused.fails.of_bare inOrder rfl
  simp only [mention_of_get? found, found, Option.getD_some] at visit
  rw [visit]
  have yields := yields_build tools inOrder (record.failed error.message)
  unfold compileOrFail
  rw [show pass.setGraph pass.workspace.graph = pass from rfl]
  generalize build tools pass (record.failed error.message) = result at yields ⊢
  cases yields with
  | failed error' opened alike fails' =>
    obtain rfl := fails.unique fails'
    -- the record holds the error already, and all that the failure mentions has a record
    have mentions : (mentionedBy tools record.specifier error).foldl mentionExternal opened.workspace.graph =
        pass.workspace.graph := by
      rw [alike.graph]
      exact mentionExternals_of_isMet refused.met
    refine ⟨(opened.setGraph ((mentionedBy tools record.specifier error).foldl mentionExternal
      opened.workspace.graph)).fail record.specifier error, ?_,
      ⟨⟨?_, alike.keeps.contents⟩, alike.staged, fun other failed => ?_⟩,
      (OrderedMap.get?_insert _ _ _ _).trans (if_pos rfl)⟩
    · simp only [ite_self]
      rfl
    · exact (congrArg (·.modify record.specifier (·.failed error.message)) mentions).trans
        (modify_of_fixed found rfl)
    · have inserted := OrderedMap.get?_insert opened.errors record.specifier other error
      change (opened.errors.insert record.specifier error).get? other ≠ none
      rw [inserted, alike.errors]
      split
      · exact Option.some_ne_none error
      · exact failed
  | compiled image opened alike fresh is =>
    rcases fails with ⟨-, fails⟩ | ⟨cause, unreadable, -⟩
    · cases is.symm.trans fails
    · cases fresh.symm.trans unreadable
  | restored source restored opened alike load given taken =>
    rcases fails with ⟨fresh, -⟩ | ⟨cause, unreadable, -⟩
    · cases taken.symm.trans fresh
    · cases taken.symm.trans unreadable

end Visit

end Pass

theorem Rested.congr {tools : Toolchain} {first second : Workspace} {specifier : Specifier}
    (rested : Rested tools first specifier) (inOrder : first.store.faults = .empty)
    (same : SameAs first second) : Rested tools second specifier := by
  unfold Rested at rested ⊢
  rw [same.graph]
  refine rested.imp_right ?_
  rintro ⟨error, refused⟩
  exact ⟨error, refused.contents inOrder same.contents.setup
    (congrArg (·.get? specifier) same.contents.sidecars) fun _ output _ _ => congrArg (·.contains output.key) same.contents.blobs⟩

namespace Pass

/-- Nothing is left to do about a module when it is settled: it failed, or it is quiet. -/
def IsDone (pass : Pass) (specifier : Specifier) : Prop :=
  pass.errors.get? specifier ≠ none ∨ pass.workspace.graph.IsQuiet specifier

section Visit

variable {tools : Toolchain} (options : CompileOptions) {specifier : Specifier}

theorem GoesOn.isDone {first second : Pass} (onward : GoesOn first second) (done : first.IsDone specifier) :
    second.IsDone specifier := by
  refine done.imp (onward.errors specifier) fun quiet => ?_
  rw [onward.workspace.graph]
  exact quiet

theorem visit_of_rested {pass : Pass} (inOrder : pass.workspace.store.faults = .empty)
    (keyed : pass.workspace.graph.Keyed) (rested : Rested tools pass.workspace specifier) :
    ∃ after, pass.visit tools options specifier false = (after, []) ∧ GoesOn pass after ∧
      after.IsDone specifier := by
  rcases rested with quiet | ⟨error, refused⟩
  · obtain ⟨record, found, -, still⟩ := id quiet
    refine ⟨pass, visit_of_idle options (fun due => ?_) found, .refl pass, .inr quiet⟩
    rcases still with left | settled
    · simp [IsDue, found, left] at due
    · simp only [isSettled, found, Bool.and_eq_true] at settled
      simp [IsDue, found, settled.1] at due
  · obtain ⟨after, visit, onward, errors⟩ := visit_of_refused options inOrder keyed refused false
    exact ⟨after, visit, onward, .inl (errors ▸ Option.some_ne_none _)⟩

theorem visitAll_of_rested (work claimed : List Specifier) (pass : Pass)
    (inOrder : pass.workspace.store.faults = .empty) (keyed : pass.workspace.graph.Keyed)
    (rested : ∀ other ∈ work, other ∈ claimed ∨ Rested tools pass.workspace other) :
    ∃ after later, visitAll tools options claimed pass (work.map (·, false)) =
        (after, claimed.reverse ++ later) ∧ GoesOn pass after ∧ ∀ other ∈ later, after.IsDone other := by
  induction work generalizing claimed pass with
  | nil => exact ⟨pass, [], by rw [List.map_nil, visitAll, List.append_nil], .refl pass, nofun⟩
  | cons first rest ih =>
    by_cases old : first ∈ claimed
    · rw [List.map_cons, visitAll_of_mem tools options old]
      exact ih claimed pass inOrder keyed fun other member => rested other (List.mem_cons_of_mem _ member)
    · -- the turn adds no work, so what is left is what was asked for, and is still at rest
      obtain ⟨middle, visit, onward, done⟩ := visit_of_rested options inOrder keyed
        ((rested first List.mem_cons_self).resolve_left old)
      have inOrder' := onward.workspace.contents.setup.faults.trans inOrder
      obtain ⟨after, later, visited, onward', done'⟩ := ih (first :: claimed) middle inOrder'
        (onward.workspace.graph ▸ keyed) fun other member =>
          (rested other (List.mem_cons_of_mem _ member)).imp (List.mem_cons_of_mem _)
            (·.congr inOrder onward.workspace)
      refine ⟨after, first :: later, ?_, onward.trans onward', fun other member => ?_⟩
      · rw [List.map_cons, visitAll_of_fresh tools options old, visit]
        simpa using visited
      · rcases List.mem_cons.1 member with rfl | later
        · exact onward'.isDone done
        · exact done' other later

end Visit

theorem settleOne_of_isDone {pass : Pass} {specifier : Specifier} (done : pass.IsDone specifier)
    (unstaged : pass.staged.get? specifier = none) (report : PassReport) :
    (pass.settleOne report specifier).1 = pass := by
  cases errors : pass.errors.get? specifier with
  | some error => rw [settleOne_failed errors]
  | none =>
    obtain ⟨record, found, entry, still⟩ := done.resolve_left (absurd errors)
    have entered : pass.enter specifier = pass := by
      rw [enter, updateEntryFlag_of_current found entry]
      rfl
    rw [settleOne_of_clear errors, entered]
    simp only [unstaged, Option.isNone_none, Bool.true_and]
    split
    · rfl
    · next unsettled =>
      have left := still.resolve_right unsettled
      have idle : pass.workspace.graph.foldView? specifier = none := by
        simp [foldView?, found, ModuleRecord.folds, left]
      rw [refresh_idle idle]

theorem settleAll_of_isDone (work : List Specifier) {pass : Pass}
    (done : ∀ specifier ∈ work, pass.IsDone specifier)
    (unstaged : ∀ specifier ∈ work, pass.staged.get? specifier = none) (report : PassReport) :
    (settleAll pass report work).1 = pass := by
  induction work generalizing report with
  | nil => rfl
  | cons first rest ih =>
    have one := settleOne_of_isDone (done first List.mem_cons_self) (unstaged first List.mem_cons_self) report
    rw [show settleAll pass report (first :: rest) = settleAll (pass.settleOne report first).1
      (pass.settleOne report first).2 rest from rfl, one]
    exact ih (fun other member => done other (List.mem_cons_of_mem _ member))
      (fun other member => unstaged other (List.mem_cons_of_mem _ member)) _

end Pass

/-! ## A module that is taken over again -/

theorem ModuleGraph.Revises.isQuiet_iff {first second : ModuleGraph} (revises : first.Revises second)
    {specifier : Specifier} (same : second.get? specifier = first.get? specifier) :
    second.IsQuiet specifier ↔ first.IsQuiet specifier := by
  simp only [IsQuiet, same, revises.isDynamicEntry, isSettled_congr revises same]

theorem Workspace.Consistent.withState {graph : ModuleGraph} {store : ArtifactStore} {record : ModuleRecord}
    (consistent : Consistent graph store record) (state : ModuleState) :
    Consistent graph store { record with state } :=
  ⟨consistent.hashed, consistent.stored⟩

/-- A module was compiled from its source, and its output agrees with the graph. -/
structure UpToDate (tools : Toolchain) (workspace : Workspace) (record : ModuleRecord) (source : Source) :
    Prop where
  found : workspace.graph.get? record.specifier = some record
  load : tools.sources.load record.specifier = .ok source
  supported : source.kind.isSupported = true
  same : record.sourceHash = sourceHash source.bytes
  compiled : record.isExternal = false
  ready : record.isReady = true
  entry : record.flags.isDynamicEntryOnly = workspace.graph.isDynamicEntry record.specifier
  consistent : Consistent workspace.graph workspace.store record
  filed : Filed workspace.store record
  recorded : ∀ edge ∈ record.dependencies, ∃ target, workspace.graph.get? edge.target = some target

def ModuleGraph.reopen (graph : ModuleGraph) (specifier : Specifier) : ModuleGraph :=
  graph.modify specifier ({ · with state := .pending })

theorem ModuleGraph.revises_reopen (graph : ModuleGraph) (specifier : Specifier) :
    graph.Revises (graph.reopen specifier) :=
  graph.revises_modify specifier fun record =>
    ⟨record.flags.isDynamicEntryOnly, record.contentHash, record.output?, .pending, rfl⟩

namespace UpToDate

variable {tools : Toolchain} {workspace : Workspace} {record : ModuleRecord} {source : Source}
  (upToDate : UpToDate tools workspace record source)

include upToDate

theorem loaded : record.sourceHash ≠ "" := upToDate.same ▸ sourceHash_ne source.bytes

theorem folds : record.folds := by simp [ModuleRecord.folds, upToDate.compiled, upToDate.loaded]

theorem reopened : (workspace.graph.reopen record.specifier).get? record.specifier =
    some { record with state := .pending } := by
  rw [reopen, get?_modify, if_pos rfl, upToDate.found, Option.map_some]

theorem rested {other : Specifier} (differ : other ≠ record.specifier) {opened : Workspace}
    (inOrder : workspace.store.faults = .empty) (graph : opened.graph = workspace.graph.reopen record.specifier)
    (contents : SameContents workspace.store opened.store) (rested : Rested tools workspace other) :
    Rested tools opened other := by
  have others (next : Specifier) (differ : next ≠ record.specifier) :
      (workspace.graph.reopen record.specifier).get? next = workspace.graph.get? next :=
    (get?_modify _ _ _ _).trans (if_neg (Ne.symm differ))
  unfold Rested
  rw [graph]
  refine rested.imp ((workspace.graph.revises_reopen record.specifier).isQuiet_iff (others other differ)).2 ?_
  rintro ⟨error, refused⟩
  refine ⟨error, (refused.congr (others other differ) fun next met => ?_).contents inOrder contents.setup
    (congrArg (·.get? other) contents.sidecars) fun _ output _ _ =>
      congrArg (·.contains output.key) contents.blobs⟩
  by_cases own : next = record.specifier
  · subst own
    exact isMet_of_loaded upToDate.reopened upToDate.loaded
  · exact met.congr (others next own)

theorem reusable? (inOrder : workspace.store.faults = .empty) :
    (restore? workspace.store record (sourceHash source.bytes)).1 = .ok (some (keptOutput record)) := by
  obtain ⟨output, code, own, key, stored, -⟩ := upToDate.consistent.stored
  obtain ⟨result, after, restores, -, kept⟩ := restore?_eq inOrder record (sourceHash source.bytes)
  have state : record.state = .ready := by simpa [ModuleRecord.isReady] using upToDate.ready
  have isKept : IsKept workspace.store record (sourceHash source.bytes) :=
    ⟨upToDate.same, by simp [ModuleRecord.error?, state], output, own, by simp [OrderedMap.contains, stored]⟩
  rw [restores]
  exact (kept.resolve_right fun other => other.1 isKept).2

/-- A module that is up to date and is to be loaded again takes over its own output. -/
theorem visit (inOrder : workspace.store.faults = .empty) :
    ∃ after, ({ workspace } : Pass).visit tools { forceRefresh := true } record.specifier true =
        (after, distinctTargets record.dependencies) ∧
      after.workspace.graph = workspace.graph.reopen record.specifier ∧
      SameContents workspace.store after.workspace.store ∧ after.staged = .empty ∧ after.errors = .empty := by
  have due : ({ workspace } : Pass).IsDue record.specifier true := by
    simp [IsDue, upToDate.found, upToDate.compiled]
  rcases visit_cases tools { forceRefresh := true } { workspace } record.specifier true with
    ⟨idle, -⟩ | ⟨-, -, visit⟩
  · exact absurd due idle
  simp only [mention_of_get? upToDate.found, upToDate.found, Option.getD_some] at visit
  rw [visit]
  have taken := upToDate.reusable? inOrder
  have reusable : Pass.reusable? tools workspace.store record = .ok (some (keptOutput record)) := by
    simp [Pass.reusable?, upToDate.load, upToDate.supported, taken]
  have yields := @yields_build tools { workspace } inOrder record
  unfold compileOrFail
  rw [show ({ workspace } : Pass).setGraph workspace.graph = { workspace } from rfl]
  generalize build tools { workspace } record = result at yields ⊢
  cases yields with
  | failed error opened alike fails =>
    rcases fails with ⟨fresh, -⟩ | ⟨cause, unreadable, -⟩
    · cases reusable.symm.trans fresh
    · cases reusable.symm.trans unreadable
  | compiled image opened alike fresh => cases reusable.symm.trans fresh
  | restored source' restored opened alike load given =>
    obtain rfl := Except.ok.inj (upToDate.load.symm.trans load)
    obtain rfl := Option.some.inj (Except.ok.inj (taken.symm.trans given))
    refine ⟨(opened.reuse record.specifier (sourceHash source.bytes) (keptOutput record)).1, rfl, ?_,
      alike.keeps.contents, alike.staged, alike.errors⟩
    have reopens : opened.workspace.graph.modify record.specifier
        (takeOver (sourceHash source.bytes) (keptOutput record)) = workspace.graph.reopen record.specifier := by
      rw [alike.graph]
      refine modify_congr upToDate.found ?_
      rw [← upToDate.same]
      rfl
    refine (congrArg (·.mentionAll (distinctTargets record.dependencies)) reopens).trans ?_
    refine mentionAll_of_get? fun target member => ?_
    obtain ⟨edge, inside, rfl⟩ := (mem_distinctTargets _ _).1 member
    obtain ⟨target, there⟩ := upToDate.recorded edge inside
    obtain ⟨new, there', -⟩ := (workspace.graph.revises_reopen record.specifier).get?_of_get? there
    exact ⟨new, there'⟩

/-- Settling a module that took over its own output makes it ready again. -/
theorem settleOne {pass : Pass} (inOrder : workspace.store.faults = .empty) (tokens : HasTokens workspace.graph)
    (graph : pass.workspace.graph = workspace.graph.reopen record.specifier)
    (contents : SameContents workspace.store pass.workspace.store)
    (unstaged : pass.staged.get? record.specifier = none) (clear : pass.errors.get? record.specifier = none)
    (report : PassReport) :
    SameAs workspace (pass.settleOne report record.specifier).1.workspace ∧
      (pass.settleOne report record.specifier).1.staged = pass.staged ∧
      (pass.settleOne report record.specifier).1.errors = pass.errors := by
  have revises := workspace.graph.revises_reopen record.specifier
  have found := upToDate.reopened
  have entered : pass.enter record.specifier = pass := by
    have entry : ({ record with state := .pending } : ModuleRecord).flags.isDynamicEntryOnly =
        (workspace.graph.reopen record.specifier).isDynamicEntry record.specifier :=
      upToDate.entry.trans (revises.isDynamicEntry _).symm
    have same := updateEntryFlag_of_current (graph ▸ found) (graph ▸ entry)
    rw [enter, same]
    rfl
  have unsettled : ¬ (((pass.enter record.specifier).staged.get? record.specifier).isNone &&
      (pass.enter record.specifier).workspace.graph.isSettled record.specifier) = true := by
    rw [entered, graph]
    simp [isSettled, found, ModuleRecord.isReady]
  have consistent : Consistent pass.workspace.graph pass.workspace.store { record with state := .pending } := by
    refine (upToDate.consistent.congr ?_ (fun _ _ _ => ?_) fun _ => by rw [contents.blobs]).withState .pending
    · rw [graph, revises.contentHash?]
    · rw [graph, revises.contentHash?]
  have filed : Filed pass.workspace.store { record with state := .pending } :=
    upToDate.filed.congr fun _ => by rw [contents.blobs]
  obtain ⟨refreshed, after, refresh, -, contents', graph'⟩ :=
    @refresh_of_consistent pass.workspace { record with state := .pending }
      (contents.setup.faults.trans inOrder) (graph ▸ revises.hasTokens tokens) (graph ▸ found) upToDate.folds consistent filed
  have refresh' : (pass.enter record.specifier).workspace.refresh record.specifier
      ((pass.enter record.specifier).staged.get? record.specifier) = (.ok (some refreshed), after) := by
    rw [entered, unstaged]
    exact refresh
  rw [settleOne_refreshed clear unsettled refresh', entered]
  refine ⟨⟨?_, contents.trans contents'⟩, rfl, rfl⟩
  rw [graph', graph]
  refine modify_modify_of_fixed upToDate.found rfl ?_
  have state : record.state = .ready := by simpa [ModuleRecord.isReady] using upToDate.ready
  rw [← state]

/-- A pass over a module that is up to date, and whose imports are at rest, changes nothing. -/
theorem pass (inOrder : workspace.store.faults = .empty) (indexed : workspace.graph.Indexed)
    (tokens : HasTokens workspace.graph)
    (rested : ∀ edge ∈ record.dependencies,
      edge.target = record.specifier ∨ Rested tools workspace edge.target) :
    ∃ first touched, visitAll tools { forceRefresh := true } [] { workspace } [(record.specifier, true)] =
        (first, touched) ∧ SameAs workspace (settleAll first {} touched).1.workspace := by
  obtain ⟨opened, visit, graph, contents, unstaged, clear⟩ := upToDate.visit inOrder
  have revises := workspace.graph.revises_reopen record.specifier
  have keyed : opened.workspace.graph.Keyed := fun _ _ found => (revises.indexed indexed).keyed (graph ▸ found)
  have inOrder' := contents.setup.faults.trans inOrder
  have present : (tools.sources.get? record.specifier).isSome = true := by
    cases entry : tools.sources.get? record.specifier with
    | some _ => rfl
    | none => simpa [SourceTree.load, entry] using upToDate.load
  have next := @visitAll_of_fresh tools { forceRefresh := true } [] record.specifier List.not_mem_nil
    { workspace } true []
  rw [visit, if_pos present, List.append_nil] at next
  have apart := visitAll_passesBy tools { forceRefresh := true } [record.specifier] opened
    ((distinctTargets record.dependencies).map (·, false)) keyed List.mem_cons_self
  have nodup := nodup_visitAll tools { forceRefresh := true } [record.specifier] opened
    ((distinctTargets record.dependencies).map (·, false)) (List.nodup_singleton _)
  -- the module itself waits by now, but its specifier is claimed, so imports that lead back to it are passed by
  obtain ⟨first, later, visited, onward, done⟩ := visitAll_of_rested { forceRefresh := true }
    (distinctTargets record.dependencies) [record.specifier] opened inOrder' keyed fun target member => by
      obtain ⟨edge, inside, rfl⟩ := (mem_distinctTargets _ _).1 member
      by_cases same : edge.target = record.specifier
      · exact .inl (same ▸ List.mem_cons_self)
      · exact .inr (upToDate.rested same inOrder graph contents ((rested edge inside).resolve_left same))
  rw [visited] at apart nodup
  have fresh : record.specifier ∉ later := (List.nodup_cons.1 nodup).1
  have clear' : first.errors.get? record.specifier = none := apart.2.errors.trans (by rw [clear]; rfl)
  have unstaged' (other : Specifier) : first.staged.get? other = none := by
    rw [onward.staged, unstaged]
    rfl
  obtain ⟨same, staged, errors⟩ := upToDate.settleOne inOrder tokens (onward.workspace.graph.trans graph)
    (contents.trans onward.workspace.contents) (unstaged' _) clear' {}
  refine ⟨first, record.specifier :: later, next.trans visited, ?_⟩
  rw [show settleAll first {} (record.specifier :: later) = settleAll (first.settleOne {} record.specifier).1
    (first.settleOne {} record.specifier).2 later from rfl, settleAll_of_isDone later (fun other member => ?_)
      fun other _ => staged ▸ unstaged' other]
  · exact same
  · refine (done other member).imp (by rw [errors]; exact id) fun quiet => ?_
    rw [onward.workspace.graph, graph] at quiet
    rw [same.graph]
    have differ : record.specifier ≠ other := fun equal => fresh (equal ▸ member)
    exact (revises.isQuiet_iff ((get?_modify _ _ _ _).trans (if_neg differ))).1 quiet

end UpToDate

namespace Pass

/-- A module that is to be loaded fails, or is left alone, or waits with a new source hash and new imports. -/
theorem visit_forced (tools : Toolchain) {base : Workspace} (inOrder : base.store.faults = .empty)
    (indexed : base.graph.Indexed) (specifier : Specifier) :
    let result := ({ workspace := base } : Pass).visit tools { forceRefresh := true } specifier true
    (∃ error, result.1.errors.get? specifier = some error) ∨
      ∃ record, result.1.workspace.graph.get? specifier = some record ∧ (record.isExternal = true ∨
        ∃ source, tools.sources.load specifier = .ok source ∧ source.kind.isSupported = true ∧
          record.sourceHash = sourceHash source.bytes ∧ record.isReady = false ∧
          result.2 = distinctTargets record.dependencies) := by
  rcases visit_cases tools { forceRefresh := true } { workspace := base } specifier true with
    ⟨idle, visit⟩ | ⟨due, found, visit⟩
  · rw [visit]
    refine .inr ⟨_, (get?_mention _ _ _).trans (if_pos rfl), .inl ?_⟩
    by_contra left
    exact idle ((isDue_iff _ specifier true).2 (by simpa using left))
  · let mentioned : Pass := setGraph { workspace := base } (base.graph.mention specifier)
    have inOrder' : mentioned.workspace.store.faults = .empty := inOrder
    have named := (indexed.mention specifier).keyed found
    have yields := yields_build tools inOrder'
      ((base.graph.get? specifier).getD (.awaiting specifier))
    rw [visit]
    unfold compileOrFail
    generalize (base.graph.get? specifier).getD (.awaiting specifier) = record at found named yields ⊢
    subst named
    generalize build tools mentioned record = result at yields ⊢
    cases yields with
    | failed error opened alike fails =>
      exact .inl ⟨error, (OrderedMap.get?_insert _ _ _ _).trans (if_pos rfl)⟩
    | compiled image opened alike fresh is =>
      obtain ⟨old, there, -⟩ := get?_install (alike.graph ▸ found) image.externals (prepare image)
        (fun _ => image.source_ne) (distinctTargets image.edges)
      obtain ⟨loaded, output, load, transpiled, -, bytes, -⟩ := Toolchain.image?_eq_ok is
      refine .inr ⟨_, there, .inr ⟨loaded, load, ?_, congrArg sourceHash bytes, rfl, rfl⟩⟩
      cases supported : loaded.kind.isSupported with
      | true => rfl
      | false => simp [Toolchain.transpiled?, load, supported] at transpiled
    | restored source restored opened alike load given taken =>
      obtain ⟨old, there, -⟩ := get?_install (alike.graph ▸ found) restored.externals
        (takeOver (sourceHash source.bytes) restored) (fun _ => sourceHash_ne source.bytes)
        (distinctTargets restored.dependencies)
      refine .inr ⟨_, there, .inr ⟨source, load, ?_, rfl, rfl, rfl⟩⟩
      cases supported : source.kind.isSupported with
      | true => rfl
      | false => simp [Pass.reusable?, load, supported] at taken

end Pass

/-! ## Repairing again -/

theorem ModuleGraph.imports_eq {first second : ModuleGraph}
    (same : ∀ importer, first.dependencies importer = second.dependencies importer) :
    first.Imports = second.Imports :=
  funext fun importer => funext fun target => propext (imports_congr target (same importer))

theorem Repaired.mem_affected {astray : String → Prop} {changed other : Specifier} {before after : Workspace}
    (repaired : Repaired astray changed before after) (indexed : before.graph.Indexed)
    (member : other ∈ affected after.graph changed) : other ∈ affected before.graph changed := by
  obtain ⟨differ, leads, ready⟩ := (ModuleGraph.mem_affected repaired.stocks.indexed).1 member
  by_contra apart
  rw [imports_eq repaired.steps.revises.dependencies] at leads
  obtain ⟨record, found, ready⟩ := ready
  exact apart ((ModuleGraph.mem_affected indexed).2
    ⟨differ, leads, record, (repaired.steps.get?_other apart).symm.trans found, ready⟩)

/-- Importers that were repaired stay as they are if they are repaired once more, also if the module they depend
on got a record without a source, or lost it. -/
theorem Repaired.propagate_again {astray stray : String → Prop} {changed : Specifier}
    {before after later : Workspace} (repaired : Repaired astray changed before after)
    (indexed : before.graph.Indexed) (stocks : Stocks stray .clear later)
    (others : ∀ other, other ≠ changed → later.graph.get? other = after.graph.get? other)
    (view : later.graph.foldView? changed = after.graph.foldView? changed)
    (edges : later.graph.dependencies changed = after.graph.dependencies changed)
    (blobs : ∀ key, later.store.blobs.get? key = after.store.blobs.get? key) :
    SameAs later (later.propagate changed).2 := by
  have views (other : Specifier) : later.graph.foldView? other = after.graph.foldView? other := by
    by_cases same : other = changed
    · exact same ▸ view
    · exact foldView?_congr (others other same)
  have hashes (other : Specifier) : later.graph.contentHash? other = after.graph.contentHash? other :=
    contentHash?_congr fun _ _ => views _
  have dependencies (other : Specifier) : later.graph.dependencies other = after.graph.dependencies other := by
    by_cases same : other = changed
    · exact same ▸ edges
    · exact dependencies_congr (others other same)
  refine stocks.propagate_of_consistent changed fun other member record found folds => ?_
  obtain ⟨differ, leads, ready⟩ := (ModuleGraph.mem_affected stocks.indexed).1 member
  obtain ⟨_, there, ready⟩ := ready
  obtain rfl := Option.some.inj (found.symm.trans there)
  have found' := (others other differ).symm.trans found
  have member' : other ∈ affected after.graph changed :=
    (ModuleGraph.mem_affected repaired.stocks.indexed).2
      ⟨differ, imports_eq dependencies ▸ leads, record, found', ready⟩
  exact (repaired.consistent other (repaired.mem_affected indexed member') record found' folds).congr (hashes _)
    (fun _ _ _ => hashes _) fun _ => blobs _

/-! ## Following again -/

namespace Pass

theorem settleAll_single {tools : Toolchain} {workspace : Workspace} {specifier : Specifier} {first : Pass}
    (visit : ({ workspace } : Pass).visit tools { forceRefresh := true } specifier true = (first, []))
    (onward : GoesOn { workspace } first) (done : first.IsDone specifier) :
    visitAll tools { forceRefresh := true } [] { workspace } [(specifier, true)] = (first, [specifier]) ∧
      SameAs workspace (settleAll first {} [specifier]).1.workspace := by
  refine ⟨visitAll_single visit, ?_⟩
  rw [settleAll_of_isDone [specifier] (by simpa using done) fun other _ => by rw [onward.staged]; rfl]
  exact onward.workspace

end Pass

section Follow

variable {astray : String → Prop} {tools : Toolchain} {specifier : Specifier} {base : Workspace} {first : Pass}
  {touched : List Specifier} {last : Pass} {middle after : Workspace}
  (follows : FollowsStock astray tools specifier base first touched last middle after)
  (stocks : Stocks astray .clear base)

include follows

theorem FollowsStock.get?_self : after.graph.get? specifier = middle.graph.get? specifier :=
  follows.repaired.steps.get?_other fun member => ((mem_affected follows.stocks.indexed).1 member).1 rfl

theorem FollowsStock.get?_of_touched (stays : middle = last.workspace) {other : Specifier}
    (member : other ∈ touched) : ∃ record, after.graph.get? other = some record := by
  obtain ⟨report, -, settles⟩ := follows.settles
  subst stays
  obtain ⟨record, found⟩ : ∃ record, first.workspace.graph.get? other = some record := by
    cases follows.turns.turned other (List.mem_reverse.2 member) with
    | failed _ found => exact ⟨_, found⟩
    | left _ found => exact ⟨_, found⟩
    | ample _ found => exact ⟨_, found⟩
  obtain ⟨_, found', -⟩ := settles.revises.get?_of_get? found
  obtain ⟨new, found'', -⟩ := follows.repaired.steps.revises.get?_of_get? found'
  exact ⟨new, found''⟩

include stocks

/-- A module that did not fail when its source was followed waits with the hash of its source, and what it imports
was visited. -/
theorem FollowsStock.compiled_anew {record : ModuleRecord}
    (found : first.workspace.graph.get? specifier = some record) (compiled : record.isExternal = false)
    (clear : first.errors.get? specifier = none) :
    ∃ source, tools.sources.load specifier = .ok source ∧ source.kind.isSupported = true ∧
      record.sourceHash = sourceHash source.bytes ∧ record.isReady = false ∧
      ∀ edge ∈ record.dependencies, edge.target ∈ touched := by
  obtain ⟨-, passes⟩ := visitAll_first stocks.keyed follows.visited
  have visits := visit_forced tools stocks.inOrder stocks.indexed specifier
  have next := @visitAll_of_fresh tools { forceRefresh := true } [] specifier List.not_mem_nil
    { workspace := base } true []
  rw [follows.visited] at next
  generalize Pass.visit tools { forceRefresh := true } { workspace := base } specifier true = result
    at passes visits next
  obtain ⟨opened, targets⟩ := result
  dsimp only at passes visits next
  obtain ⟨new, there, visits⟩ := visits.resolve_left fun ⟨error, failed⟩ => by
    cases clear.symm.trans (passes.errors.trans failed)
  -- the module was not left alone, since it is not now
  have kept : first.workspace.graph.get? specifier = some new := by
    cases passes.record with
    | same kept => exact kept.trans there
    | created absent => cases absent.symm.trans there
    | external _ left =>
      obtain rfl := Option.some.inj (left.symm.trans found)
      cases compiled
  obtain rfl := Option.some.inj (found.symm.trans kept)
  obtain ⟨source, load, supported, same, unready, rfl⟩ := visits.resolve_left fun left => by
    cases compiled.symm.trans left
  refine ⟨source, load, supported, same, unready, fun edge inside => ?_⟩
  have present : (tools.sources.get? specifier).isSome = true := by
    cases entry : tools.sources.get? specifier with
    | some _ => rfl
    | none => simp [SourceTree.load, entry] at load
  rw [if_pos present, List.append_nil] at next
  have whole := congrArg Prod.snd next
  dsimp only at whole
  rw [whole]
  refine mem_visitAll tools _ _ _ _ (.inr ⟨false, List.mem_map.2 ⟨edge.target, ?_, rfl⟩⟩)
  exact (mem_distinctTargets _ _).2 ⟨edge, inside, rfl⟩

/-- A module that was compiled because its source was followed is up to date, and what it imports was
visited. -/
theorem FollowsStock.upToDate (stays : middle = last.workspace) {modules : Specifier → Prop}
    (distinct : DigestsDistinct modules)
    (within : ∀ {other record}, after.graph.get? other = some record → modules other) {record : ModuleRecord}
    (found : after.graph.get? specifier = some record) (compiled : record.isExternal = false)
    (clear : first.errors.get? specifier = none) :
    ∃ source, UpToDate tools after record source ∧ ∀ edge ∈ record.dependencies, edge.target ∈ touched := by
  have touches {other : Specifier} (member : other ∈ touched) := follows.get?_of_touched stays member
  obtain ⟨report, -, settles⟩ := follows.settles
  subst stays
  have indexed := follows.stocks.indexed
  have revises := follows.repaired.steps.revises
  have there : last.workspace.graph.get? specifier = some record := follows.get?_self.symm.trans found
  obtain ⟨old, found', revises'⟩ := settles.revises.of_get? there
  obtain ⟨source, load, supported, same, unready, among⟩ :=
    follows.compiled_anew stocks found' (revises'.isExternal.symm.trans compiled) clear
  rw [← revises'.dependencies] at among
  obtain rfl := follows.repaired.stocks.indexed.keyed found
  obtain ⟨member, -⟩ := visitAll_first stocks.keyed follows.visited
  refine ⟨source, ?_, among⟩
  cases settles.settled record.specifier member with
  | failed errors => cases clear.symm.trans errors
  | left _ found'' left =>
    obtain rfl := Option.some.inj (found'.symm.trans found'')
    cases compiled.symm.trans (revises'.isExternal.trans left)
  | current _ found'' ready =>
    obtain rfl := Option.some.inj (found'.symm.trans found'')
    cases unready.symm.trans ready
  | refreshed _ there'' ready _ entry consistent =>
    obtain rfl := Option.some.inj (there.symm.trans there'')
    exact
      { found, load, supported, compiled, ready
        same := revises'.sourceHash.trans same
        entry := entry.trans (revises.isDynamicEntry _).symm
        consistent := follows.repaired.steps.consistent_other distinct
          (follows.repaired.within indexed within) (within found)
          (fun member => ((mem_affected indexed).1 member).1 rfl) consistent
        filed := (follows.repaired.stocks.record found).filed
        recorded := fun edge inside => touches (among edge inside) }

variable (spares : ∀ specifier, tools.SparesItself specifier) {modules : Specifier → Prop}
  (distinct : DigestsDistinct modules)
  (within : ∀ {other record}, after.graph.get? other = some record → modules other)

include spares distinct within

/-- Once a source was followed, and its module was not taken out, another pass over it changes nothing. -/
theorem FollowsStock.pass_again (stays : middle = last.workspace) :
    ∃ again met, visitAll tools { forceRefresh := true } [] { workspace := after } [(specifier, true)] =
        (again, met) ∧ SameAs after (settleAll again {} met).1.workspace := by
  have stocks' := follows.repaired.stocks
  obtain ⟨member, -⟩ := visitAll_first stocks.keyed follows.visited
  cases errors : first.errors.get? specifier with
  | some error =>
    have refused := follows.refused stocks spares distinct within stays errors
    obtain ⟨again, visit, onward, errors'⟩ := @visit_of_refused tools { forceRefresh := true }
      { workspace := after } specifier stocks'.inOrder stocks'.keyed error refused true
    exact ⟨again, _, settleAll_single visit onward (.inl (errors' ▸ Option.some_ne_none _))⟩
  | none =>
    have quiet := follows.isQuiet stays member errors
    obtain ⟨record, found, -⟩ := id quiet
    cases compiled : record.isExternal with
    | true =>
      have idle : ¬ ({ workspace := after } : Pass).IsDue specifier true := by simp [IsDue, found, compiled]
      exact ⟨_, _, settleAll_single (visit_of_idle { forceRefresh := true } idle found) (.refl _) (.inr quiet)⟩
    | false =>
      obtain ⟨source, upToDate, among⟩ := follows.upToDate stocks stays distinct within found compiled errors
      obtain rfl := stocks'.indexed.keyed found
      exact upToDate.pass stocks'.inOrder stocks'.indexed stocks'.hasTokens
        fun edge inside => .inr (follows.rested stocks spares distinct within stays (among edge inside))

end Follow

/-- Two workspaces are the same, but for a module that has no source and that others import: it may have got a
record, or have lost it. -/
structure SameButMissing (tools : Toolchain) (specifier : Specifier) (once twice : Workspace) : Prop where
  others : ∀ other, other ≠ specifier → twice.graph.get? other = once.graph.get? other
  blobs : ∀ key, twice.store.blobs.get? key = once.store.blobs.get? key
  sidecars : ∀ other, twice.store.sidecars.get? other = once.store.sidecars.get? other
  own : twice.graph.get? specifier = once.graph.get? specifier ∨
    tools.sources.get? specifier = none ∧ once.graph.dependents specifier ≠ [] ∧
      (twice.graph.get? specifier).isSome = !(once.graph.get? specifier).isSome

theorem Workspace.SameAs.sameButMissing {once twice : Workspace} (same : SameAs once twice) (tools : Toolchain)
    (specifier : Specifier) : SameButMissing tools specifier once twice where
  others _ _ := by rw [same.graph]
  blobs _ := by rw [same.contents.blobs]
  sidecars _ := by rw [same.contents.sidecars]
  own := .inl (by rw [same.graph])

namespace FollowsStock

variable {astray stray : String → Prop} {tools : Toolchain} {specifier : Specifier} {base : Workspace}
  {first again : Pass} {touched met : List Specifier} {last settled : Pass}
  {middle after between later : Workspace}
  (follows : FollowsStock astray tools specifier base first touched last middle after)
  (follows' : FollowsStock stray tools specifier after again met settled between later)

include follows

theorem clear_of_external {record : ModuleRecord} (found : base.graph.get? specifier = some record)
    (left : record.isExternal = true) : first.errors.get? specifier = none := by
  have idle : ¬ ({ workspace := base } : Pass).IsDue specifier true := by simp [IsDue, found, left]
  have visited := visitAll_single (@visit_of_idle tools { forceRefresh := true } _ _ _ idle record found)
  rw [← (Prod.mk.inj (visited.symm.trans follows.visited)).1]
  rfl

theorem unknown_of_stays (keyed : base.graph.Keyed) (missing : tools.sources.get? specifier = none)
    (failed : first.errors.get? specifier ≠ none) (stays : ¬ IsTakenOut base first specifier) :
    base.graph.get? specifier = none := by
  cases known : base.graph.get? specifier with
  | none => rfl
  | some old =>
    exfalso
    have due : (base.graph.get? specifier).any (·.isExternal) = false := by
      cases left : old.isExternal with
      | true => exact absurd (follows.clear_of_external known left) failed
      | false => simp [known, left]
    obtain ⟨rfl, -⟩ := follows.looksInVain_of_missing missing keyed due
    exact stays ⟨⟨old, known⟩, _, errors_looksInVain _ specifier, rfl⟩

/-- A module that was not known and has no source gets a record of that. Its importers keep their edges. -/
theorem of_absent (absent : base.graph.get? specifier = none) (indexed : base.graph.Indexed)
    (missing : tools.sources.get? specifier = none) :
    (∃ reason, after.graph.get? specifier = some ((ModuleRecord.awaiting specifier).failed reason)) ∧
      after.graph.dependents specifier ≠ [] := by
  obtain ⟨rfl, rfl⟩ := follows.looksInVain_of_missing missing (fun _ _ => indexed.keyed) (by rw [absent]; rfl)
  obtain ⟨report, -, settles⟩ := follows.settles
  have errors := errors_looksInVain { workspace := base } specifier
  obtain rfl : middle = last.workspace := (follows.out.resolve_left fun out => by
    obtain ⟨⟨⟨record, found⟩, -⟩, -⟩ := out
    cases absent.symm.trans found).2
  have looked := get?_looksInVain { workspace := base } specifier
  have own := (looked specifier).trans (if_pos rfl)
  dsimp only at own
  rw [absent, Option.getD_none] at own
  refine ⟨⟨_, (follows.get?_self.trans (settles.get?_of_error List.mem_cons_self errors)).trans own⟩, ?_⟩
  · have used := follows.used.resolve_left fun ⟨record, found⟩ => by cases absent.symm.trans found
    obtain ⟨importer, member⟩ := List.exists_mem_of_ne_nil _ used
    have imports := (mem_dependents indexed).1 member
    have differ : importer ≠ specifier := by
      rintro rfl
      obtain ⟨record, found⟩ := imports.get?
      cases absent.symm.trans found
    have same : after.graph.dependencies importer = base.graph.dependencies importer := by
      rw [follows.repaired.steps.revises.dependencies, settles.revises.dependencies]
      exact dependencies_congr ((looked importer).trans (if_neg (Ne.symm differ)))
    exact List.ne_nil_of_mem ((mem_dependents follows.repaired.stocks.indexed).2
      ((imports_congr specifier same).2 imports))

include follows'

/-- A module that was taken out gets a record when its source is looked for once more. -/
theorem again_of_absent (absent : after.graph.get? specifier = none)
    (missing : tools.sources.get? specifier = none) : SameButMissing tools specifier after later := by
  have stocks' := follows.repaired.stocks
  obtain ⟨rfl, rfl⟩ := follows'.looksInVain_of_missing missing stocks'.keyed (by rw [absent]; rfl)
  obtain ⟨report, settling, -⟩ := follows'.settles
  have errors := errors_looksInVain { workspace := after } specifier
  obtain rfl : looksInVain { workspace := after } specifier = settled := by
    have idle := congrArg Prod.fst (settleOne_failed errors {})
    exact idle.symm.trans (congrArg Prod.fst settling)
  obtain rfl : between = (looksInVain { workspace := after } specifier).workspace :=
    (follows'.out.resolve_left fun out => by
      obtain ⟨⟨⟨record, found⟩, -⟩, -⟩ := out
      cases absent.symm.trans found).2
  have looked := get?_looksInVain { workspace := after } specifier
  have own := (looked specifier).trans (if_pos rfl)
  have others (other : Specifier) (differ : other ≠ specifier) := (looked other).trans (if_neg (Ne.symm differ))
  have same := follows.repaired.propagate_again follows.stocks.indexed follows'.stocks others ?_ ?_ fun _ => rfl
  · rw [← follows'.repair] at same
    refine ⟨fun other differ => ?_, fun key => ?_, fun other => ?_, .inr ⟨missing, ?_, ?_⟩⟩
    · rw [same.graph]
      exact others other differ
    · rw [same.contents.blobs]
      rfl
    · rw [same.contents.sidecars]
      rfl
    · exact follows'.used.resolve_left fun ⟨record, found⟩ => by cases absent.symm.trans found
    · rw [same.graph, own, absent]
      rfl
  · simp [foldView?, own, absent, ModuleRecord.failed, ModuleRecord.folds, ModuleRecord.awaiting]
  · rw [dependencies_of_get? own, dependencies_of_get?_eq_none absent]
    rfl

/-- A module that has no source and no more than a record of that is taken out when its source is looked for
once more. -/
theorem again_of_awaiting {reason : String}
    (found : after.graph.get? specifier = some ((ModuleRecord.awaiting specifier).failed reason))
    (missing : tools.sources.get? specifier = none) (imported : after.graph.dependents specifier ≠ [])
    (same : SameAs after settled.workspace) (out : between = settled.workspace.remove specifier) :
    SameButMissing tools specifier after later := by
  have stocks' := follows.repaired.stocks
  subst out
  have bare : after.store.sidecars.get? specifier = none := by
    by_contra noted
    obtain ⟨sidecar, noted⟩ := Option.ne_none_iff_exists'.1 noted
    obtain ⟨record, there, -, loaded, -⟩ := (stocks'.sidecar noted).record
    obtain rfl := Option.some.inj (found.symm.trans there)
    exact loaded rfl
  have removed := remove_eq (same.contents.setup.faults.trans stocks'.inOrder) (same.graph ▸ found) rfl
  have gone : (settled.workspace.remove specifier).graph.get? specifier = none :=
    (get?_remove _ _ _).trans (if_pos rfl)
  have others (other : Specifier) (differ : other ≠ specifier) :
      (settled.workspace.remove specifier).graph.get? other = after.graph.get? other := by
    rw [get?_remove_other _ differ, same.graph]
  have blobs (key : String) : (settled.workspace.remove specifier).store.blobs.get? key =
      after.store.blobs.get? key := by
    rw [removed]
    exact congrArg (·.get? key) same.contents.blobs
  have still := follows.repaired.propagate_again follows.stocks.indexed follows'.stocks others ?_ ?_ blobs
  · rw [← follows'.repair] at still
    refine ⟨fun other differ => ?_, fun key => ?_, fun other => ?_, .inr ⟨missing, imported, ?_⟩⟩
    · rw [still.graph, others other differ]
    · rw [still.contents.blobs, blobs]
    · rw [still.contents.sidecars, removed]
      refine (OrderedMap.get?_erase _ _ _).trans ?_
      rw [same.contents.sidecars]
      split
      · next equal => rw [← equal, bare]
      · rfl
    · rw [still.graph, gone, found]
      rfl
  · simp [foldView?, gone, found, ModuleRecord.failed, ModuleRecord.folds, ModuleRecord.awaiting]
  · rw [dependencies_of_get? found, dependencies_of_get?_eq_none gone]
    rfl

end FollowsStock

section Repeat

variable {modules : Specifier → Prop} (distinct : DigestsDistinct modules) {astray : String → Prop}
  {base : Workspace} (stocks : Stocks astray .clear base) {tools : Toolchain}
  (spares : ∀ specifier, tools.SparesItself specifier) (specifier : Specifier)
  (within : ∀ {other record}, base.graph.get? other = some record ∨
    (base.sourceChanged tools specifier).2.graph.get? other = some record ∨
    ((base.sourceChanged tools specifier).2.sourceChanged tools specifier).2.graph.get? other = some record →
      modules other)

include distinct stocks spares within

/-- Following a source twice is as good as following it once, unless it is missing. -/
theorem sameButMissing_sourceChanged : SameButMissing tools specifier (base.sourceChanged tools specifier).2
    ((base.sourceChanged tools specifier).2.sourceChanged tools specifier).2 := by
  have one := followsStock distinct stocks tools specifier fun there => within (there.imp_right .inl)
  rcases one with ⟨same, -⟩ | ⟨first, touched, last, middle, follows⟩
  · rw [same, same]
    exact (SameAs.refl base).sameButMissing tools specifier
  have two := followsStock distinct follows.repaired.stocks tools specifier fun there => within (.inr there)
  rcases two with ⟨same, -⟩ | ⟨again, met, settled, between, follows'⟩
  · rw [same]
    exact (SameAs.refl _).sameButMissing tools specifier
  generalize (base.sourceChanged tools specifier).2 = after at within follows follows' ⊢
  generalize (after.sourceChanged tools specifier).2 = later at within follows' ⊢
  have gone {first : Pass} {base : Workspace} (refuses : RefusesAgain tools base.store first)
      (out : IsTakenOut base first specifier) : tools.sources.get? specifier = none := by
    obtain ⟨-, error, errors, gone⟩ := out
    rcases (refuses specifier error errors).fails with ⟨-, fails⟩ | ⟨cause, -, rfl⟩
    · exact Toolchain.sources_of_isNotFound fails gone
    · cases gone
  -- three ways: taken out at first, only when followed again, or not at all
  rcases follows.out with ⟨out, rfl⟩ | ⟨stays, rfl⟩
  · refine follows.again_of_absent follows' ?_ (gone (follows.refusesAgain stocks spares) out)
    exact follows.get?_self.trans ((get?_remove _ _ _).trans (if_pos rfl))
  obtain ⟨again', met', visited, same⟩ := follows.pass_again stocks spares distinct
    (fun there => within (.inr (.inl there))) rfl
  obtain ⟨rfl, rfl⟩ := Prod.mk.inj (visited.symm.trans follows'.visited)
  obtain ⟨report, settling, -⟩ := follows'.settles
  rw [settling] at same
  rcases follows'.out with ⟨out, rfl⟩ | ⟨-, rfl⟩
  · have missing := gone (follows'.refusesAgain follows.repaired.stocks spares) out
    obtain ⟨⟨record, found⟩, error', errors', -⟩ := out
    have compiled : record.isExternal = false := by
      cases left : record.isExternal with
      | true => cases (follows'.clear_of_external found left).symm.trans errors'
      | false => rfl
    have failed : first.errors.get? specifier ≠ none := fun clear => by
      obtain ⟨source, upToDate, -⟩ := follows.upToDate stocks rfl distinct
        (fun there => within (.inr (.inl there))) found compiled clear
      obtain rfl := follows.repaired.stocks.indexed.keyed found
      simpa [SourceTree.load, missing] using upToDate.load
    have absent := follows.unknown_of_stays stocks.keyed missing failed stays
    obtain ⟨⟨reason, located⟩, imported⟩ := follows.of_absent absent stocks.indexed missing
    exact follows.again_of_awaiting follows' located missing imported same rfl
  · have still := follows.repaired.propagate_again follows.stocks.indexed follows'.stocks
      (fun other _ => by rw [same.graph]) (by rw [same.graph]) (by rw [same.graph])
      fun key => by rw [same.contents.blobs]
    rw [← follows'.repair] at still
    exact (same.trans still).sameButMissing tools specifier

end Repeat

/-- Let sources be edited and a compiler be asked to do anything, and then let it follow one source twice. The
second time no blob, no sidecar and no record changes, but that a module which has no source and is imported
gets a record if it has none, and loses it if it has one. -/
theorem sourceChanged_twice (workspace : Workspace) (blank : workspace.IsBlank)
    (calls : List (Toolchain × Call)) (tools : Toolchain) (specifier : Specifier) (spares : ∀ other, tools.SparesItself other)
    (distinct : DigestsDistinct
      (Met workspace (calls ++ [(tools, .notice specifier), (tools, .notice specifier)]))) :
    let once := ((workspace.performAll calls).sourceChanged tools specifier).2
    let twice := (once.sourceChanged tools specifier).2
    (∀ other, other ≠ specifier → twice.graph.get? other = once.graph.get? other) ∧
      (∀ key, twice.store.blobs.get? key = once.store.blobs.get? key) ∧
      (∀ other, twice.store.sidecars.get? other = once.store.sidecars.get? other) ∧
      (twice.graph.get? specifier = once.graph.get? specifier ∨
        tools.sources.get? specifier = none ∧ once.graph.dependents specifier ≠ [] ∧
          (twice.graph.get? specifier).isSome = !(once.graph.get? specifier).isSome) := by
  have same := sameButMissing_sourceChanged distinct
    (blank.stocks_performAll distinct calls (List.prefix_append _ _)) spares specifier fun there => met_then there
  exact ⟨same.others, same.blobs, same.sidecars, same.own⟩

section Fork

theorem Toolchain.sparesItself_of_no_rules {tools : Toolchain} (bare : tools.resolver.rules = [])
    (specifier : Specifier) : tools.SparesItself specifier := by
  have compiled (importer : Specifier) (imports : List FoundImport) :
      ∀ item ∈ (resolveImports tools.resolver importer imports).1, item.2.isExternal = false := by
    induction imports with
    | nil => exact nofun
    | cons found rest ih =>
      intro item member
      unfold resolveImports at member
      cases resolved : tools.resolver.resolve (some importer) found.written with
      | error error => simp [resolved] at member
      | ok result =>
        simp only [resolved, List.mem_cons] at member
        rcases member with rfl | later
        · simp only [Resolver.resolve, bare, List.find?_nil] at resolved
          split at resolved
          · exact (Except.ok.inj resolved) ▸ rfl
          · cases resolved
        · exact ih item later
  intro item member left
  unfold resolutions at member
  split at member
  · cases member
  · cases (compiled specifier _ item member).symm.trans left

/-- The third module of the fork is deleted, and its importers stay as they are however often that is
followed. -/
theorem sourceChanged_twice_fork :
    let base := ({} : Workspace).performAll [(grownFork, .compile forkRoots {})]
    let once := (base.sourceChanged fork ⟨"app:d"⟩).2
    let twice := (once.sourceChanged fork ⟨"app:d"⟩).2
    (∀ other, other ≠ ⟨"app:d"⟩ → twice.graph.get? other = once.graph.get? other) ∧
      (∀ key, twice.store.blobs.get? key = once.store.blobs.get? key) ∧
      (∀ other, twice.store.sidecars.get? other = once.store.sidecars.get? other) := by
  intro base once twice
  have distinct := @distinct_met_fork
    [(grownFork, .compile forkRoots {}), (fork, .notice ⟨"app:d"⟩), (fork, .notice ⟨"app:d"⟩)]
    (by simp [IsForkVersion]) (by simp [Call.roots])
  obtain ⟨others, blobs, sidecars, -⟩ := sourceChanged_twice {} ⟨rfl, rfl, rfl, rfl⟩
    [(grownFork, .compile forkRoots {})] fork ⟨"app:d"⟩ (fork.sparesItself_of_no_rules rfl) distinct
  exact ⟨others, blobs, sidecars⟩

/-- The third module of the fork is taken out when its deletion is followed, and is there again, without a
source, when that is followed once more. -/
theorem deleted_module_comes_and_goes :
    let base := ({} : Workspace).performAll [(grownFork, .compile forkRoots {})]
    let once := (base.sourceChanged fork ⟨"app:d"⟩).2
    let twice := (once.sourceChanged fork ⟨"app:d"⟩).2
    once.graph.get? ⟨"app:d"⟩ = none ∧ ∃ record, twice.graph.get? ⟨"app:d"⟩ = some record := by
  intro base once twice
  have distinct : DigestsDistinct (Met {} ([(grownFork, .compile forkRoots {})] ++
      [(fork, .notice ⟨"app:d"⟩), (fork, .notice ⟨"app:d"⟩)])) :=
    distinct_met_fork (by simp [IsForkVersion]) (by simp [Call.roots])
  have blank : ({} : Workspace).IsBlank := ⟨rfl, rfl, rfl, rfl⟩
  have missing : fork.sources.get? ⟨"app:d"⟩ = none := by decide
  obtain ⟨⟨record, found, compiled, -⟩, imports⟩ := compileAll_grownFork
  have stocks := blank.stocks_performAll distinct _ (List.prefix_append _ _)
  have stocks' : Stocks _ .clear once := blank.stocks_then distinct
  obtain ⟨absent, -, dependencies⟩ := sourceChanged_gone distinct stocks
    (fun there => met_then (there.imp_right .inl)) found compiled missing
  have used : once.graph.dependents ⟨"app:d"⟩ ≠ [] := by
    have imports' : once.graph.Imports ⟨"app:a"⟩ ⟨"app:d"⟩ :=
      (imports_congr _ (dependencies ⟨"app:a"⟩ (by decide))).2 imports
    exact List.ne_nil_of_mem ((mem_dependents stocks'.indexed).2 imports')
  refine ⟨absent, ?_⟩
  rcases followsStock distinct stocks' fork ⟨"app:d"⟩ fun there => met_then (.inr there) with
    ⟨-, -, unused⟩ | ⟨_, _, _, _, follows⟩
  · exact absurd unused used
  · obtain ⟨⟨reason, there⟩, -⟩ := follows.of_absent absent stocks'.indexed missing
    exact ⟨_, there⟩

end Fork

end ModuleBuild
