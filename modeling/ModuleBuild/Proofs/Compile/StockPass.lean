import ModuleBuild.Proofs.Compile.StockTurns
import ModuleBuild.Proofs.Compile.ServicePass
/-!
The second half of a pass over a workspace whose store is accounted for. What had its turn is settled without
a failure, each module with no effect on the others, and at the end nothing waits.
-/

namespace ModuleBuild

open ModuleGraph Workspace ArtifactStore

namespace Pass

theorem ample_withEntry {store : ArtifactStore} {staged? : Option Bytes} {record : ModuleRecord}
    (ample : Ample store staged? record) (isEntry : Bool) :
    Ample store staged? (record.withEntry isEntry) :=
  ⟨ample.compiled, ample.hex, ample.filed, ample.code⟩

structure SettlesAlone (specifier : Specifier) (before after : Pass) : Prop where
  alters : Alters specifier before.workspace after.workspace
  others : ∀ other, other ≠ specifier →
    after.workspace.graph.get? other = before.workspace.graph.get? other
  revises : before.workspace.graph.Revises after.workspace.graph
  staged : after.staged = before.staged
  errors : after.errors = before.errors

theorem settlesAlone_refl {pass : Pass} (indexed : pass.workspace.graph.Indexed) (specifier : Specifier) :
    SettlesAlone specifier pass pass where
  alters := ⟨.refl _, indexed, fun _ _ => .same rfl, fun _ _ _ _ _ => rfl, fun _ _ => rfl⟩
  others _ _ := rfl
  revises := .refl _
  staged := rfl
  errors := rfl

theorem settlesAlone_enter {pass : Pass} (indexed : pass.workspace.graph.Indexed) (specifier : Specifier) :
    SettlesAlone specifier pass (pass.enter specifier) :=
  have revises := revises_updateEntryFlag pass.workspace.graph specifier
  have others (other : Specifier) (differ : other ≠ specifier) :=
    get?_enter_other pass differ
  { alters := ⟨.refl _, revises.indexed indexed, fun other differ => .same (others other differ),
      fun _ _ _ _ _ => rfl, fun _ _ => rfl⟩
    others
    revises
    staged := rfl
    errors := rfl }

inductive SettledTo (first : Pass) (last : Workspace) (specifier : Specifier) : Prop
  | failed {error : ModuleError} (errors : first.errors.get? specifier = some error)
    (same : last.graph.get? specifier = first.workspace.graph.get? specifier)
  | left {record : ModuleRecord} (clear : first.errors.get? specifier = none)
    (found : first.workspace.graph.get? specifier = some record) (left : record.isExternal = true)
    (there : last.graph.get? specifier =
      some (record.withEntry (last.graph.isDynamicEntry specifier)))
  | current {record : ModuleRecord} (clear : first.errors.get? specifier = none)
    (found : first.workspace.graph.get? specifier = some record) (ready : record.isReady = true)
    (there : last.graph.get? specifier =
      some (record.withEntry (last.graph.isDynamicEntry specifier)))
    (settled : last.graph.isSettled specifier = true)
  | refreshed {result : ModuleRecord} (clear : first.errors.get? specifier = none)
    (there : last.graph.get? specifier = some result) (ready : result.isReady = true)
    (compiled : result.isExternal = false)
    (entry : result.flags.isDynamicEntryOnly = last.graph.isDynamicEntry specifier)
    (consistent : Consistent last.graph last.store result)

theorem isSettled_congr {first second : ModuleGraph} (revises : first.Revises second) {specifier : Specifier}
    (same : second.get? specifier = first.get? specifier) :
    second.isSettled specifier = first.isSettled specifier := by
  simp only [isSettled, same]
  cases first.get? specifier with
  | none => rfl
  | some record => simp only [isCurrent, revises.contentHash?]

namespace SettledTo

variable {first middle : Pass} {before after : Workspace} {specifier : Specifier}

theorem later (settled : SettledTo first before specifier) (indexed : before.graph.Indexed)
    (revises : before.graph.Revises after.graph)
    (same : after.graph.get? specifier = before.graph.get? specifier)
    (own : ∀ record, before.graph.get? specifier = some record →
      before.store.SameOwn after.store specifier) : SettledTo first after specifier := by
  have entry := revises.isDynamicEntry specifier
  cases settled with
  | failed errors same' => exact .failed errors (same.trans same')
  | left clear found left there => exact .left clear found left (by rw [same, entry, there])
  | current clear found ready there settled =>
    exact .current clear found ready (by rw [same, entry, there])
      ((isSettled_congr revises same).trans settled)
  | refreshed clear there ready compiled entry' consistent =>
    obtain rfl := indexed.keyed there
    exact .refreshed clear (same.trans there) ready compiled (entry'.trans entry.symm)
      (consistent.congr (revises.contentHash? _) (fun _ _ _ => revises.contentHash? _) (own _ there).blobs)

theorem earlier (settled : SettledTo middle after specifier)
    (same : middle.workspace.graph.get? specifier = first.workspace.graph.get? specifier)
    (errors : middle.errors = first.errors) : SettledTo first after specifier := by
  cases settled with
  | failed failed same' => exact .failed (errors ▸ failed) (same'.trans same)
  | left clear found left there => exact .left (errors ▸ clear) (same ▸ found) left there
  | current clear found ready there settled =>
    exact .current (errors ▸ clear) (same ▸ found) ready there settled
  | refreshed clear there ready compiled entry consistent =>
    exact .refreshed (errors ▸ clear) there ready compiled entry consistent

end SettledTo

theorem TurnsOut.settlesAlone {before after : Pass} {specifier other : Specifier}
    (turns : TurnsOut before specifier) (alone : SettlesAlone other before after)
    (indexed : before.workspace.graph.Indexed) (differ : specifier ≠ other) : TurnsOut after specifier := by
  have same := alone.others specifier differ
  have errors : after.errors.get? specifier = before.errors.get? specifier := by rw [alone.errors]
  cases turns with
  | failed failed found errored bare hex =>
    exact .failed (errors.trans failed) (same.trans found) errored bare hex
  | left clear found left bare hex => exact .left (errors.trans clear) (same.trans found) left bare hex
  | ample clear found ample =>
    obtain rfl := indexed.keyed found
    refine .ample (errors.trans clear) (same.trans found) ?_
    rw [alone.staged]
    exact ample.congr (alone.alters.blobs _ _ found differ)

/-- A module gets a note in its record, and no longer waits. -/
theorem stocks_noted {astray : String → Prop} {backlog later : Backlog} {first second : Workspace}
    (stocks : Stocks astray backlog first) {specifier : Specifier} {record : ModuleRecord} {isEntry : Bool}
    (alters : Alters specifier first second) (contents : SameContents first.store second.store)
    (found : first.graph.get? specifier = some record)
    (there : second.graph.get? specifier = some (record.withEntry isEntry))
    (same : ∀ other, other ≠ specifier → later other = backlog other)
    (stocked : Stocked second.store (later specifier) (record.withEntry isEntry)) :
    Stocks astray later second := by
  refine stocks.alter alters same (fun new there' => ?_) (fun sidecar noted => ?_)
    (fun key code stored => ?_) fun _ => id
  · exact Option.some.inj (there.symm.trans there') ▸ stocked
  · rw [contents.sidecars] at noted
    obtain ⟨⟨output, hash, code, own, key, stored, rest⟩, old, found', own'⟩ := stocks.sidecar noted
    obtain rfl := Option.some.inj (found.symm.trans found')
    exact ⟨⟨output, hash, code, own, key, by rw [contents.blobs, stored], rest⟩, _, there, own'⟩
  · rw [contents.blobs] at stored
    by_cases refers : first.graph.RefersTo specifier key
    · obtain ⟨old, output, found', own, equal⟩ := refers
      obtain rfl := Option.some.inj (found.symm.trans found')
      exact .inl ⟨_, output, there, own, equal⟩
    · exact .inr (.inr ⟨⟨code, stored⟩, refers⟩)

section SettleOne

variable {modules : Specifier → Prop} (distinct : DigestsDistinct modules) {astray : String → Prop}
  {pass : Pass} {specifier : Specifier} {rest : List Specifier}
  (within : ∀ {other record}, pass.workspace.graph.get? other = some record → modules other)
  (stocks : Stocks astray (pass.backlog (specifier :: rest)) pass.workspace) (fresh : specifier ∉ rest)

structure SettlesStock (astray : String → Prop) (specifier : Specifier) (rest : List Specifier)
    (before after : Pass) (first second : PassReport) : Prop where
  stocks : Stocks astray (after.backlog rest) after.workspace
  alone : SettlesAlone specifier before after
  settled : SettledTo before after.workspace specifier
  changed : ∀ other ∈ second.changed, other ∈ first.changed ∨
    other = specifier ∧ before.errors.get? specifier = none
  idle : before.errors.get? specifier ≠ none → after = before

include stocks fresh

theorem stocks_enter {record : ModuleRecord} (found : pass.workspace.graph.get? specifier = some record)
    (stocked : Stocked pass.workspace.store none record) :
    Stocks astray ((pass.enter specifier).backlog rest) (pass.enter specifier).workspace := by
  obtain ⟨done, same⟩ := backlog_rest fresh pass
  have there := get?_enter_of_get? found
  refine stocks_noted stocks (settlesAlone_enter stocks.indexed specifier).alters (.refl _) found there same ?_
  have waits : (pass.enter specifier).backlog rest specifier = none := done
  rw [waits]
  cases stocked with
  | left left bare hex => exact .left left bare hex
  | bare compiled unready bare hex => exact .bare compiled unready bare hex
  | ample ample settled => exact .ample (ample_withEntry ample _) settled

theorem settlesStock_failed {error : ModuleError} (errors : pass.errors.get? specifier = some error)
    {record : ModuleRecord} (found : pass.workspace.graph.get? specifier = some record)
    (stocked : Stocked pass.workspace.store none record) (report : PassReport) :
    let (after, report') := pass.settleOne report specifier
    SettlesStock astray specifier rest pass after report report' := by
  obtain ⟨done, same⟩ := backlog_rest fresh pass
  have alone := settlesAlone_refl stocks.indexed specifier
  rw [settleOne_failed errors]
  refine ⟨stocks_noted stocks alone.alters (.refl _) found found same ?_, alone, .failed errors rfl,
    fun _ => .inl, fun _ => rfl⟩
  rw [done]
  exact stocked

theorem settlesStock_left {record : ModuleRecord} (clear : pass.errors.get? specifier = none)
    (found : pass.workspace.graph.get? specifier = some record) (left : record.isExternal = true)
    (stocked : Stocked pass.workspace.store none record) (report : PassReport) :
    let (after, report') := pass.settleOne report specifier
    SettlesStock astray specifier rest pass after report report' := by
  have alone := settlesAlone_enter stocks.indexed specifier
  have there := get?_enter_of_get? found
  have idle : (pass.enter specifier).workspace.graph.foldView? specifier = none := by
    simp [foldView?, there, ModuleRecord.folds, ModuleRecord.withEntry, left]
  have settles (report' : PassReport) (same : report'.changed = report.changed) :
      SettlesStock astray specifier rest pass (pass.enter specifier) report report' :=
    ⟨stocks_enter stocks fresh found stocked, alone,
      .left clear found left (by rw [alone.revises.isDynamicEntry, there]), fun _ => same ▸ .inl,
      (absurd clear ·)⟩
  rw [settleOne_of_clear clear]
  simp only [refresh_idle idle]
  split
  · exact settles _ rfl
  · exact settles _ rfl

theorem settlesStock_current {record : ModuleRecord} (clear : pass.errors.get? specifier = none)
    (found : pass.workspace.graph.get? specifier = some record) (ample : Ample pass.workspace.store none record)
    (settled : ((pass.enter specifier).staged.get? specifier).isNone &&
      (pass.enter specifier).workspace.graph.isSettled specifier) (report : PassReport) :
    let (after, report') := pass.settleOne report specifier
    SettlesStock astray specifier rest pass after report report' := by
  have alone := settlesAlone_enter stocks.indexed specifier
  have there := get?_enter_of_get? found
  have current := (Bool.and_eq_true _ _ ▸ settled).2
  have ready : record.isReady = true := by
    have both := current
    simp only [isSettled, there, Bool.and_eq_true] at both
    exact both.1
  rw [settleOne_of_clear clear]
  simp only [settled, if_true]
  exact ⟨stocks_enter stocks fresh found (.ample ample (.inl ready)), alone,
    .current clear found ready (by rw [alone.revises.isDynamicEntry, there]) current, fun _ => .inl,
    (absurd clear ·)⟩

include distinct within

/-- A module that is not settled yet is refreshed with the code that is at hand. -/
theorem settlesStock_refreshed {record : ModuleRecord} (clear : pass.errors.get? specifier = none)
    (found : pass.workspace.graph.get? specifier = some record)
    (ample : Ample pass.workspace.store (pass.staged.get? specifier) record)
    (stale : ¬ (((pass.enter specifier).staged.get? specifier).isNone &&
      (pass.enter specifier).workspace.graph.isSettled specifier) = true) (report : PassReport) :
    let (after, report') := pass.settleOne report specifier
    SettlesStock astray specifier rest pass after report report' := by
  obtain ⟨done, same⟩ := backlog_rest fresh pass
  have alone := settlesAlone_enter stocks.indexed specifier
  have there := get?_enter_of_get? found
  obtain rfl := stocks.indexed.keyed found
  have ample' := ample_withEntry ample (pass.workspace.graph.isDynamicEntry record.specifier)
  have entered : Stocks astray (pass.backlog (record.specifier :: rest))
      (pass.enter record.specifier).workspace := by
    refine stocks_noted stocks alone.alters (.refl _) found there (fun _ _ => rfl) ?_
    rw [show pass.backlog (record.specifier :: rest) record.specifier =
      some (pass.staged.get? record.specifier) from if_pos List.mem_cons_self]
    exact .ample ample' (.inr rfl)
  have within' {other : Specifier} {new : ModuleRecord}
      (there : (pass.enter record.specifier).workspace.graph.get? other = some new) : modules other := by
    obtain ⟨old, found', -⟩ := alone.revises.of_get? there
    exact within found'
  obtain ⟨refreshed, after, hash, code, refresh, refreshes, -, fit, -, -, settled⟩ :=
    Stocks.refresh distinct within' entered there ample' done same
  have alters := refreshes.alters distinct within' entered there ample'
  have revises := alone.revises.trans (refreshes.revises there)
  have others (other : Specifier) (differ : other ≠ record.specifier) :
      after.graph.get? other = pass.workspace.graph.get? other :=
    (refreshes.get?_other differ).trans (alone.others other differ)
  rw [settleOne_refreshed clear stale refresh]
  refine ⟨settled, ⟨⟨alters.setup, alters.indexed, fun other differ => .same (others other differ),
    fun other old there' differ hash => ?_, fun other differ => alters.sidecars other differ⟩, others,
    revises, rfl, rfl⟩, ?_, fun other member => ?_, (absurd clear ·)⟩
  · exact alters.blobs other old ((alone.others other differ).trans there') differ hash
  · obtain ⟨size, updated, -⟩ := refreshes.updated
    refine .refreshed clear refreshes.get?_self (by rw [updated]; rfl) (by rw [updated]; exact ample.compiled)
      ?_ (refreshes.consistent there fit)
    rw [updated, revises.isDynamicEntry]
    rfl
  · dsimp only at member
    split at member
    · rcases List.mem_append.1 member with old | new
      · exact .inl old
      · exact .inr ⟨List.mem_singleton.1 new, clear⟩
    · exact .inl member

theorem settlesStock_settleOne (turned : TurnsOut pass specifier) (report : PassReport) :
    let (after, report') := pass.settleOne report specifier
    SettlesStock astray specifier rest pass after report report' := by
  cases turned with
  | failed errors found errored bare hex =>
    exact settlesStock_failed stocks fresh errors found (.of_errored errored bare hex) report
  | left clear found left bare hex =>
    exact settlesStock_left stocks fresh clear found left (.left left bare hex) report
  | ample clear found ample =>
    by_cases settled : (((pass.enter specifier).staged.get? specifier).isNone &&
        (pass.enter specifier).workspace.graph.isSettled specifier) = true
    · have unstaged : pass.staged.get? specifier = none := by
        have both := settled
        rw [Bool.and_eq_true, Option.isNone_iff_eq_none] at both
        exact both.1
      exact settlesStock_current stocks fresh clear found (unstaged ▸ ample) settled report
    · exact settlesStock_refreshed distinct within stocks fresh clear found ample settled report

end SettleOne

/-- All that was touched is settled. What is stored of a module that failed stays. -/
structure SettlesStocks (astray : String → Prop) (work : List Specifier) (first last : Pass)
    (earlier later : PassReport) : Prop where
  stocks : Stocks astray .clear last.workspace
  setup : SameSetup first.workspace.store last.workspace.store
  others : ∀ other, other ∉ work →
    last.workspace.graph.get? other = first.workspace.graph.get? other
  revises : first.workspace.graph.Revises last.workspace.graph
  sameOwn : ∀ other record, first.workspace.graph.get? other = some record →
    other ∉ work ∨ first.errors.get? other ≠ none →
      first.workspace.store.SameOwn last.workspace.store other
  errors : last.errors = first.errors
  settled : ∀ specifier ∈ work, SettledTo first last.workspace specifier
  changed : ∀ other ∈ later.changed, other ∈ earlier.changed ∨
    other ∈ work ∧ first.errors.get? other = none

theorem SettlesStock.sameOwn {astray : String → Prop} {specifier : Specifier} {rest : List Specifier}
    {before after : Pass} {first second : PassReport}
    (one : SettlesStock astray specifier rest before after first second) {other : Specifier}
    {record : ModuleRecord} (found : before.workspace.graph.get? other = some record)
    (idle : other ≠ specifier ∨ before.errors.get? other ≠ none) :
    before.workspace.store.SameOwn after.workspace.store other := by
  by_cases same : other = specifier
  · subst same
    rw [one.idle (idle.resolve_left fun differ => differ rfl)]
    exact .refl _ other
  · exact ⟨one.alone.alters.blobs other record found same, one.alone.alters.sidecars other same⟩

theorem settlesStocks_settleAll {modules : Specifier → Prop} (distinct : DigestsDistinct modules)
    {astray : String → Prop} (work : List Specifier) (nodup : work.Nodup) (pass : Pass)
    (within : ∀ {other record}, pass.workspace.graph.get? other = some record → modules other)
    (stocks : Stocks astray (pass.backlog work) pass.workspace)
    (turned : ∀ specifier ∈ work, TurnsOut pass specifier) (report : PassReport) :
    let (last, report') := settleAll pass report work
    SettlesStocks astray work pass last report report' := by
  induction work generalizing pass report with
  | nil =>
    exact ⟨stocks.congr (funext fun _ => (if_neg List.not_mem_nil).symm), .refl _, fun _ _ => rfl, .refl _,
      fun other _ _ _ => .refl _ other, rfl, nofun, fun _ => .inl⟩
  | cons specifier rest ih =>
    -- a module is settled once, so that its turn in the rest of the work leaves alone what is settled here
    obtain ⟨fresh, nodup'⟩ := List.nodup_cons.1 nodup
    have one := settlesStock_settleOne distinct within stocks fresh (turned specifier List.mem_cons_self) report
    rw [show settleAll pass report (specifier :: rest) = settleAll (pass.settleOne report specifier).1
      (pass.settleOne report specifier).2 rest from rfl]
    generalize pass.settleOne report specifier = result at one ⊢
    obtain ⟨middle, report'⟩ := result
    have differ {other : Specifier} (member : other ∈ rest) : other ≠ specifier :=
      fun same => fresh (same ▸ member)
    have later := ih nodup' middle (fun there => by
        obtain ⟨old, found, -⟩ := one.alone.revises.of_get? there
        exact within found) one.stocks (fun other member =>
      (turned other (List.mem_cons_of_mem _ member)).settlesAlone one.alone stocks.indexed (differ member))
        report'
    dsimp only at one later ⊢
    generalize settleAll middle report' rest = result at later ⊢
    obtain ⟨last, report''⟩ := result
    refine ⟨later.stocks, one.alone.alters.setup.trans later.setup, fun other absent => ?_,
      one.alone.revises.trans later.revises, fun other record found idle => ?_,
      later.errors.trans one.alone.errors, fun other member => ?_, fun other member => ?_⟩
    · obtain ⟨apart, absent'⟩ := not_or.1 (mt List.mem_cons.2 absent)
      exact (later.others other absent').trans (one.alone.others other apart)
    · refine (one.sameOwn found ?_).trans ?_
      · refine idle.imp (fun absent same => absent (same ▸ List.mem_cons_self)) id
      · by_cases own : other = specifier
        · subst own
          obtain ⟨new, there, -⟩ := one.alone.revises.get?_of_get? found
          exact later.sameOwn other new there (.inl fresh)
        · refine later.sameOwn other record ((one.alone.others other own).trans found) (idle.imp ?_ ?_)
          · exact fun absent member => absent (List.mem_cons_of_mem _ member)
          · rw [one.alone.errors]
            exact id
    · rcases List.mem_cons.1 member with rfl | inside
      · exact one.settled.later one.alone.alters.indexed later.revises (later.others _ fresh)
          fun _ there => later.sameOwn _ _ there (.inl fresh)
      · exact (later.settled other inside).earlier (one.alone.others other (differ inside)) one.alone.errors
    · rcases later.changed other member with known | ⟨inside, clear⟩
      · refine (one.changed other known).imp_right ?_
        rintro ⟨rfl, clear⟩
        exact ⟨List.mem_cons_self, clear⟩
      · exact .inr ⟨List.mem_cons_of_mem _ inside, one.alone.errors ▸ clear⟩

end Pass

end ModuleBuild
