import ModuleBuild.Proofs.Compile.DroppedImports
import ModuleBuild.Proofs.Compile.SettledEvents
import ModuleBuild.Proofs.Compile.StockCalls
/-!
What one call notes of modules that are dynamic entries. A module is looked at when it is settled, and its note
tells of the graph of that time; from then on the call adds no imports, and loses some only where a module
fails for what is in store.
-/

namespace ModuleBuild

open ModuleGraph Workspace ArtifactStore Pass

abbrev Outcomes := OrderedMap Specifier (Except ModuleError ModuleRecord)

/-- No module failed for what is, or should be, in store. -/
def AllStored (outcomes : Outcomes) : Prop :=
  ∀ specifier error, outcomes.get? specifier ≠ some (.error (.artifact error))

namespace ModuleGraph

theorem dependencies_failed (graph : ModuleGraph) (specifier : Specifier) (reason : String) :
    (graph.modify specifier (·.failed reason)).dependencies specifier = [] := by
  have marked := get?_modify graph specifier specifier (·.failed reason)
  rw [if_pos rfl] at marked
  cases found : graph.get? specifier with
  | none => exact dependencies_of_get?_eq_none (by rw [marked, found]; rfl)
  | some record => exact dependencies_of_get? (by rw [marked, found]; rfl)

theorem drops_failed (graph : ModuleGraph) (specifier : Specifier) (reason : String) :
    graph.Drops (graph.modify specifier (·.failed reason)) := by
  intro importer
  by_cases same : specifier = importer
  · subst same
    exact .inr (dependencies_failed graph specifier reason)
  · exact .inl (dependencies_congr ((get?_modify _ _ _ _).trans (if_neg same)))

/-- A record notes what its module was in an earlier graph, and that graph has lost imports at most. -/
structure Recalls (past present : ModuleGraph) (specifier : Specifier) (record : ModuleRecord) : Prop where
  indexed : past.Indexed
  drops : past.Drops present
  entry : record.flags.isDynamicEntryOnly = past.isDynamicEntry specifier

end ModuleGraph

namespace Pass

/-! ## Settling -/

def Stores (pass : Pass) : Prop :=
  ∀ specifier error, pass.errors.get? specifier ≠ some (.artifact error)

/-- Some modules are settled. One that does not fail notes what it is at that time; imports are only lost,
and only where the store or the code fails. -/
structure SettlesEntries (work : List Specifier) (first last : Pass) : Prop where
  indexed : last.workspace.graph.Indexed
  others : ∀ other, other ∉ work → last.workspace.graph.get? other = first.workspace.graph.get? other
  clear : ∀ other, other ∉ work → last.errors.get? other = first.errors.get? other
  errors : ∀ specifier error, first.errors.get? specifier = some error →
    last.errors.get? specifier = some error
  bare : ∀ specifier error, last.errors.get? specifier = some error → last.FailsBare specifier
  drops : first.workspace.graph.Drops last.workspace.graph
  stores : last.Stores → ∀ importer,
    last.workspace.graph.dependencies importer = first.workspace.graph.dependencies importer
  entry : ∀ specifier ∈ work, last.errors.get? specifier = none → ∀ record,
    last.workspace.graph.get? specifier = some record → ∃ past,
      Recalls past last.workspace.graph specifier record ∧ (last.Stores → ∀ importer,
        last.workspace.graph.dependencies importer = past.dependencies importer)

namespace SettlesEntries

variable {first middle last : Pass} {specifier : Specifier} {rest : List Specifier}

theorem earlier {work : List Specifier} (settles : SettlesEntries work first last) (stores : last.Stores) :
    first.Stores :=
  fun specifier error failed => stores specifier error (settles.errors specifier _ failed)

theorem cons (one : SettlesEntries [specifier] first middle) (later : SettlesEntries rest middle last) :
    SettlesEntries (specifier :: rest) first last where
  indexed := later.indexed
  others other absent := by
    obtain ⟨differ, absent⟩ := not_or.1 (mt List.mem_cons.2 absent)
    exact (later.others other absent).trans (one.others other (by simpa using differ))
  clear other absent := by
    obtain ⟨differ, absent⟩ := not_or.1 (mt List.mem_cons.2 absent)
    exact (later.clear other absent).trans (one.clear other (by simpa using differ))
  errors other error failed := later.errors other error (one.errors other error failed)
  bare := later.bare
  drops := one.drops.trans later.drops
  stores stores importer :=
    (later.stores stores importer).trans (one.stores (later.earlier stores) importer)
  entry other member clear record found := by
    by_cases again : other ∈ rest
    · exact later.entry other again clear record found
    · -- the module is not settled again, so that its record stays as it is
      obtain rfl := (List.mem_cons.1 member).resolve_right again
      obtain ⟨past, recalls, same⟩ := one.entry other List.mem_cons_self
        ((later.clear other again).symm.trans clear) record ((later.others other again).symm.trans found)
      exact ⟨past, ⟨recalls.indexed, recalls.drops.trans later.drops, recalls.entry⟩, fun stores importer =>
        (later.stores stores importer).trans (same (later.earlier stores) importer)⟩

end SettlesEntries

section SettleOne

variable {pass : Pass} (indexed : pass.workspace.graph.Indexed)
  (bare : ∀ specifier error, pass.errors.get? specifier = some error → pass.FailsBare specifier)
  {specifier : Specifier}

include indexed bare

theorem settlesEntries_failed {error : ModuleError} (failed : pass.errors.get? specifier = some error) :
    SettlesEntries [specifier] pass pass where
  indexed := indexed
  others _ _ := rfl
  clear _ _ := rfl
  errors _ _ := id
  bare := bare
  drops := .refl _
  stores _ _ := rfl
  entry other member clear := by
    rw [List.mem_singleton.1 member, failed] at clear
    cases clear

/-- A module notes what it is, and is refreshed or not. -/
theorem settlesEntries_noted {after : Pass} (errors : after.errors = pass.errors)
    (revises : pass.workspace.graph.Revises after.workspace.graph)
    (others : ∀ other, other ≠ specifier →
      after.workspace.graph.get? other = pass.workspace.graph.get? other)
    (clear : pass.errors.get? specifier = none)
    (entry : ∀ record, after.workspace.graph.get? specifier = some record →
      record.flags.isDynamicEntryOnly = pass.workspace.graph.isDynamicEntry specifier) :
    SettlesEntries [specifier] pass after where
  indexed := revises.indexed indexed
  others other absent := others other (by simpa using absent)
  clear other _ := by rw [errors]
  errors other error failed := by rw [errors, failed]
  bare other error failed := by
    rw [errors] at failed
    have differ : other ≠ specifier := by
      rintro rfl
      cases clear.symm.trans failed
    obtain ⟨-, record, found, rest⟩ := bare other error failed
    exact ⟨⟨error, by rw [errors, failed]⟩, record, (others other differ).trans found, rest⟩
  drops := revises.drops
  stores _ := revises.dependencies
  entry other member _ record found := by
    obtain rfl := List.mem_singleton.1 member
    exact ⟨after.workspace.graph, ⟨revises.indexed indexed, .refl _,
      (entry record found).trans (revises.isDynamicEntry other).symm⟩, fun _ _ => rfl⟩

omit indexed bare in
theorem settlesEntries_lost {middle : Pass} (noted : SettlesEntries [specifier] pass middle)
    (clear : pass.errors.get? specifier = none) {record : ModuleRecord}
    (found : middle.workspace.graph.get? specifier = some record) (error : ArtifactError) :
    SettlesEntries [specifier] pass (middle.fail specifier (.artifact error)) := by
  have others {other : Specifier} (differ : other ≠ specifier) :
      (middle.fail specifier (.artifact error)).workspace.graph.get? other = middle.workspace.graph.get? other :=
    (get?_modify _ _ _ _).trans (if_neg (Ne.symm differ))
  have errors {other : Specifier} (differ : other ≠ specifier) :
      (middle.fail specifier (.artifact error)).errors.get? other = middle.errors.get? other :=
    (OrderedMap.get?_insert _ _ _ _).trans (if_neg (Ne.symm differ))
  have fails := failsBare_fail found (.artifact error)
  have own : (middle.fail specifier (.artifact error)).errors.get? specifier = some (.artifact error) :=
    (OrderedMap.get?_insert _ _ _ _).trans (if_pos rfl)
  refine ⟨noted.indexed.modify specifier fun _ => rfl, fun other absent => ?_, fun other absent => ?_,
    fun other old failed => ?_, fun other old failed => ?_, noted.drops.trans (drops_failed _ _ _),
    fun stores => absurd own (stores specifier error), fun other member clear' => ?_⟩
  · exact (others (by simpa using absent)).trans (noted.others other absent)
  · exact (errors (by simpa using absent)).trans (noted.clear other absent)
  · have differ : other ≠ specifier := by
      rintro rfl
      cases clear.symm.trans failed
    exact (errors differ).trans (noted.errors other old failed)
  · by_cases same : other = specifier
    · exact same ▸ fails
    · obtain ⟨-, record, found, rest⟩ := noted.bare other old ((errors same).symm.trans failed)
      exact ⟨⟨old, failed⟩, record, (others same).trans found, rest⟩
  · rw [List.mem_singleton.1 member, own] at clear'
    cases clear'

theorem settlesEntries_settleOne (report : PassReport) :
    SettlesEntries [specifier] pass (pass.settleOne report specifier).1 := by
  cases failed : pass.errors.get? specifier with
  | some error =>
    rw [settleOne_failed failed]
    exact settlesEntries_failed indexed bare failed
  | none =>
    have keyed : (pass.enter specifier).workspace.graph.Keyed := fun _ _ =>
      ((revises_updateEntryFlag _ specifier).indexed indexed).keyed
    have others (other : Specifier) (differ : other ≠ specifier) :
        (pass.enter specifier).workspace.graph.get? other = pass.workspace.graph.get? other :=
      get?_enter_other pass differ
    have entered := (get?_enter pass specifier specifier).trans (if_pos rfl)
    have entry (record : ModuleRecord)
        (found : (pass.enter specifier).workspace.graph.get? specifier = some record) :
        record.flags.isDynamicEntryOnly = pass.workspace.graph.isDynamicEntry specifier := by
      obtain ⟨old, -, rfl⟩ := Option.map_eq_some_iff.1 (entered.symm.trans found)
      rfl
    have enters := revises_updateEntryFlag pass.workspace.graph specifier
    rw [settleOne_of_clear failed]
    dsimp only
    split
    · exact settlesEntries_noted indexed bare rfl enters others failed entry
    · have attempts := attempts_refresh (pass.enter specifier).workspace specifier
        ((pass.enter specifier).staged.get? specifier)
      have present {error : ArtifactError} {after : Workspace} := @folds_of_refresh_error
        (pass.enter specifier).workspace after specifier ((pass.enter specifier).staged.get? specifier) error
      generalize (pass.enter specifier).workspace.refresh specifier
        ((pass.enter specifier).staged.get? specifier) = outcome at attempts present ⊢
      obtain ⟨refreshed?, after⟩ := outcome
      have noted : SettlesEntries [specifier] pass { pass.enter specifier with workspace := after } := by
        refine settlesEntries_noted indexed bare rfl (enters.trans attempts.revises)
          (fun other differ => (attempts.others keyed differ).trans (others other differ)) failed
          fun record found => ?_
        obtain ⟨old, there, same⟩ := attempts.flags found
        rw [same]
        exact entry old there
      dsimp only
      split
      · obtain ⟨old, there, -⟩ := present rfl
        obtain ⟨record, found, -⟩ := attempts.revises.get?_of_get? there
        exact settlesEntries_lost noted failed found _
      · exact noted
      · exact noted

end SettleOne

theorem settlesEntries_settleAll {pass : Pass} (indexed : pass.workspace.graph.Indexed)
    (bare : ∀ specifier error, pass.errors.get? specifier = some error → pass.FailsBare specifier)
    (report : PassReport) (work : List Specifier) :
    SettlesEntries work pass (settleAll pass report work).1 := by
  induction work generalizing pass report with
  | nil =>
    exact ⟨indexed, fun _ _ => rfl, fun _ _ => rfl, fun _ _ => id, bare, .refl _, fun _ _ => rfl, nofun⟩
  | cons specifier rest ih =>
    have one : SettlesEntries [specifier] pass (pass.settleOne report specifier).1 :=
      settlesEntries_settleOne indexed bare report
    exact one.cons (ih one.indexed one.bare _)

end Pass

/-! ## Repairs -/

/-- What is done after a pass. A module that is ready in the end was ready before, with the same note and the
same outcome; imports are only lost, and only where the store or the code fails. -/
structure Abides (first : Outcomes) (before : ModuleGraph) (second : Outcomes) (after : ModuleGraph) : Prop where
  indexed : after.Indexed
  drops : before.Drops after
  ready : ∀ specifier new, after.get? specifier = some new → new.isReady = true →
    second.get? specifier = first.get? specifier ∧
      ∃ old, before.get? specifier = some old ∧ old.isReady = true ∧ new.flags = old.flags
  bare : ∀ specifier error, second.get? specifier = some (.error error) →
    first.get? specifier = some (.error error) ∨ after.dependencies specifier = []
  stores : AllStored second → AllStored first ∧
    ∀ importer, after.dependencies importer = before.dependencies importer

theorem ModuleGraph.Drops.bare {first second : ModuleGraph} (drops : first.Drops second) {specifier : Specifier}
    (none : first.dependencies specifier = []) : second.dependencies specifier = [] :=
  (drops specifier).elim (·.trans none) id

theorem Abides.refl (outcomes : Outcomes) {graph : ModuleGraph} (indexed : graph.Indexed) :
    Abides outcomes graph outcomes graph where
  indexed := indexed
  drops := .refl graph
  ready _ new found ready := ⟨rfl, new, found, ready, rfl⟩
  bare _ _ := .inl
  stores stores := ⟨stores, fun _ => rfl⟩

theorem Abides.trans {first second third : Outcomes} {before middle after : ModuleGraph}
    (one : Abides first before second middle) (two : Abides second middle third after) :
    Abides first before third after where
  indexed := two.indexed
  drops := one.drops.trans two.drops
  ready specifier new found ready := by
    obtain ⟨outcome, old, there, ready', same⟩ := two.ready specifier new found ready
    obtain ⟨outcome', older, was, ready'', same'⟩ := one.ready specifier old there ready'
    exact ⟨outcome.trans outcome', older, was, ready'', same.trans same'⟩
  bare specifier error failed := by
    rcases two.bare specifier error failed with failed' | none
    · exact (one.bare specifier error failed').imp_right two.drops.bare
    · exact .inr none
  stores stores := by
    obtain ⟨stores', same'⟩ := two.stores stores
    obtain ⟨stores'', same⟩ := one.stores stores'
    exact ⟨stores'', fun importer => (same' importer).trans (same importer)⟩

namespace Workspace

variable {workspace : Workspace} (indexed : workspace.graph.Indexed)

include indexed

theorem flags_refresh (specifier : Specifier) {other : Specifier} {new : ModuleRecord}
    (there : (workspace.refresh specifier none).2.graph.get? other = some new) :
    ∃ old, workspace.graph.get? other = some old ∧ new.flags = old.flags ∧ (other = specifier ∨ new = old) := by
  have attempts := attempts_refresh workspace specifier none
  obtain ⟨old, was, same⟩ := attempts.flags there
  refine ⟨old, was, same, or_iff_not_imp_left.2 fun differ => ?_⟩
  have stays := attempts.others (fun _ _ => indexed.keyed) differ
  exact Option.some.inj (there.symm.trans (stays.trans was))

theorem flags_refreshAll (propagation : Propagation) (specifiers : List Specifier) {other : Specifier}
    {new : ModuleRecord} (there : (workspace.refreshAll propagation specifiers).2.graph.get? other = some new) :
    ∃ old, workspace.graph.get? other = some old ∧ new.flags = old.flags ∧ (other ∈ specifiers ∨ new = old) := by
  induction specifiers generalizing workspace propagation with
  | nil => exact ⟨new, there, rfl, .inr rfl⟩
  | cons specifier rest ih =>
    have step {old : ModuleRecord} := @flags_refresh workspace indexed specifier other old
    have indexed' := (attempts_refresh workspace specifier none).revises.indexed indexed
    rw [refreshAll] at there
    generalize workspace.refresh specifier none = outcome at there step indexed'
    obtain ⟨refreshed, after⟩ := outcome
    have later : ∃ old, after.graph.get? other = some old ∧ new.flags = old.flags ∧ (other ∈ rest ∨ new = old) := by
      split at there <;> next result =>
        cases result
        exact ih indexed' _ there
    obtain ⟨old, found, flags, kept⟩ := later
    obtain ⟨older, was, flags', kept'⟩ := step found
    refine ⟨older, was, flags.trans flags', ?_⟩
    rcases kept' with rfl | rfl
    · exact .inl List.mem_cons_self
    · exact kept.imp_left (List.mem_cons_of_mem specifier)

theorem abides_propagate (outcomes : Outcomes) (changed : Specifier) :
    Abides outcomes workspace.graph outcomes (workspace.propagate changed).2.graph := by
  have revises := workspace.revises_refreshAll {} (affected workspace.graph changed)
  refine ⟨revises.indexed indexed, revises.drops, fun specifier new there ready => ⟨rfl, ?_⟩,
    fun _ _ => .inl, fun stores => ⟨stores, revises.dependencies⟩⟩
  obtain ⟨old, found, flags, member | rfl⟩ := flags_refreshAll indexed {} _ there
  · obtain ⟨-, -, record, found', ready'⟩ := (mem_affected indexed).1 member
    obtain rfl := Option.some.inj (found.symm.trans found')
    exact ⟨old, found, ready', flags⟩
  · exact ⟨new, found, ready, rfl⟩

theorem abides_remove (outcomes : Outcomes) {specifier : Specifier}
    (bare : workspace.graph.dependencies specifier = []) :
    Abides outcomes workspace.graph outcomes (workspace.remove specifier).graph := by
  have dependencies (importer : Specifier) :
      (workspace.remove specifier).graph.dependencies importer = workspace.graph.dependencies importer := by
    by_cases same : specifier = importer
    · subst same
      rw [bare]
      exact dependencies_of_get?_eq_none ((get?_remove _ _ _).trans (if_pos rfl))
    · exact dependencies_congr (get?_remove_other workspace (Ne.symm same))
  refine ⟨graph_remove workspace specifier ▸ indexed.erase specifier, fun importer => .inl (dependencies importer),
    fun other new there ready => ⟨rfl, new, ?_, ready, rfl⟩, fun _ _ => .inl,
    fun stores => ⟨stores, dependencies⟩⟩
  rw [get?_remove] at there
  split at there
  · cases there
  · exact there

end Workspace

/-- A module that could not be repaired counts as failed, and loses its imports. -/
theorem abides_note (outcomes : Outcomes) {graph : ModuleGraph} (indexed : graph.Indexed)
    (specifier : Specifier) (error : ArtifactError) :
    Abides outcomes graph (outcomes.insert specifier (.error (.artifact error)))
      (graph.modify specifier (·.failed error.message)) := by
  have noted (other : Specifier) := OrderedMap.get?_insert outcomes specifier other
    (.error (.artifact error) : Except ModuleError ModuleRecord)
  refine ⟨indexed.modify specifier fun _ => rfl, drops_failed _ _ _, fun other new there ready => ?_,
    fun other old failed => ?_, fun stores => absurd ((noted specifier).trans (if_pos rfl)) (stores specifier error)⟩
  · rw [get?_modify] at there
    split at there
    · obtain ⟨old, -, rfl⟩ := Option.map_eq_some_iff.1 there
      cases ready
    · next differ => exact ⟨(noted other).trans (if_neg differ), new, there, ready, rfl⟩
  · by_cases same : specifier = other
    · exact .inr (same ▸ dependencies_failed graph specifier error.message)
    · exact .inl (((noted other).trans (if_neg same)).symm.trans failed)

theorem abides_notes (failures : List (Specifier × ArtifactError)) (outcomes : Outcomes) {graph : ModuleGraph}
    (indexed : graph.Indexed) :
    Abides outcomes graph
      (failures.foldl (fun outcomes failure => outcomes.insert failure.1 (.error (.artifact failure.2))) outcomes)
      (failures.foldl (fun graph failure => graph.modify failure.1 (·.failed failure.2.message)) graph) := by
  induction failures generalizing outcomes graph with
  | nil => exact .refl outcomes indexed
  | cons failure rest ih =>
    have one := abides_note outcomes indexed failure.1 failure.2
    exact one.trans (ih _ one.indexed)

theorem abides_repairImporters {workspace : Workspace} (indexed : workspace.graph.Indexed) (report : PassReport)
    (changed : Specifier) :
    let (after, repaired) := workspace.repairImporters report changed
    Abides report.outcomes workspace.graph after.outcomes repaired.graph := by
  have repairs := abides_propagate indexed report.outcomes changed
  exact repairs.trans (abides_notes (workspace.propagate changed).1.failures report.outcomes repairs.indexed)

/-! ## Calls -/

/-- A call settled a module without a failure. -/
def SettledIn (outcomes : Outcomes) (specifier : Specifier) : Prop :=
  ∃ record, outcomes.get? specifier = some (.ok record)

/-- What ready modules note after a call. One that the call settled recalls the graph of that time. Any other
gets no imports, and has its note from before, unless it is one that is left alone and was not ready. -/
structure NotesEntries (base : ModuleGraph) (outcomes : Outcomes) (after : ModuleGraph) : Prop where
  indexed : after.Indexed
  bare : ∀ specifier error, outcomes.get? specifier = some (.error error) → after.dependencies specifier = []
  settled : ∀ specifier new, SettledIn outcomes specifier → after.get? specifier = some new →
    new.isReady = true → ∃ past, Recalls past after specifier new ∧ (AllStored outcomes →
      ∀ importer, after.dependencies importer = past.dependencies importer)
  unsettled : ∀ specifier new, ¬ SettledIn outcomes specifier → after.get? specifier = some new →
    new.isReady = true → base.DropsTo after specifier ∧
      ((∃ old, base.get? specifier = some old ∧ old.isReady = true ∧ new.flags = old.flags) ∨
        new.flags.isDynamicEntryOnly = false ∧ ¬ base.IsReady specifier)

theorem NotesEntries.later {base before after : ModuleGraph} {first second : Outcomes}
    (notes : NotesEntries base first before) (abides : Abides first before second after) :
    NotesEntries base second after where
  indexed := abides.indexed
  bare specifier error failed := by
    rcases abides.bare specifier error failed with failed' | none
    · exact abides.drops.bare (notes.bare specifier error failed')
    · exact none
  settled specifier new settled found ready := by
    obtain ⟨outcome, old, there, ready', flags⟩ := abides.ready specifier new found ready
    obtain ⟨record, reported⟩ := settled
    obtain ⟨past, recalls, same⟩ :=
      notes.settled specifier old ⟨record, outcome.symm.trans reported⟩ there ready'
    refine ⟨past, ⟨recalls.indexed, recalls.drops.trans abides.drops, flags ▸ recalls.entry⟩,
      fun stores importer => ?_⟩
    obtain ⟨stores', same'⟩ := abides.stores stores
    exact (same' importer).trans (same stores' importer)
  unsettled specifier new unsettled found ready := by
    obtain ⟨outcome, old, there, ready', flags⟩ := abides.ready specifier new found ready
    have unsettled' : ¬ SettledIn first specifier := by
      rintro ⟨record, reported⟩
      exact unsettled ⟨record, outcome.trans reported⟩
    obtain ⟨drops, note⟩ := notes.unsettled specifier old unsettled' there ready'
    exact ⟨drops.trans (abides.drops.dropsTo specifier), flags ▸ note⟩

/-- A module that is ready without a turn of its own was ready with the same note, or is one that is left alone.
-/
theorem Mentioned.note_of_ready {specifier : Specifier} {first second : Option ModuleRecord} {new : ModuleRecord}
    (mentioned : Mentioned specifier first second) (found : second = some new) (ready : new.isReady = true) :
    (∃ old, first = some old ∧ old.isReady = true ∧ new.flags = old.flags) ∨
      new.flags.isDynamicEntryOnly = false ∧ ¬ ∃ old, first = some old ∧ old.isReady = true := by
  cases mentioned with
  | same kept => exact .inl ⟨new, kept.symm.trans found, ready, rfl⟩
  | created _ found' =>
    rw [← Option.some.inj (found'.symm.trans found)] at ready
    cases ready
  | external blank found' =>
    refine .inr ⟨Option.some.inj (found'.symm.trans found) ▸ rfl, ?_⟩
    rintro ⟨old, was, isReady⟩
    have pending := (blank old was).1
    simp_all [ModuleRecord.isReady, ModuleRecord.isPending]

section Reports

variable {touched : List Specifier} {errors : OrderedMap Specifier ModuleError} {graph : ModuleGraph}
  {report : PassReport} (reports : ReportsOn touched errors graph report)

include reports

theorem settledIn_of_clear {specifier : Specifier} {record : ModuleRecord} (member : specifier ∈ touched)
    (clear : errors.get? specifier = none) (found : graph.get? specifier = some record) :
    SettledIn report.outcomes specifier := by
  refine ⟨record, ?_⟩
  rw [reports.outcomes, if_pos member, outcome?, clear, found]
  rfl

theorem allStored_of_clear (clear : ∀ specifier ∈ touched, errors.get? specifier = none) :
    AllStored report.outcomes :=
  fun specifier _ => reports.not_error clear specifier _

end Reports

namespace Pass

variable {first last : Pass} {touched : List Specifier} {specifier : Specifier}

theorem errors_of_outcomes {error : ModuleError}
    (failed : (last.outcomes touched).get? specifier = some (.error error)) :
    last.errors.get? specifier = some error := by
  rw [get?_outcomes, outcome?] at failed
  cases errors : last.errors.get? specifier with
  | none => cases found : last.workspace.graph.get? specifier <;> simp [errors, found] at failed
  | some own =>
    simp only [errors] at failed
    split at failed
    · cases failed
      rfl
    · cases failed

theorem mem_of_settledIn (settled : SettledIn (last.outcomes touched) specifier) : specifier ∈ touched := by
  obtain ⟨record, reported⟩ := settled
  rw [get?_outcomes] at reported
  by_contra absent
  rw [if_neg absent] at reported
  cases reported

namespace SettlesEntries

variable (settles : SettlesEntries touched first last)

include settles

theorem clear_of_ready {new : ModuleRecord} (found : last.workspace.graph.get? specifier = some new)
    (ready : new.isReady = true) : last.errors.get? specifier = none := by
  cases failed : last.errors.get? specifier with
  | none => rfl
  | some error =>
    obtain ⟨-, record, found', errored, -⟩ := settles.bare specifier error failed
    obtain rfl := Option.some.inj (found.symm.trans found')
    cases (ModuleRecord.unready_of_errored errored).symm.trans ready

theorem settledIn (member : specifier ∈ touched) {new : ModuleRecord}
    (found : last.workspace.graph.get? specifier = some new) (ready : new.isReady = true) :
    SettledIn (last.outcomes touched) specifier := by
  refine ⟨new, ?_⟩
  rw [get?_outcomes, if_pos member, outcome?, settles.clear_of_ready found ready, found]
  rfl

theorem stores_of_allStored (marks : first.Marks touched) (all : AllStored (last.outcomes touched)) :
    last.Stores := by
  intro specifier error failed
  have member : specifier ∈ touched := by
    by_contra absent
    have clear := (settles.clear specifier absent).trans (marks.clear specifier absent)
    cases clear.symm.trans failed
  refine all specifier error ?_
  rw [get?_outcomes, if_pos member, outcome?, failed]

end SettlesEntries

end Pass

namespace Workspace

variable {workspace : Workspace} (indexed : workspace.graph.Indexed) (tools : Toolchain)

include indexed

theorem notesEntries_pass {options : CompileOptions} (whole : options.ignoreDependencies = false)
    (work : List (Specifier × Bool)) :
    let (pass, touched) := visitAll tools options [] { workspace } work
    let (report, after) := pass.settle touched
    NotesEntries workspace.graph report.outcomes after.graph := by
  have start : ({ workspace } : Pass).Marks [] :=
    ⟨fun other _ => OrderedMap.get?_empty other, fun other error failed => by
      cases (OrderedMap.get?_empty other).symm.trans failed⟩
  have visited := visited_visitAll tools whole [] { workspace } work indexed start
  generalize visitAll tools options [] { workspace } work = result at visited ⊢
  obtain ⟨first, touched⟩ := result
  obtain ⟨indexed', marks, outside⟩ := visited
  have settles := settlesEntries_settleAll indexed' marks.failed {} touched
  simp only [settle_eq]
  generalize settleAll first {} touched = result at settles ⊢
  obtain ⟨last, report⟩ := result
  refine ⟨settles.indexed, fun specifier error failed => ?_, fun specifier new settled found ready => ?_,
    fun specifier new unsettled found ready => ?_⟩
  · obtain ⟨-, record, there, -, bare⟩ := settles.bare specifier error (errors_of_outcomes failed)
    exact (dependencies_of_get? there).trans bare
  · obtain ⟨past, recalls, same⟩ :=
      settles.entry specifier (mem_of_settledIn settled) (settles.clear_of_ready found ready) new found
    exact ⟨past, recalls, fun all => same (settles.stores_of_allStored marks all)⟩
  · have absent : specifier ∉ touched := fun member => unsettled (settles.settledIn member found ready)
    obtain ⟨mentioned, drops⟩ := outside specifier absent
    have there := (settles.others specifier absent).symm.trans found
    exact ⟨drops.trans (settles.drops.dropsTo specifier), mentioned.note_of_ready there ready⟩

theorem notesEntries_compileAll {options : CompileOptions} (whole : options.ignoreDependencies = false)
    (roots : List Specifier) :
    let (report, after) := workspace.compileAll tools roots options
    NotesEntries workspace.graph report.outcomes after.graph := by
  refine workspace.compileAll_induction tools roots options
    (motive := fun result => NotesEntries workspace.graph result.1.outcomes result.2.graph) ?_ ?_
  · exact notesEntries_pass indexed tools whole _
  · intro report middle root notes
    exact notes.later (abides_repairImporters notes.indexed report root)

theorem notesEntries_sourceChanged (specifier : Specifier) :
    let (outcome, after) := workspace.sourceChanged tools specifier
    NotesEntries workspace.graph outcome.report.outcomes after.graph := by
  by_cases used : ((workspace.graph.get? specifier).isNone &&
      (workspace.graph.dependents specifier).isEmpty) = true
  · have unreported (other : Specifier) : ({} : PassReport).outcomes.get? other = none := OrderedMap.get?_empty other
    simp only [sourceChanged, used, if_true]
    refine ⟨indexed, fun other error failed => ?_, fun other new settled => ?_,
      fun other new _ found ready => ⟨.refl _ other, .inl ⟨new, found, ready, rfl⟩⟩⟩
    · cases (unreported other).symm.trans failed
    · obtain ⟨record, reported⟩ := settled
      cases (unreported other).symm.trans reported
  · have notes := @notesEntries_compileAll workspace indexed tools { forceRefresh := true } rfl [specifier]
    rw [sourceChanged_eq_of_used used]
    generalize workspace.compileAll tools [specifier] { forceRefresh := true } = result at notes ⊢
    obtain ⟨report, passed⟩ := result
    dsimp only at notes ⊢
    generalize removal : ((workspace.graph.get? specifier).isSome &&
      isGone (report.outcomes.get? specifier)) = isRemoved
    have middle : NotesEntries workspace.graph report.outcomes
        (if isRemoved = true then passed.remove specifier else passed).graph := by
      cases isRemoved with
      | false => exact notes
      | true =>
        obtain ⟨-, gone⟩ := Bool.and_eq_true_iff.1 removal
        have bare : passed.graph.dependencies specifier = [] := by
          unfold isGone at gone
          split at gone
          · next error failed => exact notes.bare specifier error failed
          · cases gone
        exact notes.later (abides_remove notes.indexed report.outcomes bare)
    split
    · exact middle
    · exact middle.later (abides_repairImporters middle.indexed report specifier)

end Workspace

end ModuleBuild
