import ModuleBuild.Proofs.Compile.RecordBuilds
/-!
Laws of records, whatever the store does. A law that holds of the records that are made, and is kept wherever a
compiler changes one, holds of every record after any calls. What is noted of a module in its sidecar is part of
such a law, since it comes back when the module is taken over.
-/

namespace ModuleBuild

open ModuleGraph Workspace ArtifactStore Pass

/-- What has to be shown of a law of records, and of sidecars, for it to hold of all of them. -/
structure RecordLaw (known : Toolchain → Prop) (keepsText : Bool) (law : Specifier → ModuleRecord → Prop)
    (noted : Specifier → Sidecar → Prop) : Prop where
  named : ∀ {specifier record}, law specifier record → record.specifier = specifier
  awaiting : ∀ specifier, law specifier (.awaiting specifier)
  external : ∀ specifier, law specifier (.external specifier)
  failed : ∀ {specifier record} reason, law specifier record → record.isExternal = false →
    law specifier (record.failed reason)
  /-- A module that is left alone fails only while it is built. -/
  lost : ∀ {tools specifier} reason, known tools → ¬ tools.SparesItself specifier →
    law specifier ((ModuleRecord.external specifier).failed reason)
  entered : ∀ {specifier record} isEntry, law specifier record → law specifier (record.withEntry isEntry)
  settled : ∀ {specifier record} hash output, law specifier record → record.folds = true →
    law specifier (settledRecord hash output record)
  built : ∀ {tools specifier old new}, known tools → law specifier old → old.isExternal = false →
    BuildsRecord tools (fun again => ∃ sidecar, noted specifier sidecar ∧ sidecar.ReadsAs keepsText again)
      old new → law specifier new
  filed : ∀ {specifier record} hash output externals, law specifier record → record.folds = true →
    (∀ target ∈ externals, ∃ edge ∈ record.dependencies, edge.target = target) → specifier ∉ externals →
    noted specifier (.ofRecord (settledRecord hash output record) externals)

def ModuleGraph.Obeys (law : Specifier → ModuleRecord → Prop) (graph : ModuleGraph) : Prop :=
  ∀ specifier record, graph.get? specifier = some record → law specifier record

structure ArtifactStore.Obeys (keepsText : Bool) (noted : Specifier → Sidecar → Prop)
    (store : ArtifactStore) : Prop where
  keepsText : store.keepsText = keepsText
  sidecar : ∀ specifier sidecar, store.sidecars.get? specifier = some sidecar → noted specifier sidecar

structure Workspace.Obeys (keepsText : Bool) (law : Specifier → ModuleRecord → Prop)
    (noted : Specifier → Sidecar → Prop) (workspace : Workspace) : Prop where
  graph : workspace.graph.Obeys law
  store : workspace.store.Obeys keepsText noted

variable {known : Toolchain → Prop} {keepsText : Bool} {law : Specifier → ModuleRecord → Prop}
  {noted : Specifier → Sidecar → Prop}

theorem ArtifactStore.Obeys.same {first second : ArtifactStore} (obeys : first.Obeys keepsText noted)
    (same : SameSidecars first second) : second.Obeys keepsText noted :=
  ⟨same.keepsText.trans obeys.keepsText, same.sidecars ▸ obeys.sidecar⟩

namespace ModuleGraph.Obeys

variable {graph : ModuleGraph} (obeys : graph.Obeys law)

include obeys

theorem modify {specifier : Specifier} {change : ModuleRecord → ModuleRecord}
    (keeps : ∀ record, graph.get? specifier = some record → law specifier record →
      law specifier (change record)) : (graph.modify specifier change).Obeys law := by
  intro other record there
  rw [get?_modify] at there
  split at there
  · next same =>
    obtain ⟨old, found, rfl⟩ := Option.map_eq_some_iff.1 there
    exact same ▸ keeps old found (obeys specifier old found)
  · exact obeys other record there

theorem erase (specifier : Specifier) : (graph.erase specifier).1.Obeys law := by
  intro other record there
  rw [get?_erase] at there
  split at there
  · cases there
  · exact obeys other record there

end ModuleGraph.Obeys

theorem Workspace.Obeys.remove {workspace : Workspace} (obeys : workspace.Obeys keepsText law noted)
    (specifier : Specifier) : (workspace.remove specifier).Obeys keepsText law noted := by
  have erased := obeys.graph.erase specifier
  unfold Workspace.remove
  split
  · exact obeys
  · next graph record erasing =>
    rw [erasing] at erased
    have dropped : (workspace.store.removeSidecar specifier).2.Obeys keepsText noted := by
      unfold removeSidecar attempt
      split
      · exact obeys.store
      · refine ⟨obeys.store.keepsText, fun other sidecar there => ?_⟩
        have there' := (OrderedMap.get?_erase _ _ _).symm.trans there
        split at there'
        · cases there'
        · exact obeys.store.sidecar other sidecar there'
    dsimp only
    split <;> next removed =>
      rw [removed] at dropped
      first
      | exact ⟨erased, dropped⟩
      | split
        · exact ⟨erased, dropped.same (sameSidecars_remove _ _)⟩
        · exact ⟨erased, dropped⟩

namespace RecordLaw

variable (rules : RecordLaw known keepsText law noted)

include rules

theorem keyed {graph : ModuleGraph} (obeys : graph.Obeys law) : graph.Keyed :=
  fun specifier record found => rules.named (obeys specifier record found)

theorem mentionedAt {specifier : Specifier} {first second : Option ModuleRecord}
    (mentioned : Mentioned specifier first second)
    (obeys : ∀ record, first = some record → law specifier record) (record : ModuleRecord)
    (there : second = some record) : law specifier record := by
  cases mentioned with
  | same kept => exact obeys record (kept.symm.trans there)
  | created _ found => exact Option.some.inj (found.symm.trans there) ▸ rules.awaiting specifier
  | external _ found => exact Option.some.inj (found.symm.trans there) ▸ rules.external specifier

theorem mentioned {first second : ModuleGraph} (obeys : first.Obeys law)
    (mentioned : ∀ specifier, Mentioned specifier (first.get? specifier) (second.get? specifier)) :
    second.Obeys law :=
  fun specifier => rules.mentionedAt (mentioned specifier) (obeys specifier)

theorem updateEntryFlag {graph : ModuleGraph} (obeys : graph.Obeys law) (specifier : Specifier) :
    (graph.updateEntryFlag specifier).Obeys law := by
  unfold ModuleGraph.updateEntryFlag
  split
  · dsimp only
    split
    · exact obeys
    · exact obeys.modify fun _ _ own => rules.entered _ own
  · exact obeys

/-! ## Turns -/

section Turns

variable {tools : Toolchain} (used : known tools) {pass : Pass}
  (obeys : pass.workspace.Obeys keepsText law noted)

include used obeys

theorem compileOrFail {specifier : Specifier} {record : ModuleRecord}
    (found : pass.workspace.graph.get? specifier = some record) (compiled : record.isExternal = false) :
    (pass.compileOrFail tools specifier record).1.workspace.Obeys keepsText law noted := by
  have own := obeys.graph specifier record found
  obtain rfl := rules.named own
  have others := buildsFrom_build tools pass record
  have builds := buildsOwn_build tools pass found compiled
  unfold Pass.compileOrFail
  generalize pass.build tools record = result at others builds ⊢
  obtain ⟨result, after⟩ := result
  refine ⟨?_, ?_⟩
  · intro other new there
    cases result with
    | error error =>
      have there' := (get?_modify after.workspace.graph record.specifier other _).symm.trans there
      split at there'
      · next same =>
        subst same
        obtain ⟨old, was, rfl⟩ := Option.map_eq_some_iff.1 there'
        rcases builds.error error rfl with kept | ⟨external, unspared⟩
        · obtain rfl := Option.some.inj (kept.symm.trans was)
          exact rules.failed _ own compiled
        · obtain rfl := Option.some.inj (external.symm.trans was)
          exact rules.lost _ used unspared
      · exact rules.mentionedAt (others.error error rfl other) (obeys.graph other) new there'
    | ok targets =>
      by_cases self : other = record.specifier
      · subst self
        obtain ⟨new', found', built⟩ := builds.ok targets rfl
        obtain rfl := Option.some.inj (found'.symm.trans there)
        refine rules.built used own compiled (built.mono ?_)
        rintro again ⟨sidecar, there, reads⟩
        exact ⟨sidecar, obeys.store.sidecar _ sidecar there, obeys.store.keepsText ▸ reads⟩
      · obtain ⟨_, _, _, set, -⟩ := others.ok targets rfl
        exact rules.mentionedAt (set.others other self) (obeys.graph other) new there
  · cases result with
    | error error => exact obeys.store.same builds.sidecars
    | ok targets => exact obeys.store.same builds.sidecars

theorem visit (options : CompileOptions) (specifier : Specifier) (isForced : Bool) :
    (pass.visit tools options specifier isForced).1.workspace.Obeys keepsText law noted := by
  have mentions : (pass.setGraph (pass.workspace.graph.mention specifier)).workspace.Obeys
      keepsText law noted :=
    ⟨rules.mentioned obeys.graph fun other => (pass.passesBy_mention specifier other).record, obeys.store⟩
  rcases visit_cases tools options pass specifier isForced with ⟨-, visit⟩ | ⟨due, found, visit⟩
  · rw [visit]
    exact mentions
  · rw [visit]
    refine rules.compileOrFail used mentions found ?_
    have compiled := due.1
    cases there : pass.workspace.graph.get? specifier with
    | none => rfl
    | some record => simpa [there] using compiled

theorem visitAll (options : CompileOptions) (claimed : List Specifier) (work : List (Specifier × Bool)) :
    (Pass.visitAll tools options claimed pass work).1.workspace.Obeys keepsText law noted := by
  induction claimed, pass, work using visitAll_induction tools options with
  | done claimed pass =>
    rw [Pass.visitAll]
    exact obeys
  | old claimed pass other isForced rest old ih =>
    rw [visitAll_of_mem tools options old]
    exact ih obeys
  | turn claimed pass other isForced rest targets fresh _ next ih =>
    rw [next]
    exact ih (rules.visit used obeys options other isForced)

end Turns

/-! ## Refreshes -/

section Refreshes

variable {workspace : Workspace} (obeys : workspace.Obeys keepsText law noted)

include obeys

theorem attempts {specifier : Specifier} {outcome : Except ArtifactError (Option Refreshed) × Workspace}
    (attempts : Attempts workspace specifier outcome) : outcome.2.graph.Obeys law := by
  cases attempts with
  | left => exact obeys.graph
  | failed _ _ graph => exact graph ▸ obeys.graph
  | filed record patched opened isFresh found folds _ graph =>
    obtain rfl := rules.keyed obeys.graph _ _ found
    rcases (files_settle opened record isFresh patched).graph with same | ⟨output, settled⟩
    · exact same ▸ graph ▸ obeys.graph
    · rw [settled, graph]
      refine obeys.graph.modify fun old there own => ?_
      obtain rfl := Option.some.inj (there.symm.trans found)
      exact rules.settled _ output own folds

theorem refresh (specifier : Specifier) (staged? : Option Bytes) :
    (workspace.refresh specifier staged?).2.Obeys keepsText law noted := by
  refine ⟨rules.attempts obeys (attempts_refresh workspace specifier staged?), ?_⟩
  rcases notes_refresh workspace specifier staged? (rules.keyed obeys.graph) with
    same | ⟨record, found, folds, same | ⟨hash, output, text, sidecars⟩⟩
  · exact obeys.store.same same
  · exact obeys.store.same same
  · refine ⟨text.trans obeys.store.keepsText, fun other sidecar there => ?_⟩
    rw [sidecars, OrderedMap.get?_insert] at there
    split at there
    · next same =>
      have own := obeys.graph specifier record found
      obtain rfl : specifier = other := (rules.named own).symm.trans same
      obtain rfl := Option.some.inj there
      refine rules.filed hash output _ own folds (fun target listed => ?_) fun listed => ?_
      all_goals
        obtain ⟨edge, inside, rfl⟩ := List.mem_map.1 listed
        obtain ⟨member, left⟩ := List.mem_filter.1 inside
      · exact ⟨edge, member, rfl⟩
      · -- a module that takes part in content hashes is not left alone
        rw [found] at left
        simp [ModuleRecord.folds] at folds
        simp [folds] at left
    · exact obeys.store.sidecar other sidecar there

end Refreshes

/-! ## The second half of a pass -/

section Settling

theorem settleOne {pass : Pass} (obeys : pass.workspace.Obeys keepsText law noted) (report : PassReport)
    (specifier : Specifier) : (pass.settleOne report specifier).1.workspace.Obeys keepsText law noted := by
  cases failed : pass.errors.get? specifier with
  | some error =>
    rw [settleOne_failed failed]
    exact obeys
  | none =>
    have entered : (pass.enter specifier).workspace.Obeys keepsText law noted :=
      ⟨rules.updateEntryFlag obeys.graph specifier, obeys.store⟩
    have refreshed := rules.refresh entered specifier ((pass.enter specifier).staged.get? specifier)
    have keeps := (attempts_refresh (pass.enter specifier).workspace specifier
      ((pass.enter specifier).staged.get? specifier)).revises
    rw [settleOne_of_clear failed]
    dsimp only
    split
    · exact entered
    · split
      · next error result =>
        obtain ⟨old, found, folds⟩ := folds_of_refresh_error (Prod.ext result rfl)
        refine ⟨refreshed.graph.modify fun record there own => rules.failed _ own ?_, refreshed.store⟩
        obtain ⟨new, there', revises⟩ := keeps.get?_of_get? found
        obtain rfl := Option.some.inj (there'.symm.trans there)
        rw [revises.isExternal]
        simp_all [ModuleRecord.folds]
      · exact refreshed
      · exact refreshed

theorem settle {pass : Pass} (obeys : pass.workspace.Obeys keepsText law noted) (touched : List Specifier) :
    (pass.settle touched).2.Obeys keepsText law noted := by
  have whole (report : PassReport) :
      (settleAll pass report touched).1.workspace.Obeys keepsText law noted := by
    induction touched generalizing pass report with
    | nil => exact obeys
    | cons specifier rest ih => exact ih (rules.settleOne obeys report specifier) _
  exact whole {}

end Settling

/-! ## Calls -/

section Calls

variable {workspace : Workspace} (obeys : workspace.Obeys keepsText law noted)

include obeys

/-- Modules that could not be repaired are compiled ones. -/
theorem refreshAll (propagation : Propagation) (specifiers : List Specifier)
    (compiled : ∀ failure ∈ propagation.failures,
      (workspace.graph.get? failure.1).any (·.isExternal) = false) :
    (workspace.refreshAll propagation specifiers).2.Obeys keepsText law noted ∧
      ∀ failure ∈ (workspace.refreshAll propagation specifiers).1.failures,
        ((workspace.refreshAll propagation specifiers).2.graph.get? failure.1).any (·.isExternal) = false := by
  induction specifiers generalizing workspace propagation with
  | nil => exact ⟨obeys, compiled⟩
  | cons specifier rest ih =>
    have step := rules.refresh obeys specifier none
    have origins := (attempts_refresh workspace specifier none).revises.keepsOrigins
    have still := fun failure member => (origins.isExternal failure.1).trans (compiled failure member)
    rw [Workspace.refreshAll]
    split <;> next refreshed =>
      rw [refreshed] at step origins still
      refine ih step _ ?_
      first
      | exact still
      | intro failure member
        rcases List.mem_append.1 member with old | new
        · exact still failure old
        · obtain rfl := List.mem_singleton.1 new
          obtain ⟨record, found, folds⟩ := folds_of_refresh_error refreshed
          rw [origins.isExternal, found]
          simp_all [ModuleRecord.folds]

theorem repairImporters (report : PassReport) (changed : Specifier) :
    (workspace.repairImporters report changed).2.Obeys keepsText law noted := by
  have refreshed := rules.refreshAll obeys {} (affected workspace.graph changed) (by simp)
  unfold Workspace.repairImporters Workspace.propagate
  generalize workspace.refreshAll {} (affected workspace.graph changed) = result at refreshed ⊢
  obtain ⟨propagation, after⟩ := result
  obtain ⟨obeys', compiled⟩ := refreshed
  refine ⟨?_, obeys'.store⟩
  have marked (failures : List (Specifier × ArtifactError)) {graph : ModuleGraph} (obeys : graph.Obeys law)
      (compiled : ∀ failure ∈ failures, (graph.get? failure.1).any (·.isExternal) = false) :
      (failures.foldl (fun graph failure => graph.modify failure.1 (·.failed failure.2.message))
        graph).Obeys law := by
    induction failures generalizing graph with
    | nil => exact obeys
    | cons failure rest ih =>
      refine ih (obeys.modify fun record found own => rules.failed _ own ?_) fun other member => ?_
      · simpa [found] using compiled failure List.mem_cons_self
      · have origins := graph.keepsOrigins_modify failure.1
          (fun _ => rfl : ∀ record : ModuleRecord, (record.failed failure.2.message).origin = record.origin)
        exact (origins.isExternal other.1).trans (compiled other (List.mem_cons_of_mem _ member))
  exact marked propagation.failures obeys'.graph compiled

variable {tools : Toolchain} (used : known tools)

include used

theorem compileAll (roots : List Specifier) (options : CompileOptions) :
    (workspace.compileAll tools roots options).2.Obeys keepsText law noted := by
  refine @compileAll_induction (·.2.Obeys keepsText law noted) workspace tools roots options ?_ ?_
  · have visited := @visitAll _ _ _ _ rules tools used { workspace } obeys options []
      (roots.map (·, options.forceRefresh))
    exact rules.settle visited _
  · exact fun report middle root obeys => rules.repairImporters obeys report root

theorem sourceChanged (specifier : Specifier) :
    (workspace.sourceChanged tools specifier).2.Obeys keepsText law noted := by
  have passed := rules.compileAll obeys used [specifier] { forceRefresh := true }
  rw [sourceChanged_eq]
  split
  · exact obeys
  · generalize workspace.compileAll tools [specifier] { forceRefresh := true } = result at passed ⊢
    obtain ⟨report, passed'⟩ := result
    dsimp only
    have middle (isRemoved : Bool) :
        (if isRemoved then passed'.remove specifier else passed').Obeys keepsText law noted := by
      cases isRemoved with
      | true => exact passed.remove specifier
      | false => exact passed
    split
    · exact middle _
    · exact rules.repairImporters (middle _) report specifier

theorem perform (call : Call) : (workspace.perform tools call).Obeys keepsText law noted := by
  cases call with
  | compile roots options => exact rules.compileAll obeys used roots options
  | notice specifier => exact rules.sourceChanged obeys used specifier

omit used in
theorem performAll (calls : List (Toolchain × Call)) (used : ∀ call ∈ calls, known call.1) :
    (workspace.performAll calls).Obeys keepsText law noted := by
  induction calls generalizing workspace with
  | nil => exact obeys
  | cons call rest ih =>
    exact ih (rules.perform obeys (used call List.mem_cons_self) call.2)
      fun other member => used other (List.mem_cons_of_mem _ member)

end Calls

end RecordLaw

end ModuleBuild
