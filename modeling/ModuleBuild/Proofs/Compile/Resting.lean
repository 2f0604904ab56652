import ModuleBuild.Proofs.Compile.Deletion
import ModuleBuild.Proofs.Compile.Steady
/-!
Modules that are at rest: nothing happens to them if they are visited and settled again with the same sources.
They are left alone, or are up to date, or fail with the error that they failed with before. After a source was
followed, all modules that were visited because of it are at rest.
-/

namespace ModuleBuild

open ModuleGraph Workspace ArtifactStore Pass

/-! ## Modules that were met -/

namespace ModuleGraph

variable {first second graph : ModuleGraph} {specifier : Specifier} {record : ModuleRecord}

theorem isMet_of_loaded (found : graph.get? specifier = some record) (loaded : record.sourceHash ≠ "") :
    graph.IsMet specifier := ⟨record, found, fun blank => loaded blank.2⟩

theorem isMet_of_ready (found : graph.get? specifier = some record) (ready : record.isReady = true) :
    graph.IsMet specifier := by
  refine ⟨record, found, fun blank => ?_⟩
  simp_all [ModuleRecord.isReady, ModuleRecord.isPending]

theorem isMet_of_errored (found : graph.get? specifier = some record) (errored : record.error?.isSome = true) :
    graph.IsMet specifier := by
  refine ⟨record, found, fun blank => ?_⟩
  have pending : record.state = .pending := by simpa [ModuleRecord.isPending] using blank.1
  simp [ModuleRecord.error?, pending] at errored

theorem IsMet.congr (met : first.IsMet specifier) (same : second.get? specifier = first.get? specifier) :
    second.IsMet specifier := by
  obtain ⟨record, found, there⟩ := met
  exact ⟨record, same.trans found, there⟩

theorem IsMet.mentioned (met : first.IsMet specifier)
    (mentioned : Mentioned specifier (first.get? specifier) (second.get? specifier)) :
    second.IsMet specifier := by
  cases mentioned with
  | same kept => exact met.congr kept
  | created absent =>
    obtain ⟨record, found, -⟩ := met
    cases absent.symm.trans found
  | external _ found => exact isMet_of_ready found rfl

theorem isMet_mentionExternal (graph : ModuleGraph) (target : Specifier) :
    (graph.mentionExternal target).IsMet target := by
  by_cases blank : ∀ record, graph.get? target = some record → record.isPending = true ∧ record.sourceHash = ""
  · exact isMet_of_ready (graph.get?_mentionExternal_of_blank blank) rfl
  · push Not at blank
    obtain ⟨record, found, there⟩ := blank
    exact IsMet.mentioned ⟨record, found, fun ⟨pending, unloaded⟩ => there pending unloaded⟩
      (graph.mentioned_mentionExternal target target)

theorem isMet_mentionExternals {targets : List Specifier} {target : Specifier} (member : target ∈ targets)
    (graph : ModuleGraph) : (targets.foldl mentionExternal graph).IsMet target := by
  induction targets generalizing graph with
  | nil => cases member
  | cons other rest ih =>
    rcases List.mem_cons.1 member with rfl | later
    · exact (graph.isMet_mentionExternal target).mentioned (mentioned_foldl mentioned_mentionExternal rest _ _)
    · exact ih later _

end ModuleGraph

namespace Pass

/-! ## Modules that fail -/

section Fails

variable {tools : Toolchain} {store : ArtifactStore} {record : ModuleRecord} {error : ModuleError}
  (inOrder : store.faults = .empty)

include inOrder

theorem FailsWith.awaiting (fails : FailsWith tools store record error) :
    FailsWith tools store (.awaiting record.specifier) error := by
  have same : reusable? tools store record = reusable? tools store (.awaiting record.specifier) := by
    rw [@reusable?_of_bare tools store inOrder (.awaiting record.specifier) rfl]
    refine (reusable?_eq tools inOrder record).resolve_right fun kept => ?_
    rcases fails with ⟨fresh, -⟩ | ⟨cause, unreadable, -⟩
    · cases kept.1.symm.trans fresh
    · cases kept.1.symm.trans unreadable
  unfold FailsWith at fails ⊢
  rwa [same] at fails

theorem FailsWith.of_bare (fails : FailsWith tools store (.awaiting record.specifier) error)
    (bare : record.output? = none) : FailsWith tools store record error := by
  have same : reusable? tools store record = reusable? tools store (.awaiting record.specifier) := by
    rw [reusable?_of_bare tools inOrder bare]
    exact (@reusable?_of_bare tools store inOrder (.awaiting record.specifier) rfl).symm
  unfold FailsWith at fails ⊢
  rwa [same]

theorem FailsWith.congr {second : ArtifactStore} {specifier : Specifier}
    (fails : FailsWith tools store (.awaiting specifier) error) (setup : SameSetup store second)
    (same : second.sidecars.get? specifier = store.sidecars.get? specifier)
    (blobs : ∀ sidecar output, store.sidecars.get? specifier = some sidecar → sidecar.output? = some output →
      second.blobs.contains output.key = store.blobs.contains output.key) :
    FailsWith tools second (.awaiting specifier) error := by
  have reusable := reusable?_awaiting_congr tools inOrder setup same blobs
  unfold FailsWith at fails ⊢
  rwa [reusable]

end Fails

/-- A module failed, and does so again as long as its source stays. -/
structure Refused (tools : Toolchain) (store : ArtifactStore) (graph : ModuleGraph) (specifier : Specifier)
    (error : ModuleError) : Prop where
  found : ∃ record : ModuleRecord, graph.get? specifier = some (record.failed error.message) ∧
    record.isExternal = false
  fails : FailsWith tools store (.awaiting specifier) error
  met : ∀ target ∈ mentionedBy tools specifier error, graph.IsMet target

section Turn

variable {tools : Toolchain} (options : CompileOptions) {pass : Pass}

theorem isMet_visit (keyed : pass.workspace.graph.Keyed) {other : Specifier}
    (met : pass.workspace.graph.IsMet other) (specifier : Specifier) (isForced : Bool) :
    (pass.visit tools options specifier isForced).1.workspace.graph.IsMet other := by
  have turn := hasTurn_visit tools options keyed specifier isForced
  by_cases same : other = specifier
  · subst same
    by_cases due : pass.IsDue other isForced
    · rcases visit_cases tools options pass other isForced with ⟨idle, -⟩ | ⟨-, found, visit⟩
      · exact absurd due idle
      have keyed' : (pass.workspace.graph.mention other).Keyed :=
        keyed_of_mentioned keyed (pass.workspace.graph.mentioned_mention other)
      have named := keyed' other _ found
      have built := buildsFrom_build tools (pass.setGraph (pass.workspace.graph.mention other))
        ((pass.workspace.graph.get? other).getD (.awaiting other))
      rw [visit]
      unfold compileOrFail
      rw [named] at built
      generalize build tools _ _ = result at built ⊢
      obtain ⟨result, after⟩ := result
      cases result with
      | error error =>
        obtain ⟨record, there, -⟩ := met.mentioned
          ((pass.workspace.graph.mentioned_mention other other).trans (built.error error rfl other))
        have failed := get?_modify after.workspace.graph other other (·.failed error.message)
        rw [if_pos rfl, there, Option.map_some] at failed
        exact isMet_of_errored failed rfl
      | ok targets =>
        obtain ⟨source, edges, -, set, -⟩ := built.ok targets rfl
        obtain ⟨new, there, -, loaded, -⟩ := set.own _ found named
        exact isMet_of_loaded there (by rw [loaded]; exact sourceHash_ne _)
    · exact met.mentioned (turn.idle due).record
  · exact met.mentioned (turn.others other same).record

variable {astray : String → Prop} {base : Workspace} {claimed : List Specifier} {specifier : Specifier}

theorem Refused.congr {first second : ModuleGraph} {store : ArtifactStore} {error : ModuleError}
    (refused : Refused tools store first specifier error)
    (same : second.get? specifier = first.get? specifier) (met : ∀ other, first.IsMet other → second.IsMet other) :
    Refused tools store second specifier error := by
  obtain ⟨record, found, compiled⟩ := refused.found
  exact ⟨⟨record, same.trans found, compiled⟩, refused.fails, fun target member =>
    met target (refused.met target member)⟩

theorem not_mem_mentionedBy (spares : tools.SparesItself specifier) (error : ModuleError) :
    specifier ∉ mentionedBy tools specifier error := by
  intro member
  cases error with
  | resolve cause =>
    obtain ⟨item, inside, same⟩ := List.mem_map.1 member
    obtain ⟨listed, left⟩ := List.mem_filter.1 inside
    exact spares item listed left same
  | load => cases member
  | unsupportedKind => cases member
  | artifact => cases member
  | transpile => cases member

/-- A module that fails when it has its turn does so again. -/
theorem refused_compileOrFail (spares : tools.SparesItself specifier)
    (inOrder : pass.workspace.store.faults = .empty) (keyed : pass.workspace.graph.Keyed) {record : ModuleRecord}
    (found : pass.workspace.graph.get? specifier = some record) (compiled : record.isExternal = false)
    (clear : pass.errors.get? specifier = none) {error : ModuleError}
    (errors : (pass.compileOrFail tools specifier record).1.errors.get? specifier = some error) :
    Refused tools pass.workspace.store (pass.compileOrFail tools specifier record).1.workspace.graph specifier
      error := by
  obtain rfl := keyed specifier record found
  have yields := yields_build tools inOrder record
  unfold compileOrFail at errors ⊢
  generalize build tools pass record = result at yields errors ⊢
  cases yields with
  | failed error' opened alike fails =>
    obtain rfl : error' = error :=
      Option.some.inj (((OrderedMap.get?_insert _ _ _ _).trans (if_pos rfl)).symm.trans errors)
    have apart := not_mem_mentionedBy spares error'
    have there := get?_modify ((mentionedBy tools record.specifier error').foldl mentionExternal
      opened.workspace.graph) record.specifier
    refine ⟨⟨record, ?_, compiled⟩, fails.awaiting inOrder, fun target member => ?_⟩
    · refine (there record.specifier _).trans ((if_pos rfl).trans ?_)
      rw [get?_mentionExternals_of_not_mem _ apart, alike.graph, found, Option.map_some]
    · have differ : record.specifier ≠ target := fun same => apart (same ▸ member)
      exact (isMet_mentionExternals member _).congr ((there target _).trans (if_neg differ))
  | compiled image opened alike =>
    cases ((congrArg (·.get? record.specifier) alike.errors).trans clear).symm.trans errors
  | restored source restored opened alike =>
    cases ((congrArg (·.get? record.specifier) alike.errors).trans clear).symm.trans errors

theorem Refused.contents {first second : ArtifactStore} {graph : ModuleGraph} {error : ModuleError}
    (refused : Refused tools first graph specifier error) (inOrder : first.faults = .empty)
    (setup : SameSetup first second) (same : second.sidecars.get? specifier = first.sidecars.get? specifier)
    (blobs : ∀ sidecar output, first.sidecars.get? specifier = some sidecar → sidecar.output? = some output →
      second.blobs.contains output.key = first.blobs.contains output.key) :
    Refused tools second graph specifier error :=
  ⟨refused.found, refused.fails.congr inOrder setup same blobs, refused.met⟩

def RefusesAgain (tools : Toolchain) (store : ArtifactStore) (pass : Pass) : Prop :=
  ∀ specifier error, pass.errors.get? specifier = some error →
    Refused tools store pass.workspace.graph specifier error

theorem RefusesAgain.visit (spares : tools.SparesItself specifier) (turns : TakesTurns astray base claimed pass)
    (fresh : specifier ∉ claimed) (refuses : RefusesAgain tools base.store pass) (isForced : Bool) :
    RefusesAgain tools base.store (pass.visit tools options specifier isForced).1 := by
  have keyed := turns.stocks.keyed
  have turn := hasTurn_visit tools options keyed specifier isForced
  obtain ⟨-, -, clear⟩ := turns.unstarted specifier fresh
  intro other error errors
  by_cases own : other = specifier
  · subst own
    rcases visit_cases tools options pass other isForced with ⟨idle, -⟩ | ⟨due, found, visit⟩
    · cases ((turn.idle idle).errors.trans clear).symm.trans errors
    have compiled := (Bool.or_eq_false_iff.1 ((isDue_iff pass other isForced).1 due)).1
    let mentioned := pass.setGraph (pass.workspace.graph.mention other)
    have inOrder : mentioned.workspace.store.faults = .empty := turns.stocks.inOrder
    rw [visit] at errors ⊢
    have refused := refused_compileOrFail spares inOrder
      (keyed_of_mentioned keyed (pass.workspace.graph.mentioned_mention other)) found compiled clear errors
    exact refused.contents inOrder
      ⟨turns.contents.setup.faults.symm, turns.contents.setup.metadata.symm,
        turns.contents.setup.keepsText.symm⟩
      (congrArg (·.get? other) turns.contents.sidecars.symm)
      fun _ output _ _ => congrArg (·.contains output.key) turns.contents.blobs.symm
  · have refused := refuses other error ((turn.others other own).errors.symm.trans errors)
    obtain ⟨record, found, -⟩ := refused.found
    have kept := (turn.others other own).record.of_errored found rfl
    exact refused.congr (kept.trans found.symm) fun _ met => isMet_visit options keyed met specifier isForced

theorem refusesAgain_visitAll (spares : ∀ specifier, tools.SparesItself specifier) (claimed : List Specifier)
    (pass : Pass) (work : List (Specifier × Bool)) (turns : TakesTurns astray base claimed pass)
    (refuses : RefusesAgain tools base.store pass) :
    RefusesAgain tools base.store (visitAll tools options claimed pass work).1 := by
  induction claimed, pass, work using visitAll_induction tools options with
  | done claimed pass =>
    rw [visitAll]
    exact refuses
  | old claimed pass other isForced rest old ih =>
    rw [visitAll_of_mem tools options old]
    exact ih turns refuses
  | turn claimed pass other isForced rest targets fresh _ next ih =>
    rw [next]
    exact ih (turns.visit fresh tools options isForced) (refuses.visit options (spares other) turns fresh isForced)

end Turn

end Pass

/-! ## Modules at rest -/

/-- A module is left alone or up to date, and its record says whether it is a dynamic entry. -/
def ModuleGraph.IsQuiet (graph : ModuleGraph) (specifier : Specifier) : Prop :=
  ∃ record, graph.get? specifier = some record ∧
    record.flags.isDynamicEntryOnly = graph.isDynamicEntry specifier ∧
    (record.isExternal = true ∨ graph.isSettled specifier = true)

/-- Nothing becomes of a module if it is visited again: it is quiet, or fails as it did before. -/
def Rested (tools : Toolchain) (workspace : Workspace) (specifier : Specifier) : Prop :=
  workspace.graph.IsQuiet specifier ∨
    ∃ error, Refused tools workspace.store workspace.graph specifier error

namespace Pass

theorem isSettled_of_consistent {graph : ModuleGraph} {store : ArtifactStore} {record : ModuleRecord}
    (found : graph.get? record.specifier = some record) (ready : record.isReady = true)
    (consistent : Consistent graph store record) : graph.isSettled record.specifier = true := by
  simp [isSettled, found, ready, isCurrent, consistent.hashed]

theorem SettledTo.quiet {first : Pass} {last : Workspace} {specifier : Specifier}
    (settled : SettledTo first last specifier) (indexed : last.graph.Indexed)
    (clear : first.errors.get? specifier = none) : last.graph.IsQuiet specifier := by
  cases settled with
  | failed errors => cases clear.symm.trans errors
  | left _ _ left there => exact ⟨_, there, rfl, .inl left⟩
  | current _ _ _ there settled => exact ⟨_, there, rfl, .inr settled⟩
  | refreshed _ there ready _ entry consistent =>
    obtain rfl := indexed.keyed there
    exact ⟨_, there, entry, .inr (isSettled_of_consistent there ready consistent)⟩

theorem SettlesStocks.isMet {astray : String → Prop} {work : List Specifier} {first last : Pass}
    {earlier later : PassReport} (settles : SettlesStocks astray work first last earlier later)
    {specifier : Specifier} (met : first.workspace.graph.IsMet specifier) :
    last.workspace.graph.IsMet specifier := by
  by_cases member : specifier ∈ work
  · cases settles.settled specifier member with
    | failed _ same => exact met.congr same
    | left _ found _ there =>
      obtain ⟨record, found', unblank⟩ := met
      obtain rfl := Option.some.inj (found.symm.trans found')
      exact ⟨_, there, unblank⟩
    | current _ _ ready there => exact isMet_of_ready there ready
    | refreshed _ there ready => exact isMet_of_ready there ready
  · exact met.congr (settles.others specifier member)

end Pass

section Repaired

variable {astray : String → Prop} {changed specifier : Specifier} {before after : Workspace}
  (repaired : Repaired astray changed before after) (indexed : before.graph.Indexed)

include repaired

omit indexed in
theorem Repaired.get?_of_ready {record : ModuleRecord} (found : before.graph.get? specifier = some record)
    (ready : record.isReady = true) :
    ∃ contentHash output?, after.graph.get? specifier = some { record with contentHash, output? } :=
  repaired.steps.get?_touched found (by simpa [ModuleRecord.isReady] using ready)

include indexed

theorem Repaired.isMet (met : before.graph.IsMet specifier) : after.graph.IsMet specifier := by
  -- only ready records are touched by a repair
  by_cases ready : ∀ record, before.graph.get? specifier = some record → record.isReady = false
  · exact met.congr (repaired.get?_of_unready indexed ready)
  · push Not at ready
    obtain ⟨record, found, unready⟩ := ready
    have ready : record.isReady = true := by simpa using unready
    obtain ⟨contentHash, output?, there⟩ := repaired.get?_of_ready found ready
    exact isMet_of_ready there ready

theorem Repaired.isQuiet (quiet : before.graph.IsQuiet specifier) : after.graph.IsQuiet specifier := by
  obtain ⟨record, found, entry, quiet⟩ := quiet
  have revises := repaired.steps.revises
  rw [← revises.isDynamicEntry] at entry
  by_cases member : specifier ∈ affected before.graph changed
  · obtain ⟨-, -, _, found', ready⟩ := (mem_affected indexed).1 member
    obtain rfl := Option.some.inj (found.symm.trans found')
    obtain ⟨contentHash, output?, there⟩ := repaired.get?_of_ready found ready
    refine ⟨_, there, entry, ?_⟩
    cases left : record.isExternal with
    | true => exact .inl rfl
    | false =>
      have folds := ((repaired.stocks.record there).of_ready ready left).folds
      have consistent := repaired.consistent specifier member _ there folds
      obtain rfl := repaired.stocks.indexed.keyed there
      exact .inr (isSettled_of_consistent there ready consistent)
  · have same := repaired.steps.get?_other member
    exact ⟨record, same.trans found, entry, quiet.imp_right (isSettled_congr revises same).trans⟩

theorem Repaired.within {modules : Specifier → Prop}
    (within : ∀ {other record}, after.graph.get? other = some record → modules other) :
    ∀ other ∈ affected before.graph changed, modules other := by
  intro other member
  obtain ⟨-, -, record, found, ready⟩ := (mem_affected indexed).1 member
  obtain ⟨_, _, there⟩ := repaired.get?_of_ready found ready
  exact within there

omit indexed in
theorem Repaired.sameOwn {modules : Specifier → Prop} (distinct : DigestsDistinct modules)
    (within : ∀ other ∈ affected before.graph changed, modules other) (known : modules specifier)
    (apart : specifier ∉ affected before.graph changed) : before.store.SameOwn after.store specifier :=
  ⟨repaired.steps.blobs_other distinct within known apart, repaired.steps.sidecars_other apart⟩

end Repaired

section Follow

variable {astray : String → Prop} {tools : Toolchain} {specifier : Specifier} {base : Workspace} {first : Pass}
  {touched : List Specifier} {last : Pass} {middle after : Workspace}
  (follows : FollowsStock astray tools specifier base first touched last middle after)

namespace FollowsStock

include follows

theorem isQuiet (stays : middle = last.workspace) {other : Specifier} (member : other ∈ touched)
    (clear : first.errors.get? other = none) : after.graph.IsQuiet other := by
  obtain ⟨report, -, settles⟩ := follows.settles
  subst stays
  exact follows.repaired.isQuiet follows.stocks.indexed
    ((settles.settled other member).quiet follows.stocks.indexed clear)

variable (stocks : Stocks astray .clear base) (spares : ∀ specifier, tools.SparesItself specifier)

include stocks spares

theorem refusesAgain : RefusesAgain tools base.store first := by
  have refuses := refusesAgain_visitAll { forceRefresh := true } spares [] { workspace := base }
    [(specifier, true)] (.start stocks) nofun
  rwa [follows.visited] at refuses

variable {modules : Specifier → Prop} (distinct : DigestsDistinct modules)
  (within : ∀ {other record}, after.graph.get? other = some record → modules other)

include distinct within

theorem refused (stays : middle = last.workspace) {other : Specifier} {error : ModuleError}
    (errors : first.errors.get? other = some error) : Refused tools after.store after.graph other error := by
  obtain ⟨report, -, settles⟩ := follows.settles
  subst stays
  have indexed := follows.stocks.indexed
  have refused := follows.refusesAgain stocks spares other error errors
  obtain ⟨record, found, -⟩ := refused.found
  have same := settles.get?_of_error (List.mem_reverse.1 (follows.turns.mem_of_error errors)) errors
  have unready (new : ModuleRecord) (there : last.workspace.graph.get? other = some new) :
      new.isReady = false := by
    rw [same, found] at there
    exact Option.some.inj there ▸ rfl
  have same' := follows.repaired.get?_of_unready indexed unready
  have apart : other ∉ affected last.workspace.graph specifier := by
    intro inside
    obtain ⟨-, -, new, there, ready⟩ := (mem_affected indexed).1 inside
    cases (unready new there).symm.trans ready
  have own := ((follows.turns.contents.sameOwn other).trans
    (settles.sameOwn other _ found (.inr (errors ▸ Option.some_ne_none _)))).trans
    (follows.repaired.sameOwn distinct (follows.repaired.within indexed within)
      (within (same'.trans (same.trans found))) apart)
  refine (refused.congr (same'.trans same) fun next met =>
    follows.repaired.isMet indexed (settles.isMet met)).contents stocks.inOrder
      ((follows.turns.contents.setup.trans settles.setup).trans follows.repaired.steps.setup) own.sidecar ?_
  intro sidecar output noted own'
  obtain ⟨output', hash, _, noted', key, -⟩ := (stocks.sidecar noted).code
  obtain rfl := Option.some.inj (noted'.symm.trans own')
  simp only [OrderedMap.contains, key, own.blobs]

/-- All that was visited because a source was followed is at rest, unless the source's module was taken out. -/
theorem rested (stays : middle = last.workspace) {other : Specifier} (member : other ∈ touched) :
    Rested tools after other := by
  cases errors : first.errors.get? other with
  | none => exact .inl (follows.isQuiet stays member errors)
  | some error => exact .inr ⟨error, follows.refused stocks spares distinct within stays errors⟩

end FollowsStock

end Follow

end ModuleBuild
