import ModuleBuild.Proofs.Compile.Incremental
import ModuleBuild.Proofs.Compile.Leftovers
import ModuleBuild.Proofs.Compile.StockCalls
import ModuleBuild.Proofs.Compile.Takeover
/-!
What becomes of a module whose source is deleted. Its record and its sidecar go, its code stays in the store,
and modules that import it keep their edges to it, so that it is known when its source comes back.
-/

namespace ModuleBuild

open ModuleGraph Workspace ArtifactStore Pass Relation

namespace Pass

def looksInVain (pass : Pass) (specifier : Specifier) : Pass :=
  let mentioned := pass.setGraph (pass.workspace.graph.mention specifier)
  ({ mentioned with loads := specifier :: pass.loads } : Pass).fail specifier (.load (.notFound specifier))

section Missing

variable {tools : Toolchain} {specifier : Specifier} (missing : tools.sources.get? specifier = none)
  (options : CompileOptions) {pass : Pass} (keyed : pass.workspace.graph.Keyed)

include missing keyed in
theorem visit_missing {isForced : Bool} (due : pass.IsDue specifier isForced) :
    pass.visit tools options specifier isForced = (pass.looksInVain specifier, []) := by
  rcases visit_cases tools options pass specifier isForced with ⟨idle, -⟩ | ⟨-, found, visit⟩
  · exact absurd due idle
  · have named : ((pass.workspace.graph.get? specifier).getD (.awaiting specifier)).specifier = specifier := by
      cases there : pass.workspace.graph.get? specifier with
      | none => rfl
      | some record => exact keyed specifier record there
    have load : tools.sources.load specifier = .error (.notFound specifier) := by
      simp [SourceTree.load, missing]
    rw [visit]
    simp only [compileOrFail, build, named, load, ite_self]
    rfl

omit keyed in
theorem get?_looksInVain (pass : Pass) (specifier other : Specifier) :
    (pass.looksInVain specifier).workspace.graph.get? other =
      if specifier = other then
        some (((pass.workspace.graph.get? specifier).getD (.awaiting specifier)).failed
          (ModuleError.load (.notFound specifier)).message)
      else pass.workspace.graph.get? other := by
  refine (get?_modify _ _ _ _).trans ?_
  have mentioned := get?_mention pass.workspace.graph specifier
  split
  · exact congrArg (Option.map _) ((mentioned specifier).trans (if_pos rfl))
  · next differ => exact (mentioned other).trans (if_neg differ)

omit keyed in
theorem errors_looksInVain (pass : Pass) (specifier : Specifier) :
    (pass.looksInVain specifier).errors.get? specifier = some (.load (.notFound specifier)) :=
  (OrderedMap.get?_insert _ _ _ _).trans (if_pos rfl)

end Missing

/-- A module that was not known and compiles is built anew. -/
theorem visit_absent {astray : String → Prop} {base : Workspace} {specifier : Specifier}
    (absent : base.graph.get? specifier = none) (stocks : Stocks astray .clear base)
    {tools : Toolchain} (options : CompileOptions) {isForced : Bool} {image : Image}
    (is : tools.image? specifier = .ok image) (spared : specifier ∉ image.externals) :
    let after := (({ workspace := base } : Pass).visit tools options specifier isForced).1
    after.errors.get? specifier = none ∧
      after.workspace.graph.get? specifier = some (prepare image (.awaiting specifier)) := by
  have due : ({ workspace := base } : Pass).IsDue specifier isForced := by simp [IsDue, absent]
  rcases visit_cases tools options { workspace := base } specifier isForced with
    ⟨idle, -⟩ | ⟨-, found, visit⟩
  · exact absurd due idle
  have bare : base.store.sidecars.get? specifier = none := by
    by_contra noted
    obtain ⟨sidecar, noted⟩ := Option.ne_none_iff_exists'.1 noted
    obtain ⟨record, there, -⟩ := (stocks.sidecar noted).record
    cases absent.symm.trans there
  have fresh : reusable? tools base.store (.awaiting specifier) = .ok none :=
    (reusable?_of_bare tools stocks.inOrder rfl).trans (offered?_of_unknown tools stocks.inOrder bare)
  simp only [absent, Option.getD_none] at found visit
  let mentioned := setGraph { workspace := base } (base.graph.mention specifier)
  have inOrder : mentioned.workspace.store.faults = .empty := stocks.inOrder
  have yields := yields_build tools inOrder (.awaiting specifier)
  rw [visit]
  unfold compileOrFail
  generalize build tools mentioned (.awaiting specifier) = result at yields ⊢
  cases yields with
  | failed error opened alike fails =>
    rcases fails with ⟨-, fails⟩ | ⟨cause, unreadable, -⟩
    · cases is.symm.trans fails
    · cases fresh.symm.trans unreadable
  | compiled image' opened alike _ is' =>
    obtain rfl := Except.ok.inj (is.symm.trans is')
    obtain ⟨old, there, same⟩ := get?_install (alike.graph ▸ found) image.externals (prepare image)
      (fun _ => image.source_ne) (distinctTargets image.edges)
    obtain rfl := same.resolve_right fun left => spared left.2.2
    exact ⟨congrArg (·.get? specifier) alike.errors, there⟩
  | restored _ _ _ _ _ _ taken => cases fresh.symm.trans taken

end Pass

theorem FollowsStock.looksInVain_of_missing {astray : String → Prop} {tools : Toolchain} {specifier : Specifier}
    {base : Workspace} {first : Pass} {touched : List Specifier} {last : Pass} {middle after : Workspace}
    (follows : FollowsStock astray tools specifier base first touched last middle after)
    (missing : tools.sources.get? specifier = none) (keyed : base.graph.Keyed)
    (compiled : (base.graph.get? specifier).any (·.isExternal) = false) :
    first = looksInVain { workspace := base } specifier ∧ touched = [specifier] := by
  have due : ({ workspace := base } : Pass).IsDue specifier true := ⟨compiled, fun _ => rfl⟩
  have visited := visitAll_single (visit_missing missing { forceRefresh := true } keyed due)
  exact (Prod.mk.inj (visited.symm.trans follows.visited)).imp Eq.symm Eq.symm

/-- A module whose source is gone is taken out, and the others keep their records until its importers are
repaired. -/
theorem FollowsStock.middle_of_missing {astray : String → Prop} {tools : Toolchain} {specifier : Specifier}
    {base : Workspace} {first : Pass} {touched : List Specifier} {last : Pass} {middle after : Workspace}
    (follows : FollowsStock astray tools specifier base first touched last middle after)
    (missing : tools.sources.get? specifier = none) (keyed : base.graph.Keyed) {record : ModuleRecord}
    (found : base.graph.get? specifier = some record) (compiled : record.isExternal = false) :
    middle = last.workspace.remove specifier ∧
      ∀ other, other ≠ specifier → middle.graph.get? other = base.graph.get? other := by
  obtain ⟨rfl, rfl⟩ := follows.looksInVain_of_missing missing keyed (by simpa [found] using compiled)
  obtain ⟨report, -, settles⟩ := follows.settles
  have errors := errors_looksInVain { workspace := base } specifier
  obtain rfl : middle = last.workspace.remove specifier := by
    refine (follows.out.resolve_right fun kept => kept.1 ?_).2
    exact ⟨⟨record, found⟩, _, errors, rfl⟩
  refine ⟨rfl, fun other differ => (get?_remove_other _ differ).trans ?_⟩
  refine (settles.others other fun member => differ (List.mem_singleton.1 member)).trans ?_
  exact (get?_looksInVain { workspace := base } specifier other).trans (if_neg (Ne.symm differ))

section Delete

variable {modules : Specifier → Prop} (distinct : DigestsDistinct modules) {astray : String → Prop}
  {base : Workspace} (stocks : Stocks astray .clear base) {tools : Toolchain} {specifier : Specifier}
  (within : ∀ {other record}, base.graph.get? other = some record ∨
    (base.sourceChanged tools specifier).2.graph.get? other = some record → modules other)

include distinct stocks within

/-- A module whose source is gone is taken out. What is stored as its code stays. -/
theorem sourceChanged_gone {record : ModuleRecord} (found : base.graph.get? specifier = some record)
    (compiled : record.isExternal = false) (missing : tools.sources.get? specifier = none) :
    let after := (base.sourceChanged tools specifier).2
    after.graph.get? specifier = none ∧
      (∀ hash, after.store.blobs.get? (artifactKey specifier hash) =
        base.store.blobs.get? (artifactKey specifier hash)) ∧
      ∀ other, other ≠ specifier → after.graph.dependencies other = base.graph.dependencies other := by
  rcases followsStock distinct stocks tools specifier within with
    ⟨-, absent, -⟩ | ⟨first, touched, last, middle, follows⟩
  · cases absent.symm.trans found
  generalize (base.sourceChanged tools specifier).2 = after at within follows ⊢
  obtain ⟨rfl, kept⟩ := follows.middle_of_missing missing stocks.keyed found compiled
  obtain ⟨rfl, rfl⟩ := follows.looksInVain_of_missing missing stocks.keyed (by simpa [found] using compiled)
  obtain ⟨report, -, settles⟩ := follows.settles
  have errors := errors_looksInVain { workspace := base } specifier
  have looked := get?_looksInVain { workspace := base } specifier
  have own := (settles.get?_of_error List.mem_cons_self errors).trans ((looked specifier).trans (if_pos rfl))
  have apart : specifier ∉ affected (last.workspace.remove specifier).graph specifier := fun member =>
    ((mem_affected follows.stocks.indexed).1 member).1 rfl
  have knownTo : ∀ other ∈ affected (last.workspace.remove specifier).graph specifier, modules other := by
    intro other member
    obtain ⟨-, -, new, there, -⟩ := (mem_affected follows.stocks.indexed).1 member
    obtain ⟨_, there', -⟩ := follows.repaired.steps.revises.get?_of_get? there
    exact within (.inr there')
  have removed := remove_eq settles.stocks.inOrder own (by rfl)
  refine ⟨?_, fun hash => ?_, fun other differ => ?_⟩
  · rw [follows.repaired.steps.get?_other apart, get?_remove, if_pos rfl]
  · rw [follows.repaired.steps.blobs_other distinct knownTo (within (.inl found)) apart, removed]
    exact (settles.sameOwn specifier _ ((looked specifier).trans (if_pos rfl))
      (.inr (errors ▸ Option.some_ne_none _))).blobs hash
  · rw [follows.repaired.steps.revises.dependencies]
    exact dependencies_congr (kept other differ)

theorem sourceChanged_gone_apart {record : ModuleRecord} (found : base.graph.get? specifier = some record)
    (compiled : record.isExternal = false) (missing : tools.sources.get? specifier = none) {other : Specifier}
    (differ : other ≠ specifier) (apart : ¬ TransGen base.graph.Imports other specifier) :
    (base.sourceChanged tools specifier).2.graph.get? other = base.graph.get? other := by
  rcases followsStock distinct stocks tools specifier within with
    ⟨-, absent, -⟩ | ⟨first, touched, last, middle, follows⟩
  · cases absent.symm.trans found
  obtain ⟨removed, kept⟩ := follows.middle_of_missing missing stocks.keyed found compiled
  have imports {importer target : Specifier} (imports : middle.graph.Imports importer target) :
      base.graph.Imports importer target := by
    by_cases same : importer = specifier
    · subst same
      obtain ⟨new, there⟩ := imports.get?
      rw [removed, get?_remove, if_pos rfl] at there
      cases there
    · exact (imports_congr target (dependencies_congr (kept importer same))).1 imports
  rw [follows.repaired.steps.get?_other fun member => ?_, kept other differ]
  exact apart (TransGen.mono (fun _ _ => imports) _ _ ((mem_affected follows.stocks.indexed).1 member).2.1)

/-- A module that compiles and is imported gets its source, whether it was known or not. -/
theorem sourceChanged_back (absent : base.graph.get? specifier = none) {importer : Specifier}
    (imports : base.graph.Imports importer specifier) {image : Image}
    (is : tools.image? specifier = .ok image) (spared : specifier ∉ image.externals) :
    ∃ record, (base.sourceChanged tools specifier).2.graph.get? specifier = some record ∧
      record.isReady = true ∧ record.sourceHash = image.source := by
  rcases followsStock distinct stocks tools specifier within with
    ⟨-, -, unused⟩ | ⟨first, touched, last, middle, follows⟩
  · have member := (mem_dependents stocks.indexed).2 imports
    rw [unused] at member
    cases member
  generalize (base.sourceChanged tools specifier).2 = after at within follows ⊢
  -- the module waits after its turn, so that it can only have been refreshed when the pass settled
  obtain ⟨member, passes⟩ := visitAll_first stocks.keyed follows.visited
  obtain ⟨clear, there⟩ := visit_absent absent stocks { forceRefresh := true } is spared
  have loaded : (prepare image (.awaiting specifier)).sourceHash ≠ "" := image.source_ne
  have found := passes.record.of_loaded there loaded
  have clear' : first.errors.get? specifier = none := passes.errors.trans clear
  obtain ⟨report, -, settles⟩ := follows.settles
  obtain ⟨record, settled, ready⟩ : ∃ record, last.workspace.graph.get? specifier = some record ∧
      record.isReady = true := by
    cases settles.settled specifier member with
    | failed errors => cases clear'.symm.trans errors
    | left _ found' left =>
      obtain rfl := Option.some.inj (found.symm.trans found')
      cases left
    | current _ found' ready =>
      obtain rfl := Option.some.inj (found.symm.trans found')
      cases ready
    | refreshed _ there ready => exact ⟨_, there, ready⟩
  obtain ⟨old, found', revises⟩ := settles.revises.of_get? settled
  obtain rfl := Option.some.inj (found.symm.trans found')
  obtain rfl : middle = last.workspace := by
    refine (follows.out.resolve_left fun out => ?_).2
    obtain ⟨⟨-, _, errors, -⟩, -⟩ := out
    cases clear'.symm.trans errors
  refine ⟨record, ?_, ready, revises.sourceHash⟩
  rw [follows.repaired.steps.get?_other fun member => ((mem_affected follows.stocks.indexed).1 member).1 rfl]
  exact settled

end Delete

/-- After any calls, every ready module that is compiled has its code in the store, and all other code there
was left behind by a call that turned its module from a ready one into one that is not. Sidecars belong to
modules that have records. -/
theorem performAll_stores_ready_or_abandoned (workspace : Workspace) (blank : workspace.IsBlank)
    (calls : List (Toolchain × Call)) (distinct : DigestsDistinct (Met workspace calls)) :
    let after := workspace.performAll calls
    (∀ specifier record, after.graph.get? specifier = some record → record.isReady = true →
      record.isExternal = false → ∃ output code, record.output? = some output ∧
        after.store.blobs.get? output.key = some code) ∧
    (∀ key code, after.store.blobs.get? key = some code →
      (∃ specifier record output, after.graph.get? specifier = some record ∧ record.isReady = true ∧
        record.isExternal = false ∧ record.output? = some output ∧ output.key = key) ∨
      Abandoned workspace calls key) ∧
    ∀ specifier sidecar, after.store.sidecars.get? specifier = some sidecar →
      ∃ record, after.graph.get? specifier = some record := by
  have stocks := blank.stocks_performAll distinct calls List.prefix_rfl
  refine ⟨fun specifier record found ready compiled => ?_, fun key code stored => ?_,
    fun specifier sidecar noted => ?_⟩
  · obtain ⟨code, source, -⟩ := ((stocks.record found).of_ready ready compiled).code
    obtain ⟨output, -, own, -, stored⟩ := (source.resolve_left nofun).2
    exact ⟨output, code, own, stored⟩
  · refine (stocks.keys stored).imp_left ?_
    rintro ⟨specifier, record, output, found, own, same⟩
    obtain ⟨ready, compiled⟩ := (stocks.record found).output?_ne_none_iff.1 (by simp [own])
    exact ⟨specifier, record, output, found, ready, compiled, own, same⟩
  · obtain ⟨record, found, -⟩ := (stocks.sidecar noted).record
    exact ⟨record, found⟩

/-- A module that another one imports comes back: if its source is deleted and followed, and then a source that
compiles is put in its place and followed, the module is ready with the hash of the new source. -/
theorem sourceChanged_brings_back (workspace : Workspace) (blank : workspace.IsBlank)
    (calls : List (Toolchain × Call)) (gone back : Toolchain) (specifier importer : Specifier)
    (distinct : DigestsDistinct
      (Met workspace (calls ++ [(gone, .notice specifier), (back, .notice specifier)])))
    {record : ModuleRecord} (found : (workspace.performAll calls).graph.get? specifier = some record)
    (compiled : record.isExternal = false) (apart : importer ≠ specifier)
    (imports : (workspace.performAll calls).graph.Imports importer specifier)
    (missing : gone.sources.get? specifier = none) {source : Source}
    (load : back.sources.load specifier = .ok source) {image : Image}
    (compiles : back.image? specifier = .ok image) (spares : back.SparesItself specifier) :
    let deleted := ((workspace.performAll calls).sourceChanged gone specifier).2
    ∃ new, (deleted.sourceChanged back specifier).2.graph.get? specifier = some new ∧
      new.isReady = true ∧ new.sourceHash = sourceHash source.bytes := by
  intro deleted
  have stocks := blank.stocks_performAll distinct calls (List.prefix_append _ _)
  obtain ⟨absent, -, dependencies⟩ := sourceChanged_gone distinct stocks
    (fun there => met_then (there.imp_right .inl)) found compiled missing
  have imports' : deleted.graph.Imports importer specifier :=
    (imports_congr specifier (dependencies importer apart)).2 imports
  obtain ⟨new, there, ready, hash⟩ := sourceChanged_back distinct (blank.stocks_then distinct)
    (fun there => met_then (.inr there)) absent imports' compiles (spares.not_mem_externals compiles)
  obtain ⟨loaded, -, load', -, -, bytes, -⟩ := Toolchain.image?_eq_ok compiles
  obtain rfl := Except.ok.inj (load.symm.trans load')
  exact ⟨new, there, ready, by rw [hash, Image.source, bytes]⟩

section Fork

theorem distinct_met_fork {calls : List (Toolchain × Call)} (used : ∀ call ∈ calls, IsForkVersion call.1)
    (rooted : ∀ call ∈ calls, ∀ root ∈ call.2.roots, root ∈ forkRoots) :
    DigestsDistinct (Met {} calls) := by
  have coherent := coherent_fork isFork_of_version
  have reached {specifier : Specifier} (met : Met {} calls specifier) :
      Reached IsForkVersion forkRoots specifier false := by
    obtain ⟨isExternal, reached⟩ := coherent.reached_of_met ⟨rfl, rfl, rfl, rfl⟩ rfl used
      (fun call member root inside => .root (rooted call member root inside)) met
    exact (reached_fork isFork_of_version reached).1 ▸ reached
  exact fun first second one two => coherent.distinct first second (reached one) (reached two)

theorem compileAll_grownFork :
    let base := ({} : Workspace).performAll [(grownFork, .compile forkRoots {})]
    (∃ record, base.graph.get? ⟨"app:d"⟩ = some record ∧ record.isExternal = false ∧
      record.isReady = true) ∧ base.graph.Imports ⟨"app:a"⟩ ⟨"app:d"⟩ := by
  have scope := (coherent_fork isFork_of_version).scope
  have used : IsForkVersion grownFork := .inl rfl
  have blank : ({} : Workspace).IsBlank := ⟨rfl, rfl, rfl, rfl⟩
  have run := compileAll_ok scope blank.sound used blank.givesBack fun root member => .root member
  have same : ({} : Workspace).performAll [(grownFork, .compile forkRoots {})] =
    (({} : Workspace).compileAll grownFork forkRoots).2 := rfl
  rw [same]
  generalize ({} : Workspace).compileAll grownFork forkRoots = result at run ⊢
  obtain ⟨report, base⟩ := result
  obtain ⟨touched, errors, compiled, reaches, -⟩ := run
  have first : (⟨"app:a"⟩ : Specifier) ∈ touched :=
    reaches.done (⟨"app:a"⟩, false) (List.mem_map.2 ⟨_, List.mem_cons_self, rfl⟩)
  have view : grownFork.view? ⟨"app:a"⟩ = some ([], [⟨"app:d"⟩]) := by decide
  have view' : grownFork.view? ⟨"app:d"⟩ = some ([], []) := by decide
  have third := reaches.onward rfl _ first (.inl fun _ found => absurd found blank.not_found) _
    (cites_of_view view (List.mem_singleton_self _) (Reached IsForkVersion forkRoots · false)
      (.root List.mem_cons_self))
  have built {specifier : Specifier} (member : specifier ∈ touched) {image : Image}
      (is : grownFork.image? specifier = .ok image) :
      ∃ record, base.graph.get? specifier = some record ∧ Describes image record ∧ record.state = .ready := by
    cases compiled.fresh blank.get? member with
    | left isLeaf => cases (reached_fork isFork_of_version isLeaf).1
    | failed _ fails => cases is.symm.trans fails
    | built _ is' _ finished =>
      obtain rfl := Except.ok.inj (is.symm.trans is')
      exact ⟨_, finished.found, finished.describes, finished.ready⟩
  obtain ⟨image, is, -, targets⟩ := Toolchain.exists_image view
  obtain ⟨image', is', -⟩ := Toolchain.exists_image view'
  obtain ⟨importer, found, describes, -⟩ := built first is
  obtain ⟨record, found', describes', ready⟩ := built third is'
  refine ⟨⟨record, found', describes'.compiled, by rw [ModuleRecord.isReady, ready]; rfl⟩, ?_⟩
  obtain ⟨edge, inside, target⟩ := List.mem_map.1 (targets ▸ List.mem_singleton_self (⟨"app:d"⟩ : Specifier))
  refine ⟨edge, ?_, target⟩
  rw [dependencies_of_get? found, describes.edges]
  exact (List.mem_filter.1 inside).1

theorem sourceChanged_brings_back_fork :
    let base := ({} : Workspace).performAll [(grownFork, .compile forkRoots {})]
    let deleted := (base.sourceChanged fork ⟨"app:d"⟩).2
    ∃ record, (deleted.sourceChanged grownFork ⟨"app:d"⟩).2.graph.get? ⟨"app:d"⟩ = some record ∧
      record.isReady = true ∧ record.sourceHash = sourceHash [] := by
  intro base deleted
  obtain ⟨⟨record, found, compiled, -⟩, imports⟩ := compileAll_grownFork
  have view : grownFork.view? ⟨"app:d"⟩ = some ([], []) := by decide
  obtain ⟨image, is, -⟩ := Toolchain.exists_image view
  have spares : grownFork.SparesItself ⟨"app:d"⟩ := by
    intro item member
    rw [isFork_grownFork.third] at member
    cases member
  have load : grownFork.sources.load ⟨"app:d"⟩ = .ok ⟨[], .javaScript⟩ := rfl
  have distinct := @distinct_met_fork
    [(grownFork, .compile forkRoots {}), (fork, .notice ⟨"app:d"⟩), (grownFork, .notice ⟨"app:d"⟩)]
    (by simp [IsForkVersion]) (by simp [Call.roots])
  have missing : fork.sources.get? ⟨"app:d"⟩ = none := by decide
  obtain ⟨new, there, ready, hash⟩ := sourceChanged_brings_back {} ⟨rfl, rfl, rfl, rfl⟩
    [(grownFork, .compile forkRoots {})] fork grownFork ⟨"app:d"⟩ ⟨"app:a"⟩ distinct found compiled (by decide)
    imports missing load is spares
  exact ⟨new, there, ready, hash⟩

/-- While the third module of the fork comes and goes, the store is accounted for. -/
theorem performAll_stores_ready_or_abandoned_fork :
    let calls := [(grownFork, Call.compile forkRoots {}), (fork, .notice ⟨"app:d"⟩)]
    ∀ key code, (({} : Workspace).performAll calls).store.blobs.get? key = some code →
      (∃ specifier record output,
        (({} : Workspace).performAll calls).graph.get? specifier = some record ∧ record.isReady = true ∧
          record.isExternal = false ∧ record.output? = some output ∧ output.key = key) ∨
      Abandoned {} calls key :=
  (performAll_stores_ready_or_abandoned {} ⟨rfl, rfl, rfl, rfl⟩
    [(grownFork, .compile forkRoots {}), (fork, .notice ⟨"app:d"⟩)]
    (distinct_met_fork (by simp [IsForkVersion]) (by simp [Call.roots]))).2.1

end Fork

section Script

def deletedScript : Toolchain := script.edited ⟨"app:a"⟩ none

def scriptCalls : List (Toolchain × Call) :=
  [(script, .compile [⟨"app:a"⟩] {}), (deletedScript, .notice ⟨"app:a"⟩)]

theorem load_scripts {tools : Toolchain} (is : tools = script ∨ tools = deletedScript) {specifier : Specifier}
    {source : Source} (load : tools.sources.load specifier = .ok source) : source = ⟨[49], .javaScript⟩ := by
  refine SourceTree.eq_of_load (fun entry there => ?_) load
  rcases is with rfl | rfl <;>
    simp only [deletedScript, script, Toolchain.edited, OrderedMap.get?_erase, OrderedMap.get?_insert,
      OrderedMap.get?_empty] at there <;>
    grind

theorem closed_script {tools : Toolchain} (is : tools = script ∨ tools = deletedScript) :
    ∀ importer ∈ [(⟨"app:a"⟩ : Specifier)], ∀ item ∈ tools.resolutions importer,
      item.2.isExternal = false ∧ item.2.specifier ∈ [(⟨"app:a"⟩ : Specifier)] := by
  intro importer inside item member
  have bare : tools.resolutions ⟨"app:a"⟩ = [] := by
    rcases is with rfl | rfl
    · exact isLone_script.bare
    · rfl
  rw [List.mem_singleton.1 inside, bare] at member
  cases member

theorem coherent_script : Coherent (fun tools => tools = script ∨ tools = deletedScript) [⟨"app:a"⟩] := by
  refine coherent_listed [⟨"app:a"⟩] (fun _ member => member) (fun _ is => closed_script is) (by simp)
    (fun _ _ _ is => load_scripts is) ?_
  rintro one two (rfl | rfl) (rfl | rfl) <;> exact ⟨rfl, rfl⟩

theorem met_script {specifier : Specifier} (met : Met {} scriptCalls specifier) : specifier = ⟨"app:a"⟩ := by
  obtain ⟨isExternal, reached⟩ := coherent_script.reached_of_met ⟨rfl, rfl, rfl, rfl⟩ rfl
    (by simp [scriptCalls]) (fun call member root inside => .root (by
      simp only [scriptCalls, List.mem_cons, List.not_mem_nil, or_false] at member
      rcases member with rfl | rfl
      · exact inside
      · cases inside)) met
  exact List.mem_singleton.1
    (reached_listed [⟨"app:a"⟩] (fun _ member => member) (fun _ is => closed_script is) reached).2

theorem stocks_script (earlier : List (Toolchain × Call)) (before : earlier <+: scriptCalls) :
    Stocks (Abandoned {} earlier) .clear (({} : Workspace).performAll earlier) :=
  IsBlank.stocks_performAll ⟨rfl, rfl, rfl, rfl⟩
    (fun _ _ one two _ => (met_script one).trans (met_script two).symm) earlier before

def scriptBase : Workspace := ({} : Workspace).performAll [(script, .compile [⟨"app:a"⟩] {})]

theorem scriptCalls_prefix : [(script, Call.compile [⟨"app:a"⟩] {})] <+: scriptCalls :=
  ⟨[(deletedScript, .notice ⟨"app:a"⟩)], rfl⟩

theorem stocks_scriptBase : Stocks (Abandoned {} [(script, .compile [⟨"app:a"⟩] {})]) .clear scriptBase :=
  stocks_script _ scriptCalls_prefix

theorem record_script : ∃ record output, scriptBase.graph.get? ⟨"app:a"⟩ = some record ∧
    record.isReady = true ∧ record.isExternal = false ∧ record.output? = some output := by
  have run := compileAll_lone isLone_script
  have stocks := stocks_scriptBase
  rw [show scriptBase = (({} : Workspace).compileAll script [⟨"app:a"⟩]).2 from rfl] at stocks ⊢
  generalize ({} : Workspace).compileAll script [⟨"app:a"⟩] = result at run stocks ⊢
  obtain ⟨report, base⟩ := result
  obtain ⟨-, tracks, ⟨record, found⟩, -⟩ := run
  obtain ⟨-, -, -, -, output, -, own, -⟩ := record_lone isLone_script tracks found
  obtain ⟨ready, compiled⟩ := (stocks.record found).output?_ne_none_iff.1 (by simp [own])
  exact ⟨record, output, found, ready, compiled, own⟩

theorem deletedScript_gone :
    let after := (scriptBase.sourceChanged deletedScript ⟨"app:a"⟩).2
    (∀ specifier, after.graph.get? specifier = none) ∧
      ∀ hash, after.store.blobs.get? (artifactKey ⟨"app:a"⟩ hash) =
        scriptBase.store.blobs.get? (artifactKey ⟨"app:a"⟩ hash) := by
  obtain ⟨record, -, found, -, compiled, -⟩ := record_script
  have known {specifier : Specifier} {new : ModuleRecord}
      (there : scriptBase.graph.get? specifier = some new ∨
        (scriptBase.sourceChanged deletedScript ⟨"app:a"⟩).2.graph.get? specifier = some new) :
      specifier = ⟨"app:a"⟩ := by
    rcases there with there | there
    · exact met_script ⟨_, scriptCalls_prefix, new, there⟩
    · exact met_script ⟨scriptCalls, List.prefix_rfl, new, there⟩
  obtain ⟨absent, blobs, -⟩ := @sourceChanged_gone (· = ⟨"app:a"⟩)
    (fun _ _ one two _ => one.trans two.symm) _ _ stocks_scriptBase _ _ known _ found compiled (by decide)
  refine ⟨fun specifier => ?_, blobs⟩
  by_contra there
  obtain ⟨new, there⟩ := Option.ne_none_iff_exists'.1 there
  obtain rfl := known (.inr there)
  cases absent.symm.trans there

/-- A script that is deleted leaves its code behind, although there is no module any more. -/
theorem deleted_script_leaves_code :
    let after := (scriptBase.sourceChanged deletedScript ⟨"app:a"⟩).2
    (∀ specifier, after.graph.get? specifier = none) ∧
      ∃ key code, after.store.blobs.get? key = some code := by
  obtain ⟨record, output, found, -, -, own⟩ := record_script
  obtain ⟨absent, blobs⟩ := deletedScript_gone
  obtain ⟨hash, code, key, stored, -⟩ := (stocks_scriptBase.record found).filed output own
  rw [stocks_scriptBase.indexed.keyed found] at key
  exact ⟨absent, output.key, code, by rw [key, blobs, ← key, stored]⟩

/-- A script that is deleted and created again is not compiled, since nothing imports it. -/
theorem deleted_script_stays_away :
    (∃ record, scriptBase.graph.get? ⟨"app:a"⟩ = some record ∧ record.isReady = true) ∧
      (∃ image, script.image? ⟨"app:a"⟩ = .ok image) ∧
      let deleted := (scriptBase.sourceChanged deletedScript ⟨"app:a"⟩).2
      (deleted.sourceChanged script ⟨"app:a"⟩).2.graph.get? ⟨"app:a"⟩ = none := by
  obtain ⟨record, -, found, ready, -⟩ := record_script
  obtain ⟨image, is, -⟩ := isLone_script.compiled
  obtain ⟨absent, -⟩ := deletedScript_gone
  have stocks : Stocks (Abandoned {} scriptCalls) .clear
    (scriptBase.sourceChanged deletedScript ⟨"app:a"⟩).2 := stocks_script scriptCalls List.prefix_rfl
  refine ⟨⟨record, found, ready⟩, ⟨image, is⟩, ?_⟩
  dsimp only
  generalize (scriptBase.sourceChanged deletedScript ⟨"app:a"⟩).2 = deleted at absent stocks ⊢
  have unused : deleted.graph.dependents ⟨"app:a"⟩ = [] := by
    refine List.eq_nil_iff_forall_not_mem.2 fun importer member => ?_
    obtain ⟨edge, inside, -⟩ := (mem_dependents stocks.indexed).1 member
    rw [dependencies_of_get?_eq_none (absent importer)] at inside
    cases inside
  rw [sourceChanged_eq, if_pos (by rw [absent, unused]; rfl)]
  exact absent _

end Script

end ModuleBuild
