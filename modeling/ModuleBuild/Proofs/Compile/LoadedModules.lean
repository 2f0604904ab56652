import ModuleBuild.Proofs.Compile.Leftovers
import ModuleBuild.Proofs.Compile.StockTurns
/-!
Which modules a compilation loads. On an empty graph these are its roots and what a module that it loaded
imports, as long as the import does not leave its target alone. Roots are loaded whatever is known of them.
-/

namespace ModuleBuild

open ModuleGraph Workspace ArtifactStore Pass

namespace ModuleGraph

/-- A module that was no more than mentioned is left alone once it is listed as one to be left alone. -/
theorem get?_mentionExternals_of_mem {graph : ModuleGraph} {target : Specifier} {listed : List Specifier}
    (member : target ∈ listed) (start : Mentioned target none (graph.get? target)) :
    (listed.foldl mentionExternal graph).get? target = some (.external target) := by
  induction listed generalizing graph with
  | nil => cases member
  | cons first rest ih =>
    have step := start.trans (graph.mentioned_mentionExternal first target)
    by_cases same : target = first
    · subst same
      have left : (graph.mentionExternal target).get? target = some (.external target) := by
        cases start with
        | same absent =>
          refine graph.get?_mentionExternal_of_blank fun record there => ?_
          cases absent.symm.trans there
        | created _ found =>
          -- a record that was only mentioned is still blank, and may be declared external
          refine graph.get?_mentionExternal_of_blank fun record there => ?_
          obtain rfl := Option.some.inj (found.symm.trans there)
          exact ⟨rfl, rfl⟩
        | external _ found => exact (graph.mentioned_mentionExternal target target).of_ready found rfl
      exact (mentioned_foldl mentioned_mentionExternal rest _ target).of_ready left rfl
    · exact ih ((List.mem_cons.1 member).resolve_left same) step

theorem get?_install_external {graph : ModuleGraph} {target specifier : Specifier} {externals : List Specifier}
    (member : target ∈ externals) (differ : target ≠ specifier)
    (start : Mentioned target none (graph.get? target)) (change : ModuleRecord → ModuleRecord)
    (targets : List Specifier) :
    (((externals.foldl mentionExternal graph).modify specifier change).mentionAll targets).get? target =
      some (.external target) := by
  have modified := (get?_modify (externals.foldl mentionExternal graph) specifier target change).trans
    (if_neg (Ne.symm differ))
  rw [get?_mentionExternals_of_mem member start] at modified
  exact (mentioned_foldl mentioned_mention targets _ target).of_ready modified rfl

end ModuleGraph

/-- A module that compiles has an import that leads to another module, to be compiled too. -/
def Toolchain.CompilesImport (tools : Toolchain) (importer target : Specifier) : Prop :=
  (∃ image, tools.image? importer = .ok image) ∧
    ∃ item ∈ tools.resolutions importer, item.2.specifier = target ∧ item.2.isExternal = false

namespace Pass

/-- Earlier output that is valid for the source of a module has an import of another one, and does not list it
as left alone. -/
def TakesImport (tools : Toolchain) (store : ArtifactStore) (importer target : Specifier) : Prop :=
  ∃ restored, reusable? tools store (.awaiting importer) = .ok (some restored) ∧
    target ∈ distinctTargets restored.dependencies ∧ target ∉ restored.externals

def Named (tools : Toolchain) (store : ArtifactStore) (roots loads : List Specifier) (specifier : Specifier) :
    Prop :=
  specifier ∈ roots ∨ ∃ importer ∈ loads,
    tools.CompilesImport importer specifier ∨ TakesImport tools store importer specifier

theorem Named.mono {tools : Toolchain} {store : ArtifactStore} {roots loads more : List Specifier}
    {specifier : Specifier} (named : Named tools store roots loads specifier) (wider : loads ⊆ more) :
    Named tools store roots more specifier :=
  named.imp_right fun ⟨importer, member, leads⟩ => ⟨importer, wider member, leads⟩

/-- A pass that started on an empty graph, after some modules were claimed. -/
structure LoadsNamed (tools : Toolchain) (base : ArtifactStore) (roots claimed : List Specifier) (pass : Pass) :
    Prop where
  contents : SameContents base pass.workspace.store
  keyed : pass.workspace.graph.Keyed
  unstarted : ∀ specifier, specifier ∉ claimed →
    Mentioned specifier none (pass.workspace.graph.get? specifier)
  loads : ∀ specifier ∈ pass.loads, Named tools base roots pass.loads specifier
  calls : pass.transpilerCalls ⊆ pass.loads

/-- What is there to visit: a module that was visited, that is named, or that is left alone. -/
def MayMeet (tools : Toolchain) (base : ArtifactStore) (roots claimed : List Specifier) (pass : Pass)
    (specifier : Specifier) : Prop :=
  specifier ∈ claimed ∨ Named tools base roots pass.loads specifier ∨
    pass.workspace.graph.get? specifier = some (.external specifier)

theorem calls_compileOutput (resolver : Resolver) (pass : Pass) (specifier : Specifier) (source : String)
    (kind : SourceKind) (output : Transpiled) :
    (pass.compileOutput resolver specifier source kind output).2.transpilerCalls = pass.transpilerCalls := by
  unfold compileOutput
  split <;> rfl

theorem calls_build (tools : Toolchain) (pass : Pass) (record : ModuleRecord) :
    (pass.build tools record).2.transpilerCalls.Sublist (record.specifier :: pass.transpilerCalls) := by
  have kept : pass.transpilerCalls.Sublist (record.specifier :: pass.transpilerCalls) :=
    List.sublist_cons_self _ _
  have run := buildRun tools pass record
  generalize pass.build tools record = result at run ⊢
  cases run with
  | unloaded => exact kept
  | unread => exact kept
  | restored => exact kept
  | untranspiled _ _ _ _ counted =>
    rcases counted with rfl | rfl
    · exact kept
    · exact List.Sublist.refl _
  | transpiled =>
    rw [calls_compileOutput]
    exact List.Sublist.refl _

/-! ## What a build leads to -/

/-- An import that a build leads to is one to be compiled too, or it is left alone from now on. -/
def LeadsTo (tools : Toolchain) (pass after : Pass) (specifier target : Specifier) : Prop :=
  tools.CompilesImport specifier target ∨ TakesImport tools pass.workspace.store specifier target ∨
    (target ≠ specifier → Mentioned target none (pass.workspace.graph.get? target) →
      after.workspace.graph.get? target = some (.external target))

theorem leadsTo_build (tools : Toolchain) {pass : Pass} (inOrder : pass.workspace.store.faults = .empty)
    (specifier : Specifier) :
    let (result, after) := pass.build tools (.awaiting specifier)
    SameContents pass.workspace.store after.workspace.store ∧
      ∀ targets, result = .ok targets → ∀ target ∈ targets, LeadsTo tools pass after specifier target := by
  have yields := yields_build tools inOrder (.awaiting specifier)
  generalize pass.build tools (.awaiting specifier) = result at yields ⊢
  cases yields with
  | failed error opened alike fails => exact ⟨alike.keeps.contents, nofun⟩
  | compiled image opened alike fresh is =>
    refine ⟨alike.keeps.contents, ?_⟩
    rintro _ ⟨⟩ target member
    by_cases listed : target ∈ image.externals
    · exact .inr (.inr fun differ start => get?_install_external listed differ (alike.graph ▸ start) _ _)
    · obtain ⟨edge, inside, rfl⟩ := (mem_distinctTargets _ _).1 member
      obtain ⟨item, listed', same⟩ := image.mem_edges inside
      refine .inl ⟨⟨image, is⟩, item, Toolchain.resolutions_of_image? is ▸ listed', same, ?_⟩
      by_contra left
      exact listed (same ▸ List.mem_map.2 ⟨item, List.mem_filter.2 ⟨listed', by simpa using left⟩, rfl⟩)
  | restored source restored opened alike load given taken =>
    refine ⟨alike.keeps.contents, ?_⟩
    rintro _ ⟨⟩ target member
    by_cases listed : target ∈ restored.externals
    · exact .inr (.inr fun differ start => get?_install_external listed differ (alike.graph ▸ start) _ _)
    · exact .inr (.inl ⟨restored, taken, member, listed⟩)

theorem leadsTo_compileOrFail (tools : Toolchain) {pass : Pass}
    (inOrder : pass.workspace.store.faults = .empty) (specifier : Specifier) :
    let (after, targets) := pass.compileOrFail tools specifier (.awaiting specifier)
    SameContents pass.workspace.store after.workspace.store ∧ after.loads = specifier :: pass.loads ∧
      after.transpilerCalls ⊆ specifier :: pass.transpilerCalls ∧
      ∀ target ∈ targets, LeadsTo tools pass after specifier target := by
  have built := buildsFrom_build tools pass (.awaiting specifier)
  have calls := (calls_build tools pass (.awaiting specifier)).subset
  have leads := leadsTo_build tools inOrder specifier
  unfold compileOrFail
  generalize pass.build tools (.awaiting specifier) = result at built calls leads ⊢
  obtain ⟨result, after⟩ := result
  obtain ⟨contents, leads⟩ := leads
  cases result with
  | error error => exact ⟨contents, built.loads, calls, nofun⟩
  | ok targets => exact ⟨contents, built.loads, calls, leads targets rfl⟩

section Run

variable {tools : Toolchain} {base : ArtifactStore} {roots claimed : List Specifier} {pass : Pass}
  {specifier : Specifier}

theorem LoadsNamed.awaiting_of_due (named : LoadsNamed tools base roots claimed pass)
    (fresh : specifier ∉ claimed) {isForced : Bool} (due : pass.IsDue specifier isForced) :
    (pass.workspace.graph.get? specifier).getD (.awaiting specifier) = .awaiting specifier := by
  cases named.unstarted specifier fresh with
  | same absent => rw [absent]; rfl
  | created _ found => rw [found]; rfl
  | external _ found => simp [IsDue, found, ModuleRecord.external] at due

theorem TakesImport.of_contents {store : ArtifactStore} {importer target : Specifier} (inOrder : base.faults = .empty)
    (same : SameContents base store) (takes : TakesImport tools store importer target) :
    TakesImport tools base importer target := by
  obtain ⟨restored, taken, rest⟩ := takes
  have equal := reusable?_awaiting_congr tools inOrder same.setup (congrArg (·.get? importer) same.sidecars)
    fun _ output _ _ => congrArg (·.contains output.key) same.blobs
  exact ⟨restored, equal.symm.trans taken, rest⟩

theorem MayMeet.visit {other : Specifier} (may : MayMeet tools base roots claimed pass other)
    (keyed : pass.workspace.graph.Keyed) (options : CompileOptions) {isForced : Bool}
    (loads : pass.loads ⊆ (pass.visit tools options specifier isForced).1.loads) :
    MayMeet tools base roots (specifier :: claimed) (pass.visit tools options specifier isForced).1 other := by
  by_cases same : other = specifier
  · exact .inl (same ▸ List.mem_cons_self)
  · have turn := hasTurn_visit tools options keyed specifier isForced
    exact may.imp (List.mem_cons_of_mem _)
      (.imp (.mono · loads) fun left => (turn.others other same).record.of_ready left rfl)

theorem LeadsTo.mayMeet {after : Pass} {target : Specifier} (inOrder : base.faults = .empty)
    (named : LoadsNamed tools base roots claimed pass) (loaded : specifier ∈ after.loads)
    (leads : LeadsTo tools (pass.setGraph (pass.workspace.graph.mention specifier)) after specifier target) :
    MayMeet tools base roots (specifier :: claimed) after target := by
  by_cases done : target ∈ specifier :: claimed
  · exact .inl done
  obtain ⟨differ, absent⟩ := not_or.1 (mt List.mem_cons.2 done)
  rcases leads with compiles | takes | left
  · exact .inr (.inl (.inr ⟨specifier, loaded, .inl compiles⟩))
  · exact .inr (.inl (.inr ⟨specifier, loaded, .inr (takes.of_contents inOrder named.contents)⟩))
  · refine .inr (.inr (left differ ?_))
    exact (named.unstarted target absent).trans (pass.passesBy_mention specifier target).record

/-- A module that has its turn was named, and what is visited because of it is named or left alone. -/
theorem LoadsNamed.visit (inOrder : base.faults = .empty) (named : LoadsNamed tools base roots claimed pass)
    (fresh : specifier ∉ claimed) (may : MayMeet tools base roots claimed pass specifier)
    (options : CompileOptions) (isForced : Bool) :
    let (after, targets) := pass.visit tools options specifier isForced
    LoadsNamed tools base roots (specifier :: claimed) after ∧
      (∀ other, MayMeet tools base roots claimed pass other →
        MayMeet tools base roots (specifier :: claimed) after other) ∧
      ∀ target ∈ targets, MayMeet tools base roots (specifier :: claimed) after target := by
  have turn := hasTurn_visit tools options named.keyed specifier isForced
  have unstarted (other : Specifier) (absent : other ∉ specifier :: claimed) :
      Mentioned other none ((pass.visit tools options specifier isForced).1.workspace.graph.get? other) := by
    obtain ⟨differ, absent'⟩ := not_or.1 (mt List.mem_cons.2 absent)
    exact (named.unstarted other absent').trans (turn.others other differ).record
  have later (loads : pass.loads ⊆ (pass.visit tools options specifier isForced).1.loads) (other : Specifier)
      (may : MayMeet tools base roots claimed pass other) := may.visit named.keyed options loads
  rcases visit_cases tools options pass specifier isForced with ⟨-, visit⟩ | ⟨due, found, visit⟩
  · rw [visit] at unstarted turn later ⊢
    exact ⟨⟨named.contents, turn.keyed, unstarted, named.loads, named.calls⟩, later (List.Subset.refl _), nofun⟩
  · rw [named.awaiting_of_due fresh due] at visit
    have isNamed : Named tools base roots pass.loads specifier := by
      refine (may.resolve_left fresh).resolve_right fun left => ?_
      simp [IsDue, left, ModuleRecord.external] at due
    let mentioned := pass.setGraph (pass.workspace.graph.mention specifier)
    have inOrder' : mentioned.workspace.store.faults = .empty := named.contents.setup.faults.trans inOrder
    have compiled := leadsTo_compileOrFail tools inOrder' specifier
    change pass.visit tools options specifier isForced =
      ((mentioned.compileOrFail tools specifier (.awaiting specifier)).1,
        if options.ignoreDependencies then []
        else (mentioned.compileOrFail tools specifier (.awaiting specifier)).2) at visit
    rw [visit] at unstarted turn later ⊢
    generalize mentioned.compileOrFail tools specifier (.awaiting specifier) = result
      at compiled later unstarted turn
    obtain ⟨after, targets⟩ := result
    obtain ⟨contents, loads, calls, leads⟩ := compiled
    have wider : pass.loads ⊆ after.loads := loads ▸ List.subset_cons_self _ _
    refine ⟨⟨named.contents.trans contents, turn.keyed, unstarted, fun other member => ?_, ?_⟩, later wider,
      fun target member => ?_⟩
    · rcases List.mem_cons.1 (loads ▸ member) with rfl | old
      · exact isNamed.mono wider
      · exact (named.loads other old).mono wider
    · rw [loads]
      exact List.Subset.trans calls (List.cons_subset_cons specifier named.calls)
    · have inside : target ∈ (if options.ignoreDependencies then [] else targets) := member
      split at inside
      · cases inside
      · exact (leads target inside).mayMeet inOrder named (loads ▸ List.mem_cons_self)

theorem loadsNamed_visitAll (inOrder : base.faults = .empty) (options : CompileOptions)
    (claimed : List Specifier) (pass : Pass) (work : List (Specifier × Bool))
    (named : LoadsNamed tools base roots claimed pass)
    (may : ∀ item ∈ work, MayMeet tools base roots claimed pass item.1) :
    let (after, touched) := visitAll tools options claimed pass work
    LoadsNamed tools base roots touched.reverse after := by
  induction claimed, pass, work using visitAll_induction tools options with
  | done claimed pass =>
    rw [visitAll]
    simpa using named
  | old claimed pass other isForced rest old ih =>
    rw [visitAll_of_mem tools options old]
    exact ih named fun item member => may item (List.mem_cons_of_mem _ member)
  | turn claimed pass other isForced rest targets fresh within next ih =>
    have turn := named.visit inOrder fresh (may _ List.mem_cons_self) options isForced
    rw [next]
    generalize pass.visit tools options other isForced = result at within turn ih ⊢
    obtain ⟨after, leads⟩ := result
    obtain ⟨named', later, onward⟩ := turn
    refine ih named' fun item member => ?_
    rcases List.mem_append.1 member with new | old
    · obtain ⟨target, inside, rfl⟩ := List.mem_map.1 new
      exact onward target ((within target).1 inside).2
    · exact later item.1 (may item (List.mem_cons_of_mem _ old))

end Run

end Pass

namespace Workspace

/-- On an empty graph, whatever the store holds: what is loaded or transpiled is a root, or an import that is
to be compiled of a module that was loaded as well. -/
theorem compileAll_loads_only_named (workspace : Workspace)
    (empty : ∀ specifier, workspace.graph.get? specifier = none)
    (inOrder : workspace.store.faults = .empty) (tools : Toolchain) (roots : List Specifier)
    (options : CompileOptions) :
    let (report, _) := workspace.compileAll tools roots options
    ∀ specifier, specifier ∈ report.loads ∨ specifier ∈ report.transpilerCalls →
      specifier ∈ roots ∨ ∃ importer ∈ report.loads,
        tools.CompilesImport importer specifier ∨ TakesImport tools workspace.store importer specifier := by
  have start : LoadsNamed tools workspace.store roots [] { workspace } :=
    { contents := .refl _
      keyed := fun specifier record found => by cases (empty specifier).symm.trans found
      unstarted := fun specifier _ => .same (empty specifier)
      loads := nofun
      calls := List.nil_subset _ }
  have run := loadsNamed_visitAll inOrder options [] { workspace } (roots.map (·, options.forceRefresh)) start
    fun item member => by
      obtain ⟨root, inside, rfl⟩ := List.mem_map.1 member
      exact .inr (.inl (.inl inside))
  have calls := workspace.calls_compileAll tools roots options
  have whole := workspace.extends_compileAll tools roots options
  generalize workspace.compileAll tools roots options = result at calls whole ⊢
  obtain ⟨report, after⟩ := result
  generalize visitAll tools options [] { workspace } (roots.map (·, options.forceRefresh)) = result
    at run calls whole
  obtain ⟨pass, touched⟩ := result
  obtain ⟨loads, -⟩ := whole
  dsimp only at run calls loads ⊢
  rintro specifier met
  have loaded : specifier ∈ pass.loads := by
    rcases met with loaded | called
    · exact List.mem_reverse.1 (loads ▸ loaded)
    · exact run.calls (List.mem_reverse.1 (calls ▸ called))
  refine (run.loads specifier loaded).imp_right ?_
  rintro ⟨importer, member, leads⟩
  exact ⟨importer, loads ▸ List.mem_reverse.2 member, leads⟩

/-- The modules of the fork are loaded as roots or as imports that are to be compiled. -/
theorem compileAll_loads_only_named_fork :
    let (report, _) := ({} : Workspace).compileAll grownFork forkRoots
    ∀ specifier, specifier ∈ report.loads ∨ specifier ∈ report.transpilerCalls →
      specifier ∈ forkRoots ∨ ∃ importer ∈ report.loads,
        grownFork.CompilesImport importer specifier ∨ TakesImport grownFork {} importer specifier :=
  compileAll_loads_only_named {} (fun _ => rfl) rfl grownFork forkRoots {}

end Workspace

section Mapped

/-- An alias for a remote module, with no address to compile, and what is found at that address. -/
def mapped : Toolchain where
  sources := (OrderedMap.empty : SourceTree).insert ⟨"https://x/y.js"⟩ (.source ⟨[49], .javaScript⟩)
  resolver := { rules := [.rename "y" "https://x/y.js" true] }

/-- An entry that is an alias for a remote module is loaded, although the alias leaves the module alone. -/
theorem mapped_entry_is_loaded :
    Resolver.ofImportMap [("y", "https://x/y.js")] [] [] = .ok mapped.resolver ∧
      mapped.resolver.resolve none "y" = .ok ⟨⟨"https://x/y.js"⟩, true⟩ ∧
      mapped.resolver.resolveEntry "y" = .ok ⟨"https://x/y.js"⟩ ∧
      (⟨"https://x/y.js"⟩ : Specifier) ∈ (({} : Workspace).compileAll mapped [⟨"https://x/y.js"⟩]).1.loads := by
  refine ⟨rfl, by decide +kernel, by decide +kernel, ?_⟩
  have keyed : ({} : Workspace).graph.Keyed := fun _ _ found => by cases found
  have due : ({ workspace := {} } : Pass).IsDue ⟨"https://x/y.js"⟩ false := ⟨rfl, nofun⟩
  obtain ⟨targets, loads, -⟩ :=
    (@hasTurn_visit mapped {} { workspace := {} } keyed ⟨"https://x/y.js"⟩ false).due due
  have whole := ({} : Workspace).extends_compileAll mapped [⟨"https://x/y.js"⟩] {}
  generalize ({} : Workspace).compileAll mapped [⟨"https://x/y.js"⟩] = result at whole ⊢
  obtain ⟨report, after⟩ := result
  generalize visited : visitAll mapped {} [] { workspace := {} }
    ([(⟨"https://x/y.js"⟩ : Specifier)].map (·, false)) = result at whole
  obtain ⟨pass, touched⟩ := result
  obtain ⟨-, passes⟩ := visitAll_first keyed visited
  rw [whole.1, List.mem_reverse, ← List.count_pos_iff, passes.loads, loads.loads]
  exact Nat.succ_pos _

end Mapped

end ModuleBuild
