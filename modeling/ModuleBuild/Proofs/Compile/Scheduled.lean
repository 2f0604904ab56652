import ModuleBuild.Proofs.Compile.FreshBuild
import ModuleBuild.Proofs.Compile.Schedules
import ModuleBuild.Compile.Queue
/-!
Compilations as schedules. A compilation that has all sources at hand follows each module to the end before the
next one, and one that waits for sources claims what it meets and compiles it later. Both are schedules of one
pass, so both load a module once or not at all.
-/

namespace ModuleBuild

open ModuleGraph Workspace Relation

namespace Pass

variable {tools : Toolchain} {options : CompileOptions}

/-! ## Compiling all is a schedule -/

theorem specifier_of_claim {pass after : Pass} (keyed : pass.workspace.graph.Keyed) {specifier : Specifier}
    {isForced : Bool} {record : ModuleRecord} (claim : pass.claim specifier isForced = (after, some record)) :
    record.specifier = specifier := by
  rw [claim_eq] at claim
  obtain ⟨-, given⟩ := Prod.mk.inj claim
  split at given
  · cases given
  · obtain rfl := Option.some.inj given
    cases found : pass.workspace.graph.get? specifier with
    | none => rfl
    | some record => exact keyed specifier record found

section Steps

variable {pass after : Pass} {claims : List Claimed} {rest : List Branch}

theorem advances_repeat {specifier : Specifier} (old : specifier ∈ claims.map (·.specifier))
    (isForced : Bool) :
    Advances tools options ⟨pass, claims, .claim specifier isForced :: rest⟩ ⟨pass, claims, rest⟩ :=
  .repeated pass claims (.refl _) old

theorem advances_claim {specifier : Specifier} (fresh : specifier ∉ claims.map (·.specifier))
    {isForced : Bool} {record? : Option ModuleRecord}
    (claim : pass.claim specifier isForced = (after, record?)) {later : List Branch}
    (left : later.Perm (started specifier record? ++ rest)) :
    Advances tools options ⟨pass, claims, .claim specifier isForced :: rest⟩
      ⟨after, ⟨specifier, isForced, pass.workspace.graph.get? specifier⟩ :: claims, later⟩ := by
  have step := @Advances.claimed tools options pass claims _ rest later specifier isForced (.refl _) fresh
  rw [claim] at step
  exact step left

theorem advances_compile {record : ModuleRecord} {targets : List Specifier}
    (compiled : pass.compileOrFail tools record.specifier record = (after, targets)) :
    Advances tools options ⟨pass, claims, .compile record :: rest⟩
      ⟨after, claims, followed options targets ++ rest⟩ := by
  have step := @Advances.compiled tools options pass claims _ rest _ record (.refl _) (.refl _)
  rwa [compiled] at step

/-- A visit is a claim, and a build if the module is due. -/
theorem advances_visit (keyed : pass.workspace.graph.Keyed) {specifier : Specifier}
    (fresh : specifier ∉ claims.map (·.specifier)) {isForced : Bool} {targets : List Specifier}
    (visited : pass.visit tools options specifier isForced = (after, targets)) :
    ReflTransGen (Advances tools options) ⟨pass, claims, .claim specifier isForced :: rest⟩
      ⟨after, ⟨specifier, isForced, pass.workspace.graph.get? specifier⟩ :: claims,
        targets.map (.claim · false) ++ rest⟩ := by
  rw [visit] at visited
  cases claim : pass.claim specifier isForced with
  | mk middle record? =>
    rw [claim] at visited
    cases record? with
    | none =>
      obtain ⟨rfl, rfl⟩ := Prod.mk.inj visited
      exact .single (advances_claim fresh claim (.refl _))
    | some record =>
      obtain rfl := specifier_of_claim keyed claim
      obtain ⟨rfl, rfl⟩ := Prod.mk.inj visited
      exact .tail (.single (advances_claim fresh claim (.refl _))) (advances_compile rfl)

end Steps

theorem visit_of_absent {pass : Pass} (keyed : pass.workspace.graph.Keyed) {specifier : Specifier}
    (absent : tools.sources.get? specifier = none) (isForced : Bool) :
    (pass.visit tools options specifier isForced).2 = [] := by
  rw [visit]
  cases claim : pass.claim specifier isForced with
  | mk middle record? =>
    cases record? with
    | none => rfl
    | some record =>
      obtain rfl := specifier_of_claim keyed claim
      simp [compileOrFail_absent middle absent]

theorem advances_visitAll (claimed : List Specifier) (pass : Pass) (work : List (Specifier × Bool))
    (keyed : pass.workspace.graph.Keyed) {claims : List Claimed}
    (same : claims.map (·.specifier) = claimed) :
    ∃ last, ReflTransGen (Advances tools options)
      ⟨pass, claims, work.map fun (specifier, isForced) => .claim specifier isForced⟩
      ⟨(visitAll tools options claimed pass work).1, last, []⟩ := by
  induction claimed, pass, work using visitAll.induct tools options generalizing claims with
  | case1 claimed pass =>
    rw [visitAll]
    exact ⟨claims, .refl⟩
  | case2 claimed pass specifier isForced rest old ih =>
    obtain ⟨last, run⟩ := ih keyed same
    rw [visitAll_of_mem tools options old]
    exact ⟨last, .head (advances_repeat (same ▸ old) isForced) run⟩
  | case3 claimed pass specifier isForced rest fresh middle targets visited absent ih =>
    have turn := (hasTurn_visit tools options keyed specifier isForced).keyed
    have idle := @visit_of_absent tools options pass keyed specifier absent isForced
    rw [visitAll_of_fresh tools options fresh]
    simp only [visited, absent, Option.isSome_none, Bool.false_eq_true, if_false] at turn idle ⊢
    subst idle
    obtain ⟨last, run⟩ := @ih turn (⟨specifier, isForced, pass.workspace.graph.get? specifier⟩ :: claims)
      (congrArg (specifier :: ·) same)
    exact ⟨last, (advances_visit keyed (same ▸ fresh) visited).trans run⟩
  | case4 claimed pass specifier isForced rest fresh middle targets visited entry found ih =>
    have turn := (hasTurn_visit tools options keyed specifier isForced).keyed
    rw [visitAll_of_fresh tools options fresh]
    simp only [visited, found, Option.isSome_some, if_true] at turn ⊢
    obtain ⟨last, run⟩ := @ih turn (⟨specifier, isForced, pass.workspace.graph.get? specifier⟩ :: claims)
      (congrArg (specifier :: ·) same)
    rw [List.map_append, List.map_map] at run
    exact ⟨last, (advances_visit keyed (same ▸ fresh) visited).trans run⟩

/-! ## So is a compilation that waits for sources -/

theorem keyed_modify {graph : ModuleGraph} (keyed : graph.Keyed) {change : ModuleRecord → ModuleRecord}
    (names : ∀ record, (change record).specifier = record.specifier) (specifier : Specifier) :
    (graph.modify specifier change).Keyed := by
  intro other record there
  rw [get?_modify] at there
  split at there
  · obtain ⟨old, found, rfl⟩ := Option.map_eq_some_iff.1 there
    rw [names]
    exact keyed other old (by simp_all)
  · exact keyed other record there

theorem keyed_mentionExternals {graph : ModuleGraph} (keyed : graph.Keyed) (externals : List Specifier) :
    (externals.foldl mentionExternal graph).Keyed :=
  keyed_of_mentioned keyed (mentioned_foldl mentioned_mentionExternal externals graph)

theorem keyed_install {graph : ModuleGraph} (keyed : graph.Keyed) (externals : List Specifier)
    {change : ModuleRecord → ModuleRecord} (names : ∀ record, (change record).specifier = record.specifier)
    (specifier : Specifier) (targets : List Specifier) :
    (((externals.foldl mentionExternal graph).modify specifier change).mentionAll targets).Keyed :=
  keyed_of_mentioned (keyed_modify (keyed_mentionExternals keyed externals) names specifier)
    (mentioned_foldl mentioned_mention targets _)

theorem keyed_compileOutput (resolver : Resolver) {pass : Pass} (keyed : pass.workspace.graph.Keyed)
    (specifier : Specifier) (source : String) (kind : SourceKind) (output : Transpiled) :
    (pass.compileOutput resolver specifier source kind output).2.workspace.graph.Keyed := by
  cases resolved : resolveImports resolver specifier output.imports with
  | mk items error? =>
    cases error? with
    | some error =>
      simp only [compileOutput, link_error resolved]
      exact keyed_mentionExternals keyed (externalsOf items)
    | none =>
      simp only [compileOutput, link_ok resolved]
      refine keyed_install keyed (externalsOf items) ?_ specifier _
      exact fun _ => rfl

theorem keyed_build (tools : Toolchain) {pass : Pass} (keyed : pass.workspace.graph.Keyed)
    (record : ModuleRecord) : (pass.build tools record).2.workspace.graph.Keyed := by
  have run := buildRun tools pass record
  generalize pass.build tools record = result at run ⊢
  cases run with
  | unloaded => exact keyed
  | unread => exact keyed
  | @restored _ restored =>
    refine keyed_install keyed restored.externals ?_ record.specifier _
    exact fun _ => rfl
  | untranspiled _ _ _ _ counted => rcases counted with rfl | rfl <;> exact keyed
  | transpiled =>
    refine keyed_compileOutput tools.resolver ?_ record.specifier _ _ _
    exact keyed

theorem keyed_compileOrFail (tools : Toolchain) {pass : Pass} (keyed : pass.workspace.graph.Keyed)
    (record : ModuleRecord) :
    (pass.compileOrFail tools record.specifier record).1.workspace.graph.Keyed := by
  have built := keyed_build tools keyed record
  unfold compileOrFail
  generalize pass.build tools record = result at built ⊢
  obtain ⟨result, after⟩ := result
  cases result with
  | error error =>
    refine keyed_modify built ?_ record.specifier
    exact fun _ => rfl
  | ok targets => exact built

theorem keyed_claim {pass : Pass} (keyed : pass.workspace.graph.Keyed) (specifier : Specifier)
    (isForced : Bool) : (pass.claim specifier isForced).1.workspace.graph.Keyed := by
  rw [claim_eq]
  exact keyed_of_mentioned keyed (pass.workspace.graph.mentioned_mention specifier)

def Task.branch : Task → Branch
  | .claim specifier => .claim specifier false
  | .compile _ record => .compile record

theorem map_branch_claims (targets : List Specifier) (rest : List Task) :
    (targets.map Task.claim ++ rest).map Task.branch = followed {} targets ++ rest.map Task.branch := by
  simp [followed, Task.branch]

/-- The claimed modules that wait for their sources are those that they were claimed as. -/
def AwaitNamed (work : List Task) : Prop :=
  ∀ specifier record, .compile specifier record ∈ work → record.specifier = specifier

theorem AwaitNamed.tail {task : Task} {rest : List Task} (named : AwaitNamed (task :: rest)) :
    AwaitNamed rest :=
  fun _ _ member => named _ _ (List.mem_cons_of_mem _ member)

def await (waits : Specifier → Bool) (record : ModuleRecord) (rest : List Task) : List Task :=
  if waits record.specifier then rest ++ [.compile record.specifier record]
  else .compile record.specifier record :: rest

theorem perm_await (waits : Specifier → Bool) (record : ModuleRecord) (rest : List Task) :
    (await waits record rest).Perm (.compile record.specifier record :: rest) := by
  unfold await
  split
  · exact List.perm_append_comm
  · exact .refl _

theorem AwaitNamed.await {rest : List Task} (named : AwaitNamed rest) (waits : Specifier → Bool)
    (record : ModuleRecord) : AwaitNamed (await waits record rest) := by
  intro specifier other member
  rcases List.mem_cons.1 ((perm_await waits record rest).mem_iff.1 member) with same | member
  · obtain ⟨rfl, rfl⟩ := Task.compile.inj same
    rfl
  · exact named specifier other member

theorem AwaitNamed.claims {rest : List Task} (named : AwaitNamed rest) (targets : List Specifier) :
    AwaitNamed (targets.map Task.claim ++ rest) := by
  intro specifier record member
  rcases List.mem_append.1 member with member | member
  · obtain ⟨target, -, same⟩ := List.mem_map.1 member
    cases same
  · exact named specifier record member

section InTurn

variable (waits : Specifier → Bool) (claimed : List Specifier) {pass after : Pass} {record : ModuleRecord}
  (rest : List Task)

/-- A module that was compiled goes on to what it imports, which is nothing if it has no source. -/
theorem visitInTurn_compile {targets : List Specifier}
    (compiled : pass.compileOrFail tools record.specifier record = (after, targets)) :
    visitInTurn tools waits claimed pass (.compile record.specifier record :: rest) =
      visitInTurn tools waits claimed after (targets.map .claim ++ rest) := by
  rw [visitInTurn, compiled]
  dsimp only
  split
  · next absent =>
    obtain rfl : targets = [] := by simpa [compiled] using compileOrFail_absent pass absent
    rfl
  · rfl

theorem visitInTurn_claim (fresh : record.specifier ∉ claimed)
    (claim : pass.claim record.specifier false = (after, some record)) :
    visitInTurn tools waits claimed pass (.claim record.specifier :: rest) =
      visitInTurn tools waits (record.specifier :: claimed) after (await waits record rest) := by
  rw [visitInTurn, dif_neg fresh, claim, await]
  dsimp only
  by_cases waiting : waits record.specifier = true
  · simp only [waiting, if_true]
  · cases compiled : after.compileOrFail tools record.specifier record with
    | mk built targets =>
      simp only [waiting, Bool.false_eq_true, if_false]
      rw [visitInTurn_compile waits _ rest compiled]
      split
      · next absent =>
        obtain rfl : targets = [] := by simpa [compiled] using compileOrFail_absent after absent
        rfl
      · rfl

end InTurn

theorem advances_visitInTurn (waits : Specifier → Bool) (pass : Pass) (claims : List Claimed)
    (work : List Task) (keyed : pass.workspace.graph.Keyed) (named : AwaitNamed work) :
    ∃ last, ReflTransGen (Advances tools {}) ⟨pass, claims, work.map Task.branch⟩
      ⟨(visitInTurn tools waits (claims.map (·.specifier)) pass work).1, last, []⟩ := by
  -- by induction on what is left of the schedule
  induction start : (⟨pass, claims, work.map Task.branch⟩ : Progress) using
    (wellFounded_advances tools {}).induction generalizing pass claims work with
  | _ progress ih =>
    subst start
    match work with
    | [] =>
      rw [visitInTurn]
      exact ⟨claims, .refl⟩
    | .claim specifier :: rest =>
      by_cases old : specifier ∈ claims.map (·.specifier)
      · have step := @advances_repeat tools {} pass claims (rest.map Task.branch) specifier old false
        obtain ⟨last, run⟩ := ih _ step pass claims rest keyed named.tail rfl
        rw [visitInTurn, dif_pos old]
        exact ⟨last, .head step run⟩
      have keyed' := keyed_claim keyed specifier false
      cases claim : pass.claim specifier false with
      | mk after record? =>
        rw [claim] at keyed'
        cases record? with
        | none =>
          have step := @advances_claim tools {} pass after claims (rest.map Task.branch) specifier old false
            none claim _ (.refl _)
          obtain ⟨last, run⟩ := ih _ step after (_ :: claims) rest keyed' named.tail rfl
          rw [visitInTurn, dif_neg old, claim]
          exact ⟨last, .head step run⟩
        | some record =>
          obtain rfl := specifier_of_claim keyed claim
          have left : ((await waits record rest).map Task.branch).Perm
              (started record.specifier (some record) ++ rest.map Task.branch) :=
            (perm_await waits record rest).map Task.branch
          have step := @advances_claim tools {} pass after claims (rest.map Task.branch) record.specifier old
            false (some record) claim _ left
          obtain ⟨last, run⟩ := ih _ step after (_ :: claims) _ keyed' (named.tail.await waits record) rfl
          rw [visitInTurn_claim waits _ rest old claim]
          exact ⟨last, .head step run⟩
    | .compile specifier record :: rest =>
      obtain rfl := named specifier record List.mem_cons_self
      cases compiled : pass.compileOrFail tools record.specifier record with
      | mk after targets =>
        have keyed' := keyed_compileOrFail tools keyed record
        rw [compiled] at keyed'
        have step := @advances_compile tools {} pass after claims (rest.map Task.branch) record targets compiled
        rw [← map_branch_claims] at step
        obtain ⟨last, run⟩ := ih _ step after claims _ keyed' (named.tail.claims targets) rfl
        rw [visitInTurn_compile waits _ rest compiled]
        exact ⟨last, .head step run⟩

theorem reports_compileAll {workspace : Workspace} (keyed : workspace.graph.Keyed) (tools : Toolchain)
    (roots : List Specifier) (options : CompileOptions) :
    ∃ claims, ReportsRun tools options workspace roots claims (workspace.compileAll tools roots options).1 := by
  have loads : (workspace.compileAll tools roots options).1.loads =
      (visitAll tools options [] { workspace } (roots.map (·, options.forceRefresh))).1.loads.reverse :=
    (workspace.extends_compileAll tools roots options).1
  obtain ⟨claims, run⟩ := @advances_visitAll tools options [] { workspace }
    (roots.map (·, options.forceRefresh)) keyed [] rfl
  rw [List.map_map] at run
  exact ⟨claims, _, run, loads, workspace.calls_compileAll tools roots options⟩

theorem reports_compileInTurn {workspace : Workspace} (keyed : workspace.graph.Keyed) (tools : Toolchain)
    (waits : Specifier → Bool) (roots : List Specifier) :
    ∃ claims, ReportsRun tools {} workspace roots claims (workspace.compileInTurn tools waits roots).1 := by
  have unclaimed : AwaitNamed (roots.map Task.claim) := by
    simpa using AwaitNamed.claims (fun _ _ member => absurd member List.not_mem_nil) roots
  obtain ⟨claims, run⟩ := @advances_visitInTurn tools waits { workspace } [] (roots.map Task.claim) keyed
    unclaimed
  rw [List.map_map, List.map_nil] at run
  rw [Workspace.compileInTurn]
  generalize visitInTurn tools waits [] { workspace } (roots.map Task.claim) = result at run ⊢
  obtain ⟨pass, touched⟩ := result
  refine ⟨claims, pass, run, (pass.rests_settle touched).1, ?_⟩
  dsimp only
  rw [settle_eq]
  exact congrArg List.reverse (pass.rests_settleAll {} touched).calls

end Pass

/-- However the branches of a pass take turns, the pass ends, with nothing left to do. Each module is then
loaded and transpiled at most once. One whose record, as it was claimed, was of a module to be left alone, or
ready with no refresh asked for, was neither loaded nor transpiled; one whose record was neither was loaded.
A compilation takes one of these turns, whether it waits for sources or not. -/
theorem Workspace.compileAll_loads_once (workspace : Workspace) (keyed : workspace.graph.Keyed)
    (tools : Toolchain) (roots : List Specifier) (options : CompileOptions) :
    (WellFounded fun next progress => Pass.Advances tools options progress next) ∧
    (∀ progress, (∀ next, ¬ Pass.Advances tools options progress next) ↔ progress.branches = []) ∧
    (∀ claims report, Pass.ReportsRun tools options workspace roots claims report →
      Pass.LoadsOnce options roots claims report.loads report.transpilerCalls) ∧
    (∃ claims, Pass.ReportsRun tools options workspace roots claims
      (workspace.compileAll tools roots options).1) ∧
    ∀ waits, ∃ claims, Pass.ReportsRun tools {} workspace roots claims
      (workspace.compileInTurn tools waits roots).1 := by
  refine ⟨Pass.wellFounded_advances tools options, fun progress => ⟨fun stuck => ?_, ?_⟩,
    fun _ _ reports => reports.loadsOnce, Pass.reports_compileAll keyed tools roots options,
    fun waits => Pass.reports_compileInTurn keyed tools waits roots⟩
  · by_contra left
    obtain ⟨next, step⟩ := Pass.exists_advances tools options left
    exact stuck next step
  · obtain ⟨pass, claims, branches⟩ := progress
    rintro rfl
    exact Pass.not_advances_nil pass claims

theorem Workspace.compileAll_loads_once_ring :
    let report := (({} : Workspace).compileAll ring [⟨"app:a"⟩, ⟨"app:b"⟩, ⟨"app:a"⟩]).1
    ({} : Workspace).graph.Keyed ∧
    ∀ specifier, report.loads.count specifier ≤ 1 ∧ report.transpilerCalls.count specifier ≤ 1 := by
  have keyed : ({} : Workspace).graph.Keyed := fun _ _ found => by cases found
  obtain ⟨-, -, once, ⟨claims, reports⟩, -⟩ :=
    compileAll_loads_once {} keyed ring [⟨"app:a"⟩, ⟨"app:b"⟩, ⟨"app:a"⟩] {}
  have counts := (once claims _ reports).once
  exact ⟨keyed, fun specifier =>
    ⟨(counts specifier).2, Nat.le_trans (counts specifier).1 (counts specifier).2⟩⟩

end ModuleBuild
