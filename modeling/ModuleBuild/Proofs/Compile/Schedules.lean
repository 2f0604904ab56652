import ModuleBuild.Proofs.Compile.LoadedModules
/-!
The schedules of a pass. Modules are claimed and compiled by branches that wait for sources, and whichever
is ready goes on. However they take turns, a pass ends, and it loads a module once if the record that was
found as it was claimed asks for that, and otherwise not at all.
-/

namespace ModuleBuild

open ModuleGraph Workspace Relation

namespace Pass

/-- A module that was claimed, with the record that was there. -/
structure Claimed where
  specifier : Specifier
  isForced : Bool
  record? : Option ModuleRecord

def Claimed.isDue (claim : Claimed) : Bool :=
  !(claim.record?.any (·.isExternal) || (claim.record?.any (·.isReady) && !claim.isForced))

inductive Branch where
  | claim (specifier : Specifier) (isForced : Bool)
  /-- Compiles a module that was claimed, with the record it had. -/
  | compile (record : ModuleRecord)

/-- A pass, with what was claimed, the latest first, and what is left to do. -/
structure Progress where
  pass : Pass
  claims : List Claimed
  branches : List Branch

def started (specifier : Specifier) (record? : Option ModuleRecord) : List Branch :=
  (record?.map fun record => .compile { record with specifier }).toList

def followed (options : CompileOptions) (targets : List Specifier) : List Branch :=
  (if options.ignoreDependencies then [] else targets).map (.claim · false)

/-- Any of the branches goes on. In which order they stand has no meaning. -/
inductive Advances (tools : Toolchain) (options : CompileOptions) : Progress → Progress → Prop
  | repeated (pass : Pass) (claims : List Claimed) {branches rest : List Branch} {specifier : Specifier}
    {isForced : Bool} (picked : branches.Perm (.claim specifier isForced :: rest))
    (old : specifier ∈ claims.map (·.specifier)) :
    Advances tools options ⟨pass, claims, branches⟩ ⟨pass, claims, rest⟩
  | claimed (pass : Pass) (claims : List Claimed) {branches rest later : List Branch} {specifier : Specifier}
    {isForced : Bool} (picked : branches.Perm (.claim specifier isForced :: rest))
    (fresh : specifier ∉ claims.map (·.specifier))
    (left : later.Perm (started specifier (pass.claim specifier isForced).2 ++ rest)) :
    Advances tools options ⟨pass, claims, branches⟩
      ⟨(pass.claim specifier isForced).1,
        ⟨specifier, isForced, pass.workspace.graph.get? specifier⟩ :: claims, later⟩
  | compiled (pass : Pass) (claims : List Claimed) {branches rest later : List Branch} {record : ModuleRecord}
    (picked : branches.Perm (.compile record :: rest))
    (left : later.Perm
      (followed options (pass.compileOrFail tools record.specifier record).2 ++ rest)) :
    Advances tools options ⟨pass, claims, branches⟩
      ⟨(pass.compileOrFail tools record.specifier record).1, claims, later⟩

variable {tools : Toolchain} {options : CompileOptions} {roots : List Specifier}

/-! ## Schedules end -/

theorem compileOrFail_absent (pass : Pass) {record : ModuleRecord}
    (absent : tools.sources.get? record.specifier = none) :
    (pass.compileOrFail tools record.specifier record).2 = [] := by
  simp [compileOrFail, build, SourceTree.load, absent]

def Branch.isClaim : Branch → Bool
  | .claim _ _ => true
  | .compile _ => false

def Branch.leadsOn (sources : SourceTree) : Branch → Bool
  | .claim _ _ => false
  | .compile record => (sources.get? record.specifier).isSome

/-- What goes down with each step: the modules with a source that are not compiled yet, and then what there
is left to do, where a claim may take two steps. -/
def Progress.rank (sources : SourceTree) (progress : Progress) : Nat × Nat :=
  (freshCount sources.keys (progress.claims.map (·.specifier)) +
      progress.branches.countP (Branch.leadsOn sources),
    progress.branches.length + progress.branches.countP Branch.isClaim)

theorem freshCount_started_le (sources : SourceTree) {claimed : List Specifier} {specifier : Specifier}
    (fresh : specifier ∉ claimed) (record? : Option ModuleRecord) :
    freshCount sources.keys (specifier :: claimed) +
        (started specifier record?).countP (Branch.leadsOn sources) ≤
      freshCount sources.keys claimed := by
  have fewer := freshCount_cons_le sources.keys claimed specifier
  cases record? with
  | none => simpa [started] using fewer
  | some record =>
    cases found : sources.get? specifier with
    | none => simpa [started, Branch.leadsOn, found] using fewer
    | some entry =>
      -- the branch that compiles it makes up for the one fresh module less
      have less := freshCount_cons_lt (OrderedMap.mem_keys_of_get? found) fresh
      simpa [started, Branch.leadsOn, found] using Nat.succ_le_of_lt less

theorem leadsOn_followed (sources : SourceTree) (options : CompileOptions) (targets : List Specifier) :
    (followed options targets).countP (Branch.leadsOn sources) = 0 := by
  simp [followed, Branch.leadsOn, List.countP_eq_zero]

theorem Advances.rank_lt {progress next : Progress} (step : Advances tools options progress next) :
    Prod.Lex (· < ·) (· < ·) (next.rank tools.sources) (progress.rank tools.sources) := by
  cases step with
  | repeated pass claims picked old =>
    simp only [Progress.rank, picked.countP_eq, picked.length_eq, List.countP_cons, List.length_cons,
      Branch.leadsOn, Branch.isClaim, Prod.lex_def, Bool.false_eq_true, if_false, if_true]
    omega
  | @claimed pass claims branches rest later specifier isForced picked fresh left =>
    have fewer := freshCount_started_le tools.sources fresh (pass.claim specifier isForced).2
    have shorter : (started specifier (pass.claim specifier isForced).2).length +
        (started specifier (pass.claim specifier isForced).2).countP Branch.isClaim ≤ 1 := by
      cases (pass.claim specifier isForced).2 <;> simp [started, Branch.isClaim]
    simp only [Progress.rank, picked.countP_eq, picked.length_eq, left.countP_eq, left.length_eq,
      List.map_cons, List.countP_append, List.countP_cons, List.length_append, List.length_cons,
      Branch.leadsOn, Branch.isClaim, Prod.lex_def, Bool.false_eq_true, if_false, if_true]
    omega
  | @compiled pass claims branches rest later record picked left =>
    cases found : tools.sources.get? record.specifier with
    | none =>
      have ends := compileOrFail_absent pass found
      rw [ends] at left
      simp only [Progress.rank, picked.countP_eq, picked.length_eq, left.countP_eq, left.length_eq, followed,
        ite_self, List.map_nil, List.nil_append, List.countP_cons, List.length_cons, Branch.leadsOn,
        Branch.isClaim, found, Option.isSome_none, Prod.lex_def, Bool.false_eq_true, if_false]
      omega
    | some entry =>
      simp only [Progress.rank, picked.countP_eq, left.countP_eq, List.countP_append, List.countP_cons,
        leadsOn_followed, Branch.leadsOn, found, Option.isSome_some, Prod.lex_def, if_true]
      omega

theorem wellFounded_advances (tools : Toolchain) (options : CompileOptions) :
    WellFounded fun next progress => Advances tools options progress next :=
  Subrelation.wf (fun step => Advances.rank_lt step)
    (InvImage.wf (Progress.rank tools.sources) (Prod.lex Nat.lt_wfRel Nat.lt_wfRel).wf)

theorem not_advances_nil (pass : Pass) (claims : List Claimed) (next : Progress) :
    ¬ Advances tools options ⟨pass, claims, []⟩ next := by
  intro step
  cases step with
  | repeated _ _ picked => exact List.cons_ne_nil _ _ picked.nil_eq.symm
  | claimed _ _ picked => exact List.cons_ne_nil _ _ picked.nil_eq.symm
  | compiled _ _ picked => exact List.cons_ne_nil _ _ picked.nil_eq.symm

theorem exists_advances (tools : Toolchain) (options : CompileOptions) {progress : Progress}
    (left : progress.branches ≠ []) : ∃ next, Advances tools options progress next := by
  obtain ⟨pass, claims, branches⟩ := progress
  obtain ⟨branch, rest, rfl⟩ := List.exists_cons_of_ne_nil left
  cases branch with
  | claim specifier isForced =>
    by_cases old : specifier ∈ claims.map (·.specifier)
    · exact ⟨_, .repeated pass claims (.refl _) old⟩
    · exact ⟨_, .claimed pass claims (.refl _) old (.refl _)⟩
  | compile record => exact ⟨_, .compiled pass claims (.refl _) (.refl _)⟩

/-! ## What a schedule loads -/

def Branch.compiles (specifier : Specifier) : Branch → Bool
  | .claim _ _ => false
  | .compile record => record.specifier = specifier

def Claimed.asks (specifier : Specifier) (claim : Claimed) : Bool :=
  claim.specifier = specifier && claim.isDue

/-- What holds of a pass at any time: what was loaded or is to be loaded was asked for by a claim. -/
structure Accounts (options : CompileOptions) (roots : List Specifier) (progress : Progress) : Prop where
  nodup : (progress.claims.map (·.specifier)).Nodup
  loads : ∀ specifier, progress.pass.loads.count specifier +
    progress.branches.countP (Branch.compiles specifier) = progress.claims.countP (Claimed.asks specifier)
  calls : progress.pass.transpilerCalls.Sublist progress.pass.loads
  forced : ∀ specifier, .claim specifier true ∈ progress.branches →
    options.forceRefresh = true ∧ specifier ∈ roots
  forcedClaims : ∀ claim ∈ progress.claims, claim.isForced = true →
    options.forceRefresh = true ∧ claim.specifier ∈ roots
  rooted : ∀ root ∈ roots, root ∈ progress.claims.map (·.specifier) ∨
    ∃ isForced, .claim root isForced ∈ progress.branches

theorem loads_compileOrFail (tools : Toolchain) (pass : Pass) (record : ModuleRecord) :
    (pass.compileOrFail tools record.specifier record).1.loads = record.specifier :: pass.loads ∧
      (pass.compileOrFail tools record.specifier record).1.transpilerCalls.Sublist
        (record.specifier :: pass.transpilerCalls) := by
  have built := buildsFrom_build tools pass record
  have calls := calls_build tools pass record
  unfold compileOrFail
  generalize pass.build tools record = result at built calls ⊢
  obtain ⟨result, after⟩ := result
  cases result with
  | error error => exact ⟨built.loads, calls⟩
  | ok targets => exact ⟨built.loads, calls⟩

theorem compiles_followed (options : CompileOptions) (targets : List Specifier) (specifier : Specifier) :
    (followed options targets).countP (Branch.compiles specifier) = 0 := by
  simp [followed, Branch.compiles, List.countP_eq_zero]

theorem compiles_started (pass : Pass) (specifier : Specifier) (isForced : Bool) (other : Specifier) :
    (started specifier (pass.claim specifier isForced).2).countP (Branch.compiles other) =
      [⟨specifier, isForced, pass.workspace.graph.get? specifier⟩].countP (Claimed.asks other) := by
  rw [claim_eq]
  cases pass.workspace.graph.get? specifier with
  | none =>
    simp [started, Branch.compiles, Claimed.asks, Claimed.isDue, ModuleRecord.awaiting, ModuleRecord.isReady,
      List.countP_singleton]
  | some record =>
    simp only [Option.getD_some]
    split
    · next kept => simp [started, Claimed.asks, Claimed.isDue, kept]
    · next due => simp [started, Branch.compiles, Claimed.asks, Claimed.isDue, List.countP_singleton, due]

theorem calls_claim (pass : Pass) (specifier : Specifier) (isForced : Bool) :
    (pass.claim specifier isForced).1.loads = pass.loads ∧
      (pass.claim specifier isForced).1.transpilerCalls = pass.transpilerCalls := by
  rw [claim_eq]
  exact ⟨rfl, rfl⟩

theorem claim_notMem_started (specifier : Specifier) (record? : Option ModuleRecord) (other : Specifier)
    (isForced : Bool) : .claim other isForced ∉ started specifier record? := by
  cases record? <;> simp [started]

theorem forced_notMem_followed (options : CompileOptions) (targets : List Specifier)
    (specifier : Specifier) : .claim specifier true ∉ followed options targets := by
  simp [followed]

section Roots

variable {claims : List Claimed} {branches rest later : List Branch} {picked : Branch}

theorem rooted_step (claims' : List Claimed) (picks : branches.Perm (picked :: rest))
    (kept : claims.map (·.specifier) ⊆ claims'.map (·.specifier)) (left : rest ⊆ later)
    (made : ∀ specifier isForced, picked = .claim specifier isForced → specifier ∈ claims'.map (·.specifier))
    (rooted : ∀ root ∈ roots, root ∈ claims.map (·.specifier) ∨ ∃ isForced, .claim root isForced ∈ branches) :
    ∀ root ∈ roots, root ∈ claims'.map (·.specifier) ∨ ∃ isForced, .claim root isForced ∈ later := by
  intro root isRoot
  rcases rooted root isRoot with claimed | ⟨isForced, waiting⟩
  · exact .inl (kept claimed)
  rcases List.mem_cons.1 (picks.mem_iff.1 waiting) with same | waiting
  · exact .inl (made root isForced same.symm)
  · exact .inr ⟨isForced, left waiting⟩

theorem forced_step (new : List Branch) (picks : branches.Perm (picked :: rest))
    (left : later.Perm (new ++ rest))
    (unforced : ∀ specifier, .claim specifier true ∉ new)
    (forced : ∀ specifier, .claim specifier true ∈ branches → options.forceRefresh = true ∧ specifier ∈ roots) :
    ∀ specifier, .claim specifier true ∈ later → options.forceRefresh = true ∧ specifier ∈ roots := by
  intro specifier waiting
  rcases List.mem_append.1 (left.mem_iff.1 waiting) with started | waiting
  · exact absurd started (unforced specifier)
  · exact forced specifier (picks.mem_iff.2 (List.mem_cons_of_mem _ waiting))

theorem subset_of_perm_append {new : List Branch} (left : later.Perm (new ++ rest)) : rest ⊆ later :=
  fun _ waiting => left.mem_iff.2 (List.mem_append_right _ waiting)

end Roots

theorem Advances.accounts {progress next : Progress} (step : Advances tools options progress next)
    (accounts : Accounts options roots progress) : Accounts options roots next := by
  obtain ⟨nodup, loads, calls, forced, forcedClaims, rooted⟩ := accounts
  cases step with
  | @repeated pass claims branches rest specifier isForced picked old =>
    have rooted := rooted_step claims picked (List.Subset.refl _) (List.Subset.refl rest)
      (by rintro _ _ ⟨⟩; exact old) rooted
    have forced := forced_step [] picked (.refl rest) (fun _ => List.not_mem_nil) forced
    refine ⟨nodup, fun other => ?_, calls, forced, forcedClaims, rooted⟩
    simpa [picked.countP_eq, Branch.compiles] using loads other
  | @claimed pass claims branches rest later specifier isForced picked fresh left =>
    obtain ⟨sameLoads, sameCalls⟩ := pass.calls_claim specifier isForced
    have isRoot : isForced = true → options.forceRefresh = true ∧ specifier ∈ roots := by
      rintro rfl
      exact forced specifier (picked.mem_iff.2 List.mem_cons_self)
    have rooted := rooted_step (⟨specifier, isForced, pass.workspace.graph.get? specifier⟩ :: claims) picked
      (List.subset_cons_self _ _) (subset_of_perm_append left) (by rintro _ _ ⟨⟩; exact List.mem_cons_self) rooted
    have forced := forced_step _ picked left (fun other => claim_notMem_started _ _ other true) forced
    refine ⟨List.nodup_cons.2 ⟨fresh, nodup⟩, fun other => ?_, by rwa [sameLoads, sameCalls], forced,
      List.forall_mem_cons.2 ⟨isRoot, forcedClaims⟩, rooted⟩
    have asked := compiles_started pass specifier isForced other
    have counted := loads other
    simp only [sameLoads, picked.countP_eq, left.countP_eq, List.countP_append, List.countP_cons,
      List.countP_nil, Branch.compiles, Bool.false_eq_true, if_false] at asked counted ⊢
    omega
  | @compiled pass claims branches rest later record picked left =>
    obtain ⟨loaded, called⟩ := loads_compileOrFail tools pass record
    have rooted := rooted_step claims picked (List.Subset.refl _) (subset_of_perm_append left)
      (by rintro _ _ ⟨⟩) rooted
    have forced := forced_step _ picked left (forced_notMem_followed options _) forced
    refine ⟨nodup, fun other => ?_, by rw [loaded]; exact called.trans (calls.cons_cons _), forced, forcedClaims,
      rooted⟩
    have counted := loads other
    simp only [loaded, picked.countP_eq, left.countP_eq, List.countP_append, List.countP_cons,
      List.count_cons, Branch.compiles, beq_iff_eq, decide_eq_true_eq, compiles_followed] at counted ⊢
    omega

theorem asks_eq_false {specifier : Specifier} {claims : List Claimed}
    (absent : specifier ∉ claims.map (·.specifier)) : claims.countP (Claimed.asks specifier) = 0 := by
  refine List.countP_eq_zero.2 fun claim member asks => absent ?_
  have same : claim.specifier = specifier := by
    simp only [Claimed.asks, Bool.and_eq_true, decide_eq_true_eq] at asks
    exact asks.1
  exact same ▸ List.mem_map_of_mem member

theorem countP_asks {claims : List Claimed} (nodup : (claims.map (·.specifier)).Nodup) {claim : Claimed}
    (member : claim ∈ claims) :
    claims.countP (Claimed.asks claim.specifier) = if claim.isDue then 1 else 0 := by
  induction claims with
  | nil => cases member
  | cons first rest ih =>
    obtain ⟨new, nodup⟩ := List.nodup_cons.1 nodup
    rw [List.countP_cons]
    rcases List.mem_cons.1 member with rfl | later
    · simp [asks_eq_false new, Claimed.asks]
    · have differ : first.specifier ≠ claim.specifier := fun same =>
        new (List.mem_map.2 ⟨claim, later, same.symm⟩)
      simp [ih nodup later, Claimed.asks, differ]

/-- What a pass loads and transpiles, given what it claimed. -/
structure LoadsOnce (options : CompileOptions) (roots : List Specifier) (claims : List Claimed)
    (loads calls : List Specifier) : Prop where
  nodup : (claims.map (·.specifier)).Nodup
  rooted : ∀ root ∈ roots, root ∈ claims.map (·.specifier)
  within : ∀ specifier ∈ loads, specifier ∈ claims.map (·.specifier)
  once : ∀ specifier, calls.count specifier ≤ loads.count specifier ∧ loads.count specifier ≤ 1
  /-- A module that is left alone, or that is ready and not a root to be refreshed. -/
  kept : ∀ claim ∈ claims, (claim.record?.any (·.isExternal) = true ∨
      claim.record?.any (·.isReady) = true ∧ ¬ (options.forceRefresh = true ∧ claim.specifier ∈ roots)) →
    claim.specifier ∉ loads ∧ claim.specifier ∉ calls
  due : ∀ claim ∈ claims, claim.record?.any (·.isExternal) = false →
    claim.record?.any (·.isReady) = false → loads.count claim.specifier = 1

def Progress.start (workspace : Workspace) (options : CompileOptions) (roots : List Specifier) :
    Progress :=
  ⟨{ workspace }, [], roots.map (.claim · options.forceRefresh)⟩

theorem accounts_start (workspace : Workspace) (options : CompileOptions) (roots : List Specifier) :
    Accounts options roots (.start workspace options roots) := by
  refine ⟨List.nodup_nil, fun specifier => ?_, List.Sublist.refl _, fun specifier member => ?_,
    List.forall_mem_nil _, fun root isRoot => .inr ⟨options.forceRefresh, List.mem_map_of_mem isRoot⟩⟩
  · simp [Progress.start, Branch.compiles]
  · obtain ⟨root, isRoot, same⟩ := List.mem_map.1 member
    obtain ⟨rfl, forced⟩ := Branch.claim.inj same
    exact ⟨forced, isRoot⟩

theorem Accounts.loadsOnce {progress : Progress} (accounts : Accounts options roots progress)
    (finished : progress.branches = []) :
    LoadsOnce options roots progress.claims progress.pass.loads progress.pass.transpilerCalls := by
  obtain ⟨nodup, counted, calls, -, forced, claimed⟩ := accounts
  simp only [finished, List.countP_nil, Nat.add_zero, List.not_mem_nil, exists_false, or_false]
    at counted claimed
  have loads {claim : Claimed} (member : claim ∈ progress.claims) :=
    (counted claim.specifier).trans (countP_asks nodup member)
  have within {specifier : Specifier} (loaded : specifier ∈ progress.pass.loads) :
      specifier ∈ progress.claims.map (·.specifier) := by
    by_contra absent
    have none := (counted specifier).trans (asks_eq_false absent)
    exact List.count_eq_zero.1 none loaded
  refine ⟨nodup, claimed, fun _ => within, fun specifier => ⟨calls.count_le _, ?_⟩,
    fun claim member kept => ?_, fun claim member compiled unready => ?_⟩
  · by_cases loaded : specifier ∈ progress.pass.loads
    · obtain ⟨claim, member, rfl⟩ := List.mem_map.1 (within loaded)
      rw [loads member]
      split <;> omega
    · rw [List.count_eq_zero.2 loaded]
      exact Nat.zero_le _
  · have idle : claim.isDue = false := by
      rcases kept with isExternal | ⟨isReady, unforced⟩
      · simp [Claimed.isDue, isExternal]
      · have := Bool.eq_false_iff.2 (mt (forced claim member) unforced)
        simp [Claimed.isDue, isReady, this]
    have none : claim.specifier ∉ progress.pass.loads :=
      List.count_eq_zero.1 ((loads member).trans (by simp [idle]))
    exact ⟨none, mt (calls.subset ·) none⟩
  · rw [loads member]
    simp [Claimed.isDue, compiled, unready]

theorem LoadsOnce.reverse {claims : List Claimed} {loads calls : List Specifier}
    (once : LoadsOnce options roots claims loads calls) :
    LoadsOnce options roots claims loads.reverse calls.reverse := by
  obtain ⟨nodup, rooted, within, counts, kept, due⟩ := once
  refine ⟨nodup, rooted, ?_, ?_, ?_, ?_⟩
  · simpa only [List.mem_reverse] using within
  · simpa only [List.count_reverse] using counts
  · simpa only [List.mem_reverse] using kept
  · simpa only [List.count_reverse] using due

theorem accounts_of_advances (workspace : Workspace) {progress : Progress}
    (run : ReflTransGen (Advances tools options) (.start workspace options roots) progress) :
    Accounts options roots progress := by
  induction run with
  | refl => exact accounts_start workspace options roots
  | tail _ step ih => exact step.accounts ih

/-- Whether a report is that of a pass which took some schedule to its end, with the given claims. -/
def ReportsRun (tools : Toolchain) (options : CompileOptions) (workspace : Workspace) (roots : List Specifier)
    (claims : List Claimed) (report : PassReport) : Prop :=
  ∃ pass, ReflTransGen (Advances tools options) (.start workspace options roots) ⟨pass, claims, []⟩ ∧
    report.loads = pass.loads.reverse ∧ report.transpilerCalls = pass.transpilerCalls.reverse

theorem ReportsRun.loadsOnce {workspace : Workspace} {claims : List Claimed} {report : PassReport}
    (reports : ReportsRun tools options workspace roots claims report) :
    LoadsOnce options roots claims report.loads report.transpilerCalls := by
  obtain ⟨pass, run, loads, calls⟩ := reports
  rw [loads, calls]
  exact ((accounts_of_advances workspace run).loadsOnce rfl).reverse

end Pass

end ModuleBuild
