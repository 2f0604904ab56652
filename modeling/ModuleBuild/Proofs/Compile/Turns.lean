import ModuleBuild.Proofs.Compile.Exploration
/-!
The turns of modules in a pass, whatever the store does. A specifier that is claimed has one turn, in which it
is loaded or left as it is; the turns of others do no more than mention it.
-/

namespace ModuleBuild

open ModuleGraph Workspace ArtifactStore

/-- What may become of the record of a module while others have their turns. -/
inductive Mentioned (specifier : Specifier) (first second : Option ModuleRecord) : Prop
  | same (kept : second = first)
  | created (absent : first = none) (found : second = some (.awaiting specifier))
  | external (blank : ∀ record, first = some record → record.isPending ∧ record.sourceHash = "")
      (found : second = some (.external specifier))

namespace Mentioned

variable {specifier : Specifier} {first second third : Option ModuleRecord}

theorem trans (one : Mentioned specifier first second) (two : Mentioned specifier second third) :
    Mentioned specifier first third := by
  cases two with
  | same kept => exact kept ▸ one
  | created absent found =>
    cases one with
    | same kept => exact .created (kept ▸ absent) found
    | created _ found' => cases absent.symm.trans found'
    | external _ found' => cases absent.symm.trans found'
  | external blank found =>
    cases one with
    | same kept => exact .external (kept ▸ blank) found
    | created absent _ => exact .external (fun _ there => by cases absent.symm.trans there) found
    | external blank' _ => exact .external blank' found

theorem of_loaded (mentioned : Mentioned specifier first second) {record : ModuleRecord}
    (found : first = some record) (loaded : record.sourceHash ≠ "") : second = some record := by
  cases mentioned with
  | same kept => exact kept.trans found
  | created absent => cases absent.symm.trans found
  | external blank => exact absurd (blank record found).2 loaded

theorem present (mentioned : Mentioned specifier first second) {record : ModuleRecord}
    (found : first = some record) : ∃ new, second = some new := by
  cases mentioned with
  | same kept => exact ⟨record, kept.trans found⟩
  | created _ there => exact ⟨_, there⟩
  | external _ there => exact ⟨_, there⟩

theorem of_decided (mentioned : Mentioned specifier first second) {record : ModuleRecord}
    (found : first = some record) (decided : record.isPending = false) : second = some record := by
  cases mentioned with
  | same kept => exact kept.trans found
  | created absent => cases absent.symm.trans found
  | external blank => cases decided.symm.trans (blank record found).1

theorem of_ready (mentioned : Mentioned specifier first second) {record : ModuleRecord}
    (found : first = some record) (ready : record.isReady) : second = some record :=
  mentioned.of_decided found (by simp_all [ModuleRecord.isReady, ModuleRecord.isPending])

theorem keyed (mentioned : Mentioned specifier first second)
    (keyed : ∀ record, first = some record → record.specifier = specifier) (record : ModuleRecord)
    (there : second = some record) : record.specifier = specifier := by
  cases mentioned with
  | same kept => exact keyed record (kept.symm.trans there)
  | created _ found => rw [← Option.some.inj (found.symm.trans there)]; rfl
  | external _ found => rw [← Option.some.inj (found.symm.trans there)]; rfl

end Mentioned

namespace ModuleGraph

/-- Records are kept under the specifiers of their modules. -/
def Keyed (graph : ModuleGraph) : Prop :=
  ∀ specifier record, graph.get? specifier = some record → record.specifier = specifier

theorem mentioned_mention (graph : ModuleGraph) (target specifier : Specifier) :
    Mentioned specifier (graph.get? specifier) ((graph.mention target).get? specifier) := by
  rw [get?_mention]
  split
  · next same =>
    subst same
    cases found : graph.get? target with
    | some record => exact .same rfl
    | none => exact .created rfl rfl
  · exact .same rfl

theorem mentioned_mentionExternal (graph : ModuleGraph) (target specifier : Specifier) :
    Mentioned specifier (graph.get? specifier) ((graph.mentionExternal target).get? specifier) := by
  simp only [mentionExternal, getOrCreate_eq]
  split
  · next blank =>
    have inserted := get?_insert (graph.mention target) (.external target) specifier
    by_cases same : target = specifier
    · subst same
      refine .external (fun record found => ?_) (inserted.trans (if_pos rfl))
      rw [found] at blank
      simpa using blank
    · refine .same (inserted.trans ((if_neg same).trans ?_))
      rw [get?_mention, if_neg same]
  · exact graph.mentioned_mention target specifier

theorem mentioned_foldl {step : ModuleGraph → Specifier → ModuleGraph}
    (mentions : ∀ (graph : ModuleGraph) (target specifier : Specifier),
      Mentioned specifier (graph.get? specifier) ((step graph target).get? specifier))
    (targets : List Specifier) (graph : ModuleGraph) (specifier : Specifier) :
    Mentioned specifier (graph.get? specifier) ((targets.foldl step graph).get? specifier) := by
  induction targets generalizing graph with
  | nil => exact .same rfl
  | cons target rest ih => exact (mentions graph target specifier).trans (ih (step graph target))

theorem get?_mentionExternal_of_blank (graph : ModuleGraph) {target : Specifier}
    (blank : ∀ record, graph.get? target = some record → record.isPending = true ∧ record.sourceHash = "") :
    (graph.mentionExternal target).get? target = some (.external target) := by
  simp only [mentionExternal, getOrCreate_eq]
  have fresh : ((graph.get? target).isNone ||
      ((graph.get? target).getD (.awaiting target)).isPending &&
        ((graph.get? target).getD (.awaiting target)).sourceHash == "") = true := by
    cases found : graph.get? target with
    | none => rfl
    | some record => simp [blank record found]
  rw [if_pos fresh]
  exact (get?_insert _ _ _).trans (if_pos rfl)

theorem get?_mentionExternal_other (graph : ModuleGraph) {target specifier : Specifier}
    (differ : target ≠ specifier) :
    (graph.mentionExternal target).get? specifier = graph.get? specifier := by
  have mentioned : (graph.mention target).get? specifier = graph.get? specifier :=
    (get?_mention _ _ _).trans (if_neg differ)
  simp only [mentionExternal, getOrCreate_eq]
  split
  · exact (get?_insert _ _ _).trans ((if_neg differ).trans mentioned)
  · exact mentioned

theorem get?_mentionExternals_of_not_mem (graph : ModuleGraph) {targets : List Specifier}
    {specifier : Specifier} (absent : specifier ∉ targets) :
    (targets.foldl mentionExternal graph).get? specifier = graph.get? specifier := by
  induction targets generalizing graph with
  | nil => rfl
  | cons target rest ih =>
    obtain ⟨differ, absent'⟩ := not_or.1 (mt List.mem_cons.2 absent)
    exact (ih (graph.mentionExternal target) absent').trans
      (graph.get?_mentionExternal_other (Ne.symm differ))

/-- A module that is mentioned as one that is left alone keeps its record, unless it was blank. -/
theorem get?_mentionExternals {graph : ModuleGraph} {specifier : Specifier} {record : ModuleRecord}
    (found : graph.get? specifier = some record) (externals : List Specifier) :
    ∃ old, (externals.foldl mentionExternal graph).get? specifier = some old ∧
      (old = record ∨ old = .external specifier ∧ record.sourceHash = "" ∧ specifier ∈ externals) := by
  by_cases listed : specifier ∈ externals
  · cases mentioned_foldl mentioned_mentionExternal externals graph specifier with
    | same kept => exact ⟨record, kept.trans found, .inl rfl⟩
    | created absent => cases absent.symm.trans found
    | external blank there => exact ⟨_, there, .inr ⟨rfl, (blank record found).2, listed⟩⟩
  · exact ⟨record, (get?_mentionExternals_of_not_mem graph listed).trans found, .inl rfl⟩

theorem get?_install {graph : ModuleGraph} {specifier : Specifier} {record : ModuleRecord}
    (found : graph.get? specifier = some record) (externals : List Specifier)
    (change : ModuleRecord → ModuleRecord) (loaded : ∀ record, (change record).sourceHash ≠ "")
    (targets : List Specifier) :
    ∃ old, (((externals.foldl mentionExternal graph).modify specifier change).mentionAll targets).get?
        specifier = some (change old) ∧
      (old = record ∨ old = .external specifier ∧ record.sourceHash = "" ∧ specifier ∈ externals) := by
  obtain ⟨old, there, same⟩ := get?_mentionExternals found externals
  have set := get?_modify (externals.foldl mentionExternal graph) specifier specifier change
  rw [if_pos rfl, there, Option.map_some] at set
  exact ⟨old, (mentioned_foldl mentioned_mention targets _ specifier).of_loaded set (loaded old), same⟩

end ModuleGraph

namespace Pass

/-- One module got a source and imports, and others were mentioned. -/
structure SetTo (specifier : Specifier) (source : String) (edges : List DependencyEdge)
    (first second : ModuleGraph) : Prop where
  others : ∀ other, other ≠ specifier → Mentioned other (first.get? other) (second.get? other)
  own : ∀ record, first.get? specifier = some record → record.specifier = specifier →
    ∃ new, second.get? specifier = some new ∧ new.specifier = specifier ∧ new.sourceHash = source ∧
      new.dependencies = edges

theorem setTo_install (graph : ModuleGraph) (externals : List Specifier) {specifier : Specifier}
    {source : String} (loaded : source ≠ "") {edges : List DependencyEdge}
    {change : ModuleRecord → ModuleRecord} (sets : ∀ record, (change record).sourceHash = source)
    (names : ∀ record, (change record).specifier = record.specifier)
    (imports : ∀ record, (change record).dependencies = edges) (targets : List Specifier) :
    SetTo specifier source edges graph
      (((externals.foldl mentionExternal graph).modify specifier change).mentionAll targets) := by
  have before (other : Specifier) :=
    mentioned_foldl mentioned_mentionExternal externals graph other
  have after (other : Specifier) := mentioned_foldl mentioned_mention targets
    ((externals.foldl mentionExternal graph).modify specifier change) other
  refine ⟨fun other differ => ?_, fun record found named => ?_⟩
  · refine (before other).trans ?_
    have same := get?_modify (externals.foldl mentionExternal graph) specifier other change
    rw [if_neg (Ne.symm differ)] at same
    exact same ▸ after other
  · obtain ⟨middle, found', named'⟩ : ∃ middle,
        (externals.foldl mentionExternal graph).get? specifier = some middle ∧
          middle.specifier = specifier := by
      have keyed := (before specifier).keyed fun other there =>
        Option.some.inj (found.symm.trans there) ▸ named
      cases before specifier with
      | same kept => exact ⟨record, kept.trans found, named⟩
      | created absent => cases absent.symm.trans found
      | external _ there => exact ⟨_, there, keyed _ there⟩
    have set := get?_modify (externals.foldl mentionExternal graph) specifier specifier change
    rw [if_pos rfl, found', Option.map_some] at set
    exact ⟨_, (after specifier).of_loaded set (by rw [sets]; exact loaded), by rw [names, named'],
      sets middle, imports middle⟩

theorem sourceHash_ne (bytes : Bytes) : sourceHash bytes ≠ "" := by
  intro empty
  have length := tokenLength_le_hex bytes
  rw [show Blake3.hex bytes = "" from empty] at length
  cases length

/-- A build of a module: it fails, or the module gets its source and the imports that it gives. -/
structure BuildsFrom (tools : Toolchain) (specifier : Specifier)
    (result : Except ModuleError (List Specifier)) (before after : Pass) : Prop where
  errors : after.errors = before.errors
  loads : after.loads = specifier :: before.loads
  error : ∀ error, result = .error error → ∀ other,
    Mentioned other (before.workspace.graph.get? other) (after.workspace.graph.get? other)
  ok : ∀ targets, result = .ok targets → ∃ source edges, tools.sources.load specifier = .ok source ∧
    SetTo specifier (sourceHash source.bytes) edges before.workspace.graph after.workspace.graph ∧
    ∀ edge ∈ edges, edge.target ∈ targets

namespace BuildsFrom

variable {tools : Toolchain} {specifier : Specifier} {before after : Pass}
  (errors : after.errors = before.errors) (loads : after.loads = specifier :: before.loads)

include errors loads

theorem of_error {error : ModuleError} (graph : ∀ other,
      Mentioned other (before.workspace.graph.get? other) (after.workspace.graph.get? other)) :
    BuildsFrom tools specifier (.error error) before after :=
  ⟨errors, loads, fun _ _ => graph, nofun⟩

theorem of_ok {source : Source} (load : tools.sources.load specifier = .ok source)
    {edges : List DependencyEdge}
    (graph : SetTo specifier (sourceHash source.bytes) edges before.workspace.graph
      after.workspace.graph) :
    BuildsFrom tools specifier (.ok (distinctTargets edges)) before after := by
  refine ⟨errors, loads, nofun, ?_⟩
  rintro targets ⟨⟩
  exact ⟨source, edges, load, graph, fun edge member => (mem_distinctTargets _ _).2 ⟨edge, member, rfl⟩⟩

end BuildsFrom

theorem buildsFrom_compileOutput {tools : Toolchain} {before pass : Pass} {specifier : Specifier}
    {source : Source} (load : tools.sources.load specifier = .ok source)
    (graph : pass.workspace.graph = before.workspace.graph) (errors : pass.errors = before.errors)
    (loads : pass.loads = specifier :: before.loads) (kind : SourceKind) (output : Transpiled) :
    let (result, after) := pass.compileOutput tools.resolver specifier (sourceHash source.bytes) kind output
    BuildsFrom tools specifier result before after := by
  cases resolved : resolveImports tools.resolver specifier output.imports with
  | mk items error? =>
    cases error? with
    | some error =>
      simp only [compileOutput, link_error resolved]
      exact .of_error (by exact errors) (by exact loads) fun other =>
        graph ▸ mentioned_foldl mentioned_mentionExternal (externalsOf items) pass.workspace.graph other
    | none =>
      simp only [compileOutput, link_ok resolved]
      refine .of_ok (by exact errors) (by exact loads) load ?_
      rw [← graph]
      refine setTo_install _ (externalsOf items) (sourceHash_ne source.bytes) ?_ ?_ ?_ _ <;>
        exact fun _ => rfl

theorem buildsFrom_build (tools : Toolchain) (pass : Pass) (record : ModuleRecord) :
    let (result, after) := pass.build tools record
    BuildsFrom tools record.specifier result pass after := by
  have run := buildRun tools pass record
  generalize pass.build tools record = result at run ⊢
  cases run with
  | unloaded => exact .of_error (by rfl) (by rfl) fun _ => .same (by rfl)
  | unread => exact .of_error (by rfl) (by rfl) fun _ => .same (by rfl)
  | @restored source restored _ load =>
    refine .of_ok (by rfl) (by rfl) load ?_
    refine setTo_install _ restored.externals (sourceHash_ne source.bytes) ?_ ?_ ?_ _ <;>
      exact fun _ => rfl
  | untranspiled _ _ _ _ counted =>
    rcases counted with rfl | rfl <;> exact .of_error (by rfl) (by rfl) fun _ => .same (by rfl)
  | @transpiled source _ _ load =>
    refine @buildsFrom_compileOutput tools pass _ _ source load ?_ ?_ ?_ _ _ <;> rfl

/-- A pass goes by a module: it is not loaded, and nothing but mentions happens to it. -/
structure PassesBy (specifier : Specifier) (before after : Pass) : Prop where
  record : Mentioned specifier (before.workspace.graph.get? specifier)
    (after.workspace.graph.get? specifier)
  errors : after.errors.get? specifier = before.errors.get? specifier
  loads : after.loads.count specifier = before.loads.count specifier

theorem PassesBy.refl (specifier : Specifier) (pass : Pass) : PassesBy specifier pass pass :=
  ⟨.same rfl, rfl, rfl⟩

theorem PassesBy.trans {specifier : Specifier} {first second third : Pass}
    (one : PassesBy specifier first second) (two : PassesBy specifier second third) :
    PassesBy specifier first third :=
  ⟨one.record.trans two.record, two.errors.trans one.errors, two.loads.trans one.loads⟩

/-- The error of a module is noted, and nothing that the module imports is kept. -/
def FailsBare (pass : Pass) (specifier : Specifier) : Prop :=
  (∃ error, pass.errors.get? specifier = some error) ∧
    ∃ record, pass.workspace.graph.get? specifier = some record ∧ record.error?.isSome = true ∧
      record.dependencies = []

theorem failsBare_fail {pass : Pass} {specifier : Specifier} {record : ModuleRecord}
    (found : pass.workspace.graph.get? specifier = some record) (error : ModuleError) :
    (pass.fail specifier error).FailsBare specifier := by
  refine ⟨⟨error, (OrderedMap.get?_insert _ _ _ _).trans (if_pos rfl)⟩, record.failed error.message, ?_, rfl, rfl⟩
  refine (get?_modify _ _ _ _).trans ?_
  rw [if_pos rfl, found, Option.map_some]

/-- A module is loaded: it fails, or it gets its source, and leads to what it imports. -/
structure Loads (tools : Toolchain) (specifier : Specifier) (before after : Pass)
    (targets : List Specifier) : Prop where
  loads : after.loads.count specifier = before.loads.count specifier + 1
  own : after.FailsBare specifier ∨
    after.errors.get? specifier = before.errors.get? specifier ∧
      ∃ source record, tools.sources.load specifier = .ok source ∧
        after.workspace.graph.get? specifier = some record ∧ record.sourceHash = sourceHash source.bytes ∧
        ∀ edge ∈ record.dependencies, edge.target ∈ targets

def IsDue (pass : Pass) (specifier : Specifier) (isForced : Bool) : Prop :=
  (pass.workspace.graph.get? specifier).any (·.isExternal) = false ∧
    ((pass.workspace.graph.get? specifier).any (·.isReady) = true → isForced = true)

structure HasTurn (tools : Toolchain) (options : CompileOptions) (specifier : Specifier) (isForced : Bool)
    (before after : Pass) (followed : List Specifier) : Prop where
  keyed : after.workspace.graph.Keyed
  others : ∀ other, other ≠ specifier → PassesBy other before after
  due : before.IsDue specifier isForced → ∃ targets, Loads tools specifier before after targets ∧
    followed = if options.ignoreDependencies then [] else targets
  idle : ¬ before.IsDue specifier isForced → PassesBy specifier before after

theorem passesBy_mention (pass : Pass) (target specifier : Specifier) :
    PassesBy specifier pass (pass.setGraph (pass.workspace.graph.mention target)) :=
  ⟨pass.workspace.graph.mentioned_mention target specifier, rfl, rfl⟩

theorem keyed_of_mentioned {first second : ModuleGraph} (keyed : first.Keyed)
    (mentioned : ∀ specifier, Mentioned specifier (first.get? specifier) (second.get? specifier)) :
    second.Keyed :=
  fun specifier => (mentioned specifier).keyed (keyed specifier)

theorem hasTurn_build {tools : Toolchain} {pass : Pass} (keyed : pass.workspace.graph.Keyed)
    {specifier : Specifier} {record : ModuleRecord}
    (found : pass.workspace.graph.get? specifier = some record) :
    let (after, targets) := pass.compileOrFail tools specifier record
    after.workspace.graph.Keyed ∧ (∀ other, other ≠ specifier → PassesBy other pass after) ∧
      Loads tools specifier pass after targets := by
  obtain rfl := keyed specifier record found
  have built := buildsFrom_build tools pass record
  unfold compileOrFail
  generalize pass.build tools record = result at built ⊢
  obtain ⟨result, after⟩ := result
  have loads (other : Specifier) (differ : other ≠ record.specifier) :
      after.loads.count other = pass.loads.count other := by
    rw [built.loads, List.count_cons_of_ne (Ne.symm differ)]
  have own : after.loads.count record.specifier = pass.loads.count record.specifier + 1 := by
    rw [built.loads, List.count_cons_self]
  cases result with
  | error error =>
    -- what fails loses its imports; on the way others may have been mentioned
    have mentioned := built.error error rfl
    have named := keyed_of_mentioned keyed mentioned
    have get? (other : Specifier) := get?_modify after.workspace.graph record.specifier other
      (·.failed error.message)
    obtain ⟨old, there⟩ := (mentioned record.specifier).present found
    refine ⟨fun other new there => ?_, fun other differ => ⟨?_, ?_, loads other differ⟩, own,
      .inl (failsBare_fail there error)⟩
    · have there' := (get? other).symm.trans there
      split at there'
      · next same =>
        obtain ⟨old, was, rfl⟩ := Option.map_eq_some_iff.1 there'
        exact (named _ old was).trans same
      · exact named other new there'
    · exact ((get? other).trans (if_neg (Ne.symm differ))) ▸ mentioned other
    · exact (OrderedMap.get?_insert _ _ _ _).trans ((if_neg (Ne.symm differ)).trans
        (congrArg (·.get? other) built.errors))
  | ok targets =>
    obtain ⟨source, edges, load, set, within⟩ := built.ok targets rfl
    obtain ⟨new, found', named, same, rfl⟩ := set.own record found rfl
    refine ⟨fun other => ?_, fun other differ => ⟨set.others other differ, ?_, loads other differ⟩, own,
      .inr ⟨congrArg (·.get? record.specifier) built.errors, source, new, load, found', same, within⟩⟩
    · by_cases self : other = record.specifier
      · subst self
        intro there found''
        obtain rfl := Option.some.inj (found'.symm.trans found'')
        exact named
      · exact (set.others other self).keyed (keyed other)
    · exact congrArg (·.get? other) built.errors

theorem isDue_iff (pass : Pass) (specifier : Specifier) (isForced : Bool) :
    let record := (pass.workspace.graph.get? specifier).getD (.awaiting specifier)
    pass.IsDue specifier isForced ↔ (record.isExternal || (record.isReady && !isForced)) = false := by
  unfold IsDue
  cases pass.workspace.graph.get? specifier with
  | none => simp [ModuleRecord.awaiting, ModuleRecord.isReady]
  | some record => simp

theorem visit_cases (tools : Toolchain) (options : CompileOptions) (pass : Pass) (specifier : Specifier)
    (isForced : Bool) :
    let mentioned := pass.setGraph (pass.workspace.graph.mention specifier)
    let record := (pass.workspace.graph.get? specifier).getD (.awaiting specifier)
    ¬ pass.IsDue specifier isForced ∧ pass.visit tools options specifier isForced = (mentioned, []) ∨
      pass.IsDue specifier isForced ∧ mentioned.workspace.graph.get? specifier = some record ∧
        pass.visit tools options specifier isForced =
          let (after, targets) := mentioned.compileOrFail tools specifier record
          (after, if options.ignoreDependencies then [] else targets) := by
  intro mentioned record
  have due : pass.IsDue specifier isForced ↔ (record.isExternal || (record.isReady && !isForced)) = false :=
    isDue_iff pass specifier isForced
  rw [visit, claim_eq, due]
  by_cases kept : (record.isExternal || (record.isReady && !isForced)) = true
  · exact .inl ⟨by simp [kept], by simp only [record, kept, if_true, mentioned]⟩
  · refine .inr ⟨by simpa using kept, (get?_mention _ _ _).trans (if_pos rfl), ?_⟩
    simp only [record, kept, mentioned, Bool.false_eq_true, if_false]

theorem hasTurn_visit (tools : Toolchain) (options : CompileOptions) {pass : Pass}
    (keyed : pass.workspace.graph.Keyed) (specifier : Specifier) (isForced : Bool) :
    HasTurn tools options specifier isForced pass (pass.visit tools options specifier isForced).1
      (pass.visit tools options specifier isForced).2 := by
  have mentions (other : Specifier) := pass.passesBy_mention specifier other
  have keyed' := keyed_of_mentioned keyed fun other => (mentions other).record
  rcases visit_cases tools options pass specifier isForced with ⟨idle, visit⟩ | ⟨isDue, found, visit⟩
  · rw [visit]
    exact ⟨keyed', fun other _ => mentions other, fun due => absurd due idle, fun _ => mentions specifier⟩
  · obtain ⟨named, others, loads⟩ := hasTurn_build keyed' found
    rw [visit]
    exact ⟨named, fun other differ => (mentions other).trans (others other differ),
      fun _ => ⟨_, ⟨loads.loads, loads.own⟩, rfl⟩, fun notDue => absurd isDue notDue⟩

section VisitAll

variable (tools : Toolchain) (options : CompileOptions)

theorem visitAll_of_mem {claimed : List Specifier} {specifier : Specifier} (old : specifier ∈ claimed)
    (pass : Pass) (isForced : Bool) (rest : List (Specifier × Bool)) :
    visitAll tools options claimed pass ((specifier, isForced) :: rest) =
      visitAll tools options claimed pass rest := by
  rw [visitAll, dif_pos old]

/-- A module that is claimed leads to others, whatever there is left to visit. -/
theorem visitAll_of_fresh {claimed : List Specifier} {specifier : Specifier} (fresh : specifier ∉ claimed)
    (pass : Pass) (isForced : Bool) (rest : List (Specifier × Bool)) :
    visitAll tools options claimed pass ((specifier, isForced) :: rest) =
      visitAll tools options (specifier :: claimed) (pass.visit tools options specifier isForced).1
        ((if (tools.sources.get? specifier).isSome then
          (pass.visit tools options specifier isForced).2 else []).map (·, false) ++ rest) := by
  rw [visitAll, dif_neg fresh]
  dsimp only
  split
  · next absent => simp [absent]
  · next found => simp [found]

theorem visitAll_induction {motive : List Specifier → Pass → List (Specifier × Bool) → Prop}
    (done : ∀ claimed pass, motive claimed pass [])
    (old : ∀ claimed pass specifier isForced rest, specifier ∈ claimed → motive claimed pass rest →
      motive claimed pass ((specifier, isForced) :: rest))
    (turn : ∀ claimed pass specifier isForced rest (targets : List Specifier), specifier ∉ claimed →
      (∀ target, target ∈ targets ↔ (tools.sources.get? specifier).isSome = true ∧
        target ∈ (pass.visit tools options specifier isForced).2) →
      (∀ rest, visitAll tools options claimed pass ((specifier, isForced) :: rest) =
        visitAll tools options (specifier :: claimed) (pass.visit tools options specifier isForced).1
          (targets.map (·, false) ++ rest)) →
      motive (specifier :: claimed) (pass.visit tools options specifier isForced).1
        (targets.map (·, false) ++ rest) →
      motive claimed pass ((specifier, isForced) :: rest))
    (claimed : List Specifier) (pass : Pass) (work : List (Specifier × Bool)) :
    motive claimed pass work := by
  induction claimed, pass, work using visitAll.induct tools options with
  | case1 claimed pass => exact done claimed pass
  | case2 claimed pass specifier isForced rest member ih => exact old _ _ _ _ _ member ih
  | case3 claimed pass specifier isForced rest fresh middle targets visit absent ih =>
    have next := visitAll_of_fresh tools options fresh pass isForced
    simp only [visit, absent, Option.isSome_none, Bool.false_eq_true, if_false] at next
    refine turn _ _ _ _ _ [] fresh (by simp [absent]) (fun rest => ?_) ?_
    · rw [visit]
      exact next rest
    · rw [visit]
      exact ih
  | case4 claimed pass specifier isForced rest fresh middle targets visit entry found ih =>
    have next := visitAll_of_fresh tools options fresh pass isForced
    simp only [visit, found, Option.isSome_some, if_true] at next
    refine turn _ _ _ _ _ targets fresh (by simp [visit, found]) (fun rest => ?_) ?_
    · rw [visit]
      exact next rest
    · rw [visit]
      exact ih

theorem visitAll_passesBy (claimed : List Specifier) (pass : Pass) (work : List (Specifier × Bool))
    (keyed : pass.workspace.graph.Keyed) {specifier : Specifier} (member : specifier ∈ claimed) :
    let (after, touched) := visitAll tools options claimed pass work
    specifier ∈ touched ∧ PassesBy specifier pass after := by
  induction claimed, pass, work using visitAll_induction tools options with
  | done claimed pass =>
    rw [visitAll]
    exact ⟨List.mem_reverse.2 member, .refl _ _⟩
  | old claimed pass other isForced rest old ih =>
    rw [visitAll_of_mem tools options old]
    exact ih keyed member
  | turn claimed pass other isForced rest targets fresh _ next ih =>
    have turn := hasTurn_visit tools options keyed other isForced
    have differ : specifier ≠ other := fun same => fresh (same ▸ member)
    rw [next]
    obtain ⟨touched, passes⟩ := ih turn.keyed (List.mem_cons_of_mem _ member)
    exact ⟨touched, (turn.others specifier differ).trans passes⟩

theorem mem_visitAll (claimed : List Specifier) (pass : Pass) (work : List (Specifier × Bool))
    {specifier : Specifier} (met : specifier ∈ claimed ∨ ∃ isForced, (specifier, isForced) ∈ work) :
    specifier ∈ (visitAll tools options claimed pass work).2 := by
  induction claimed, pass, work using visitAll_induction tools options with
  | done claimed pass =>
    rw [visitAll]
    exact List.mem_reverse.2 (by simpa using met)
  | old claimed pass other isForced rest old ih =>
    rw [visitAll_of_mem tools options old]
    refine ih (met.elim .inl ?_)
    rintro ⟨given, member⟩
    rcases List.mem_cons.1 member with same | later
    · exact .inl ((Prod.mk.inj same).1 ▸ old)
    · exact .inr ⟨given, later⟩
  | turn claimed pass other isForced rest targets fresh _ next ih =>
    rw [next]
    refine ih (met.elim (fun member => .inl (List.mem_cons_of_mem _ member)) ?_)
    rintro ⟨given, member⟩
    rcases List.mem_cons.1 member with same | later
    · exact .inl ((Prod.mk.inj same).1 ▸ List.mem_cons_self)
    · exact .inr ⟨given, List.mem_append_right _ later⟩

/-- A module has one turn or none. It is forced only as work, and what it leads to is visited. -/
theorem visitAll_turn (claimed : List Specifier) (pass : Pass) (work : List (Specifier × Bool))
    (keyed : pass.workspace.graph.Keyed) {specifier : Specifier} (fresh : specifier ∉ claimed) :
    let (after, touched) := visitAll tools options claimed pass work
    specifier ∉ touched ∧ PassesBy specifier pass after ∨
      specifier ∈ touched ∧ ∃ middle isForced, middle.workspace.graph.Keyed ∧
        PassesBy specifier pass middle ∧ (isForced = true → (specifier, true) ∈ work) ∧
        PassesBy specifier (middle.visit tools options specifier isForced).1 after ∧
        ((tools.sources.get? specifier).isSome →
          ∀ target ∈ (middle.visit tools options specifier isForced).2, target ∈ touched) := by
  induction claimed, pass, work using visitAll_induction tools options with
  | done claimed pass =>
    rw [visitAll]
    exact .inl ⟨mt List.mem_reverse.1 fresh, .refl _ _⟩
  | old claimed pass other isForced rest old ih =>
    rw [visitAll_of_mem tools options old]
    refine (ih keyed fresh).imp_right ?_
    rintro ⟨touched, middle, isForced, named, before, work, after, leads⟩
    exact ⟨touched, middle, isForced, named, before,
      fun given => List.mem_cons_of_mem _ (work given), after, leads⟩
  | turn claimed pass other isForced rest targets new within next ih =>
    have turn := hasTurn_visit tools options keyed other isForced
    rw [next]
    by_cases own : specifier = other
    · subst own
      obtain ⟨touched, passes⟩ := visitAll_passesBy tools options (specifier :: claimed) _
        (targets.map (·, false) ++ rest) turn.keyed List.mem_cons_self
      refine .inr ⟨touched, pass, isForced, keyed, .refl _ _, fun given => given ▸ List.mem_cons_self,
        passes, fun found target member => ?_⟩
      have work : (target, false) ∈ targets.map (·, false) :=
        List.mem_map.2 ⟨target, (within target).2 ⟨found, member⟩, rfl⟩
      exact mem_visitAll tools options _ _ _ (.inr ⟨false, List.mem_append_left _ work⟩)
    · refine (ih turn.keyed (by simp [own, fresh])).imp ?_ ?_
      · rintro ⟨absent, passes⟩
        exact ⟨absent, (turn.others _ own).trans passes⟩
      · rintro ⟨touched, middle, isForced', named, before, work, after, leads⟩
        refine ⟨touched, middle, isForced', named, (turn.others _ own).trans before, fun given => ?_, after,
          leads⟩
        have listed : (specifier, true) ∈ rest := by simpa using work given
        exact List.mem_cons_of_mem _ listed

end VisitAll

/-- A root has its turn first, and is passed by afterwards. -/
theorem visitAll_first {tools : Toolchain} {options : CompileOptions} {base : Workspace}
    (keyed : base.graph.Keyed) {specifier : Specifier} {isForced : Bool} {first : Pass}
    {touched : List Specifier}
    (visited : visitAll tools options [] { workspace := base } [(specifier, isForced)] = (first, touched)) :
    specifier ∈ touched ∧
      PassesBy specifier (({ workspace := base } : Pass).visit tools options specifier isForced).1 first := by
  have keyed' := (@hasTurn_visit tools options { workspace := base } keyed specifier isForced).keyed
  have passes := fun work =>
    visitAll_passesBy tools options [specifier] _ work keyed' List.mem_cons_self
  rw [visitAll_of_fresh tools options List.not_mem_nil] at visited
  have whole := passes (((if (tools.sources.get? specifier).isSome then
    (({ workspace := base } : Pass).visit tools options specifier isForced).2 else []).map (·, false)) ++ [])
  rw [visited] at whole
  exact whole

end Pass

end ModuleBuild
