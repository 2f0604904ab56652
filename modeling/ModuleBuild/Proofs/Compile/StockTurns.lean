import ModuleBuild.Proofs.Compile.Stock
import ModuleBuild.Proofs.Compile.ServiceTurns
/-!
The first half of a pass over a workspace whose store is accounted for. Nothing is stored meanwhile; a module
that has its turn fails, is left alone, or has code that it can be settled with.
-/

namespace ModuleBuild

open ModuleGraph Workspace ArtifactStore

/-! ## Mentions -/

namespace ModuleGraph

theorem indexed_mentionExternals {graph : ModuleGraph} (indexed : graph.Indexed) (targets : List Specifier) :
    (targets.foldl mentionExternal graph).Indexed :=
  List.foldlRecOn targets _ indexed fun _ kept target _ => kept.mentionExternal target

theorem indexed_install {graph : ModuleGraph} (indexed : graph.Indexed) (externals : List Specifier)
    (specifier : Specifier) (change : ModuleRecord → ModuleRecord)
    (names : ∀ record, (change record).specifier = record.specifier) (targets : List Specifier) :
    (((externals.foldl mentionExternal graph).modify specifier change).mentionAll targets).Indexed := by
  have modified := (indexed_mentionExternals indexed externals).modify specifier names
  exact List.foldlRecOn targets _ modified fun _ kept target _ => kept.mention target

end ModuleGraph

/-! ## What is taken over -/

theorem ModuleRecord.unready_of_errored {record : ModuleRecord} (errored : record.error?.isSome = true) :
    record.isReady = false := by
  unfold ModuleRecord.error? at errored
  cases state : record.state with
  | pending => simp [state] at errored
  | ready => simp [state] at errored
  | errored reason => simp [ModuleRecord.isReady, state]

theorem Stocked.of_errored {store : ArtifactStore} {waiting? : Option (Option Bytes)}
    {record : ModuleRecord} (errored : record.error?.isSome = true) (bare : record.output? = none)
    (hex : record.sourceHash = "" ∨ IsHex record.sourceHash) : Stocked store waiting? record := by
  cases left : record.isExternal with
  | true => exact .left left bare hex
  | false => exact .bare left (ModuleRecord.unready_of_errored errored) bare hex

theorem Mentioned.of_errored {specifier : Specifier} {first second : Option ModuleRecord}
    (mentioned : Mentioned specifier first second) {record : ModuleRecord} (found : first = some record)
    (errored : record.error?.isSome = true) : second = some record := by
  refine mentioned.of_decided found ?_
  cases state : record.state <;> simp_all [ModuleRecord.error?, ModuleRecord.isPending]

namespace Pass

/-- Earlier output whose code is a text with room for tokens. If the module has output, it is that. -/
structure TakesStock (store : ArtifactStore) (record : ModuleRecord) (restored : Restored) : Prop where
  loaded : record.sourceHash ≠ ""
  code : ∃ output hash code, restored.output? = some output ∧
    output.key = artifactKey record.specifier hash ∧ store.blobs.get? output.key = some code ∧
    output.length = code.length ∧ SlotsInText restored.dependencies code
  same : ∀ old, record.output? = some old → ∃ output, restored.output? = some output ∧
    output.key = old.key
  sidecar : ∀ sidecar output, store.sidecars.get? record.specifier = some sidecar →
    restored.output? = some output → ∃ noted, sidecar.output? = some noted ∧ noted.key = output.key

variable {workspace : Workspace} {record : ModuleRecord}

theorem takesStock_offer? (inOrder : workspace.store.faults = .empty)
    (found : workspace.graph.get? record.specifier = some record)
    (stocked : ∀ sidecar, workspace.store.sidecars.get? record.specifier = some sidecar →
      SidecarStocked workspace record.specifier sidecar) {source : String} {restored : Restored}
    (given : offer? workspace.store record.specifier source = .ok (some restored)) :
    TakesStock workspace.store record restored := by
  unfold offer? at given
  cases read : (workspace.store.getSidecar record.specifier).1 with
  | error error => simp [read] at given
  | ok sidecar? =>
    cases sidecar? with
    | none => simp [read] at given
    | some again =>
      obtain ⟨sidecar, there, noted, slots⟩ := getSidecar_ok inOrder read
      obtain ⟨⟨output, hash, code, own, key, stored, length, fits⟩, other, found', -, loaded, keys⟩ :=
        stocked sidecar there
      obtain rfl := Option.some.inj (found'.symm.trans found)
      simp only [read, noted, own] at given
      split at given
      · obtain rfl := Option.some.inj (Except.ok.inj given)
        refine ⟨loaded, ⟨output, hash, code, rfl, key, stored, length, fits.congr slots⟩,
          fun old own' => ?_, fun other output' there' taken => ?_⟩
        · obtain ⟨output', own'', same⟩ := keys old own'
          exact ⟨output', own.symm.trans own'', same⟩
        · obtain rfl := Option.some.inj (there.symm.trans there')
          exact ⟨output', own.trans taken, rfl⟩
      · cases given

theorem takesStock_restore? {waiting? : Option (Option Bytes)} (unstaged : waiting?.join = none)
    (inOrder : workspace.store.faults = .empty)
    (found : workspace.graph.get? record.specifier = some record)
    (own : Stocked workspace.store waiting? record)
    (stocked : ∀ sidecar, workspace.store.sidecars.get? record.specifier = some sidecar →
      SidecarStocked workspace record.specifier sidecar) {source : String} {restored : Restored}
    (given : (restore? workspace.store record source).1 = .ok (some restored)) :
    TakesStock workspace.store record restored := by
  obtain ⟨result, after, restores, -, kept⟩ := restore?_eq inOrder record source
  obtain rfl : result = .ok (some restored) := by rw [restores] at given; exact given
  rcases kept with ⟨⟨-, -, output, output?, -⟩, same⟩ | ⟨-, same⟩
  · obtain rfl := Option.some.inj (Except.ok.inj same)
    cases own with
    | left _ bare => cases bare.symm.trans output?
    | bare _ _ bare => cases bare.symm.trans output?
    | ample ample =>
      obtain ⟨code, source, fits⟩ := ample.code
      obtain ⟨-, output', _, own', -, stored⟩ := source.resolve_left (by simp [unstaged])
      obtain ⟨hash, code', key, stored', length⟩ := ample.filed output' own'
      obtain rfl := Option.some.inj (stored'.symm.trans stored)
      refine ⟨ample.loaded, ⟨output', hash, code', own', key, stored, length, fits⟩,
        fun old own'' => ⟨old, own'', rfl⟩, fun sidecar old there own'' => ?_⟩
      obtain ⟨-, other, found', -, -, keys⟩ := stocked sidecar there
      obtain rfl := Option.some.inj (found'.symm.trans found)
      exact keys old own''
  · exact takesStock_offer? inOrder found stocked same.symm

/-! ## Building one module -/

/-- The record of a module that takes over earlier output and still has to be settled. -/
def takeOver (source : String) (restored : Restored) (record : ModuleRecord) : ModuleRecord :=
  { record with
    kind? := restored.kind?
    sourceHash := source
    dependencies := restored.dependencies
    flags := restored.flags
    output? := restored.output?
    state := .pending }

theorem indexed_stage {pass : Pass} (indexed : pass.workspace.graph.Indexed) (specifier : Specifier)
    (image : Image) : (pass.stage specifier image).workspace.graph.Indexed :=
  indexed_install indexed image.externals specifier (prepare image) (fun _ => rfl) _

theorem indexed_reuse {pass : Pass} (indexed : pass.workspace.graph.Indexed) (specifier : Specifier)
    (source : String) (restored : Restored) :
    (pass.reuse specifier source restored).1.workspace.graph.Indexed :=
  indexed_install indexed restored.externals specifier (takeOver source restored) (fun _ => rfl) _

def mentionedBy (tools : Toolchain) (specifier : Specifier) : ModuleError → List Specifier
  | .resolve _ => externalsOf (tools.resolutions specifier)
  | _ => []

theorem mentionedBy_of_error {tools : Toolchain} {specifier : Specifier} {cause : ModuleError}
    (fails : tools.transpiled? specifier = .error cause) (error : ModuleError) :
    mentionedBy tools specifier error = [] := by
  cases error <;> simp [mentionedBy, Toolchain.resolutions, fails, externalsOf]

/-- The earlier output that is valid for the source of a module, if it has one. -/
def reusable? (tools : Toolchain) (store : ArtifactStore) (record : ModuleRecord) :
    Except StoreError (Option Restored) :=
  match tools.sources.load record.specifier with
  | .error _ => .ok none
  | .ok source =>
    if source.kind.isSupported then (restore? store record (sourceHash source.bytes)).1 else .ok none

/-- What the sidecar of a module allows to take over for its source. -/
def offered? (tools : Toolchain) (store : ArtifactStore) (specifier : Specifier) :
    Except StoreError (Option Restored) :=
  match tools.sources.load specifier with
  | .error _ => .ok none
  | .ok source =>
    if source.kind.isSupported then offer? store specifier (sourceHash source.bytes) else .ok none

theorem reusable?_eq (tools : Toolchain) {store : ArtifactStore} (inOrder : store.faults = .empty)
    (record : ModuleRecord) : reusable? tools store record = offered? tools store record.specifier ∨
      reusable? tools store record = .ok (some (keptOutput record)) ∧ record.output?.isSome = true := by
  unfold reusable? offered?
  split
  · exact .inl rfl
  · next source _ =>
    split
    · obtain ⟨result, after, restores, -, kept⟩ := restore?_eq inOrder record (sourceHash source.bytes)
      rw [restores]
      rcases kept with ⟨⟨-, -, output, own, -⟩, same⟩ | ⟨-, same⟩
      · exact .inr ⟨same, by rw [own]; rfl⟩
      · exact .inl same
    · exact .inl rfl

theorem reusable?_of_bare (tools : Toolchain) {store : ArtifactStore} (inOrder : store.faults = .empty)
    {record : ModuleRecord} (bare : record.output? = none) :
    reusable? tools store record = offered? tools store record.specifier :=
  (reusable?_eq tools inOrder record).resolve_right fun ⟨_, own⟩ => by simp [bare] at own

theorem offered?_of_unknown (tools : Toolchain) {store : ArtifactStore} (inOrder : store.faults = .empty)
    {specifier : Specifier} (bare : store.sidecars.get? specifier = none) :
    offered? tools store specifier = .ok none := by
  unfold offered?
  split
  · rfl
  · split
    · simp [offer?, getSidecar_eq inOrder, bare]
    · rfl

theorem offered?_congr (tools : Toolchain) {first second : ArtifactStore} (inOrder : first.faults = .empty)
    (setup : SameSetup first second) {specifier : Specifier}
    (same : second.sidecars.get? specifier = first.sidecars.get? specifier)
    (blobs : ∀ sidecar output, first.sidecars.get? specifier = some sidecar →
      sidecar.output? = some output →
        second.blobs.contains output.key = first.blobs.contains output.key) :
    offered? tools second specifier = offered? tools first specifier := by
  unfold offered?
  cases tools.sources.load specifier with
  | error error => rfl
  | ok source => simp only [offer?_congr inOrder setup same blobs]

/-- What a module that was never loaded can take over depends on its sidecar only. -/
theorem reusable?_awaiting_congr (tools : Toolchain) {first second : ArtifactStore}
    (inOrder : first.faults = .empty) (setup : SameSetup first second) {specifier : Specifier}
    (same : second.sidecars.get? specifier = first.sidecars.get? specifier)
    (blobs : ∀ sidecar output, first.sidecars.get? specifier = some sidecar →
      sidecar.output? = some output →
        second.blobs.contains output.key = first.blobs.contains output.key) :
    reusable? tools second (.awaiting specifier) = reusable? tools first (.awaiting specifier) := by
  rw [reusable?_of_bare tools (setup.faults.trans inOrder) rfl, reusable?_of_bare tools inOrder rfl]
  exact offered?_congr tools inOrder setup same blobs

/-- Why a build fails: nothing can be taken over and the source does not compile, or the store gives an error.
-/
def FailsWith (tools : Toolchain) (store : ArtifactStore) (record : ModuleRecord) (error : ModuleError) :
    Prop :=
  reusable? tools store record = .ok none ∧ tools.image? record.specifier = .error error ∨
    ∃ cause, reusable? tools store record = .error cause ∧ error = .artifact (.store cause)

/-- All that a build can come to; `opened` is the pass with what it counts. -/
inductive Yields (tools : Toolchain) (pass : Pass) (record : ModuleRecord) :
    Except ModuleError (List Specifier) × Pass → Prop
  | failed (error : ModuleError) (opened : Pass) (alike : Alike pass opened)
    (fails : FailsWith tools pass.workspace.store record error) :
    Yields tools pass record (.error error, opened.setGraph
      ((mentionedBy tools record.specifier error).foldl mentionExternal opened.workspace.graph))
  | compiled (image : Image) (opened : Pass) (alike : Alike pass opened)
    (fresh : reusable? tools pass.workspace.store record = .ok none)
    (is : tools.image? record.specifier = .ok image) :
    Yields tools pass record (.ok (distinctTargets image.edges), opened.stage record.specifier image)
  | restored (source : Source) (restored : Restored) (opened : Pass) (alike : Alike pass opened)
    (load : tools.sources.load record.specifier = .ok source)
    (given : (restore? pass.workspace.store record (sourceHash source.bytes)).1 = .ok (some restored))
    (taken : reusable? tools pass.workspace.store record = .ok (some restored)) :
    Yields tools pass record (.ok (distinctTargets restored.dependencies),
      (opened.reuse record.specifier (sourceHash source.bytes) restored).1)

theorem yields_compileOutput {tools : Toolchain} {pass opened : Pass} {record : ModuleRecord}
    (alike : Alike pass opened) (fresh : reusable? tools pass.workspace.store record = .ok none)
    {loaded : Source} {output : Transpiled}
    (transpiled : tools.transpiled? record.specifier = .ok (loaded, output)) :
    Yields tools pass record
      (opened.compileOutput tools.resolver record.specifier (sourceHash loaded.bytes) loaded.kind output) := by
  cases is : tools.image? record.specifier with
  | ok image =>
    rw [compileOutput_ok transpiled is]
    exact .compiled image opened alike fresh is
  | error error =>
    rw [compileOutput_error transpiled is]
    obtain ⟨cause, rfl⟩ : ∃ cause, error = .resolve cause := by
      simp only [Toolchain.image?, transpiled] at is
      split at is
      · exact ⟨_, (Except.error.inj is).symm⟩
      · cases is
    exact .failed (.resolve cause) opened alike (.inl ⟨fresh, is⟩)

theorem yields_build (tools : Toolchain) {pass : Pass} (inOrder : pass.workspace.store.faults = .empty)
    (record : ModuleRecord) : Yields tools pass record (pass.build tools record) := by
  have image? {error : ModuleError} (fails : tools.transpiled? record.specifier = .error error) :
      tools.image? record.specifier = .error error := by simp [Toolchain.image?, fails]
  have contents {source : String} {store : ArtifactStore} {result : Except StoreError (Option Restored)}
      (asked : restore? pass.workspace.store record source = (result, store)) :
      SameContents pass.workspace.store store := by
    obtain ⟨_, _, given, contents, -⟩ := restore?_eq inOrder record source
    cases asked.symm.trans given
    exact contents
  have reusable {loaded : Source} {store : ArtifactStore} {result : Except StoreError (Option Restored)}
      (load : tools.sources.load record.specifier = .ok loaded) (supported : loaded.kind.isSupported = true)
      (asked : restore? pass.workspace.store record (sourceHash loaded.bytes) = (result, store)) :
      reusable? tools pass.workspace.store record = result := by
    simp [reusable?, load, supported, asked]
  have failed {error : ModuleError} {opened : Pass} (alike : Alike pass opened)
      (fails : tools.transpiled? record.specifier = .error error)
      (fresh : reusable? tools pass.workspace.store record = .ok none) :
      Yields tools pass record (.error error, opened) := by
    have yields : Yields tools pass record _ := .failed error opened alike (.inl ⟨fresh, image? fails⟩)
    rw [mentionedBy_of_error fails] at yields
    exact yields
  have run := buildRun tools pass record
  generalize pass.build tools record = result at run ⊢
  cases run with
  | unloaded fails early =>
    refine failed (alike_loading (.refl _) _) fails ?_
    cases load : tools.sources.load record.specifier with
    | error error => simp [reusable?, load]
    | ok loaded => simp [reusable?, load, early loaded load]
  | unread load supported asked =>
    exact .failed _ _ (alike_loading (contents asked) _) (.inr ⟨_, reusable load supported asked, rfl⟩)
  | restored load supported asked =>
    exact .restored _ _ _ (alike_loading (contents asked) _) load (by rw [asked])
      (reusable load supported asked)
  | untranspiled load supported asked fails counted =>
    have fresh := reusable load supported asked
    rcases counted with rfl | rfl
    · exact failed (alike_loading (contents asked) _) fails fresh
    · exact failed (alike_calling (contents asked) _) fails fresh
  | transpiled load supported asked transpiled =>
    exact yields_compileOutput (alike_calling (contents asked) _) (reusable load supported asked)
      transpiled

/-! ## Turns -/

inductive TurnsOut (pass : Pass) (specifier : Specifier) : Prop
  | failed {error : ModuleError} {record : ModuleRecord}
      (errors : pass.errors.get? specifier = some error)
      (found : pass.workspace.graph.get? specifier = some record) (errored : record.error?.isSome = true)
      (bare : record.output? = none) (hex : record.sourceHash = "" ∨ IsHex record.sourceHash)
  | left {record : ModuleRecord} (clear : pass.errors.get? specifier = none)
      (found : pass.workspace.graph.get? specifier = some record) (left : record.isExternal = true)
      (bare : record.output? = none) (hex : record.sourceHash = "" ∨ IsHex record.sourceHash)
  | ample {record : ModuleRecord} (clear : pass.errors.get? specifier = none)
      (found : pass.workspace.graph.get? specifier = some record)
      (ample : Ample pass.workspace.store (pass.staged.get? specifier) record)

theorem TurnsOut.stocked {pass : Pass} {specifier : Specifier} (turns : TurnsOut pass specifier)
    (record : ModuleRecord) (there : pass.workspace.graph.get? specifier = some record) :
    Stocked pass.workspace.store (some (pass.staged.get? specifier)) record := by
  cases turns with
  | failed _ found errored bare hex =>
    obtain rfl := Option.some.inj (there.symm.trans found)
    exact .of_errored errored bare hex
  | left _ found left bare hex =>
    obtain rfl := Option.some.inj (found.symm.trans there)
    exact .left left bare hex
  | ample _ found ample =>
    obtain rfl := Option.some.inj (found.symm.trans there)
    exact .ample ample (.inr rfl)

/-- The keys of a pass that no record refers to: those from before, and those of the modules that failed. -/
def Strayed (astray : String → Prop) (base : Workspace) (pass : Pass) (key : String) : Prop :=
  astray key ∨ ∃ specifier error, pass.errors.get? specifier = some error ∧
    base.graph.RefersTo specifier key

/-- A pass over a workspace whose store is accounted for, after some modules were claimed. -/
structure TakesTurns (astray : String → Prop) (base : Workspace) (claimed : List Specifier) (pass : Pass) :
    Prop where
  stocks : Stocks (Strayed astray base pass) (pass.backlog claimed) pass.workspace
  contents : SameContents base.store pass.workspace.store
  unstarted : ∀ specifier, specifier ∉ claimed →
    Mentioned specifier (base.graph.get? specifier) (pass.workspace.graph.get? specifier) ∧
      pass.staged.get? specifier = none ∧ pass.errors.get? specifier = none
  turned : ∀ specifier ∈ claimed, TurnsOut pass specifier

section Turn

variable {astray : String → Prop} {base : Workspace} {claimed : List Specifier} {pass after : Pass}
  {specifier : Specifier}

theorem TakesTurns.start (stocks : Stocks astray .clear base) :
    TakesTurns astray base [] { workspace := base } where
  stocks := (stocks.congr rfl).mono fun _ => .inl
  contents := .refl _
  unstarted _ _ := ⟨.same rfl, rfl, rfl⟩
  turned _ member := absurd member List.not_mem_nil

structure HasOwnTurn (specifier : Specifier) (before after : Pass) : Prop where
  contents : SameContents before.workspace.store after.workspace.store
  indexed : after.workspace.graph.Indexed
  others : ∀ other, other ≠ specifier →
    Mentioned other (before.workspace.graph.get? other) (after.workspace.graph.get? other)
  staged : ∀ other, other ≠ specifier → after.staged.get? other = before.staged.get? other
  errors : ∀ other, other ≠ specifier → after.errors.get? other = before.errors.get? other

theorem HasOwnTurn.alters (turn : HasOwnTurn specifier pass after) :
    Alters specifier pass.workspace after.workspace where
  setup := turn.contents.setup
  indexed := turn.indexed
  others := turn.others
  blobs _ _ _ _ _ := by rw [turn.contents.blobs]
  sidecars _ _ := by rw [turn.contents.sidecars]

theorem TurnsOut.later {other : Specifier} (turn : HasOwnTurn specifier pass after)
    (differ : other ≠ specifier) (turns : TurnsOut pass other) : TurnsOut after other := by
  have errors := turn.errors other differ
  have mentioned := turn.others other differ
  cases turns with
  | @failed error record failed found errored bare hex =>
    exact .failed (errors.trans failed) (mentioned.of_errored found errored) errored bare hex
  | @left record clear found left bare hex =>
    cases mentioned with
    | same kept => exact .left (errors.trans clear) (kept.trans found) left bare hex
    | created absent => cases absent.symm.trans found
    | external _ found' => exact .left (errors.trans clear) found' rfl rfl (.inl rfl)
  | @ample record clear found ample =>
    refine .ample (errors.trans clear) (mentioned.of_loaded found ample.loaded) ?_
    rw [turn.staged other differ]
    exact ample.congr fun _ => by rw [turn.contents.blobs]

/-- One more module has its turn. What it referred to before strays if it fails. -/
theorem TakesTurns.turn (turns : TakesTurns astray base claimed pass) (fresh : specifier ∉ claimed)
    (turn : HasOwnTurn specifier pass after) (out : TurnsOut after specifier)
    (refers : ∀ key, pass.workspace.graph.RefersTo specifier key →
      after.workspace.graph.RefersTo specifier key ∨ ∃ error, after.errors.get? specifier = some error)
    (sidecar : ∀ sidecar, pass.workspace.store.sidecars.get? specifier = some sidecar →
      ∃ new, after.workspace.graph.get? specifier = some new ∧ new.isExternal = false ∧
        new.sourceHash ≠ "" ∧ ∀ output, new.output? = some output →
          ∃ noted, sidecar.output? = some noted ∧ noted.key = output.key) :
    TakesTurns astray base (specifier :: claimed) after where
  stocks := by
    obtain ⟨mentioned, -, clear⟩ := turns.unstarted specifier fresh
    have waits : after.backlog (specifier :: claimed) specifier = some (after.staged.get? specifier) :=
      if_pos List.mem_cons_self
    refine turns.stocks.alter turn.alters (fun other differ => ?_) (fun record there => ?_)
      (fun found there => ?_) (fun key code stored => ?_) fun key known => ?_
    · simp [backlog, differ, turn.staged other differ]
    · rw [waits]
      exact out.stocked record there
    · rw [turn.contents.sidecars] at there
      obtain ⟨output, hash, code, noted, key, stored, rest⟩ := (turns.stocks.sidecar there).code
      exact ⟨⟨output, hash, code, noted, key, by rw [turn.contents.blobs, stored], rest⟩, sidecar found there⟩
    · rw [turn.contents.blobs] at stored
      by_cases own : pass.workspace.graph.RefersTo specifier key
      · rcases refers key own with kept | ⟨error, failed⟩
        · exact .inl kept
        · exact .inr (.inl (.inr ⟨specifier, error, failed, mentioned.of_refersTo own⟩))
      · exact .inr (.inr ⟨⟨code, stored⟩, own⟩)
    · refine known.imp_right ?_
      rintro ⟨other, error, failed, refers⟩
      have differ : other ≠ specifier := by
        rintro rfl
        cases clear.symm.trans failed
      exact ⟨other, error, (turn.errors other differ).trans failed, refers⟩
  contents := turns.contents.trans turn.contents
  unstarted other absent := by
    obtain ⟨differ, absent'⟩ := not_or.1 (mt List.mem_cons.2 absent)
    obtain ⟨mentioned, unstaged, clear⟩ := turns.unstarted other absent'
    exact ⟨mentioned.trans (turn.others other differ), (turn.staged other differ).trans unstaged,
      (turn.errors other differ).trans clear⟩
  turned other member := by
    by_cases same : other = specifier
    · exact same ▸ out
    · exact (turns.turned other ((List.mem_cons.1 member).resolve_left same)).later turn same

/-- What is left to show of a turn: what becomes of the module, of its output and of its sidecar. -/
structure LeavesStock (specifier : Specifier) (record : ModuleRecord) (before after : Pass) : Prop where
  out : TurnsOut after specifier
  refers : ∀ output, record.output? = some output →
    after.workspace.graph.RefersTo specifier output.key ∨
      ∃ error, after.errors.get? specifier = some error
  sidecar : ∀ sidecar, before.workspace.store.sidecars.get? specifier = some sidecar →
    record.isExternal = false → record.sourceHash ≠ "" →
    (∀ output, record.output? = some output → ∃ noted, sidecar.output? = some noted ∧
      noted.key = output.key) →
    ∃ new, after.workspace.graph.get? specifier = some new ∧ new.isExternal = false ∧
      new.sourceHash ≠ "" ∧ ∀ output, new.output? = some output →
        ∃ noted, sidecar.output? = some noted ∧ noted.key = output.key

variable {record : ModuleRecord}

theorem leavesStock_failed (found : pass.workspace.graph.get? specifier = some record)
    (hex : record.sourceHash = "" ∨ IsHex record.sourceHash) {opened : Pass} (alike : Alike pass opened)
    (externals : List Specifier) (error : ModuleError) :
    LeavesStock specifier record pass
      ((opened.setGraph (externals.foldl mentionExternal opened.workspace.graph)).fail specifier error) := by
  obtain ⟨old, there, same⟩ := get?_mentionExternals (alike.graph ▸ found) externals
  have failed := get?_modify (externals.foldl mentionExternal opened.workspace.graph) specifier specifier
    (·.failed error.message)
  rw [if_pos rfl, there, Option.map_some] at failed
  have noted : (opened.errors.insert specifier error).get? specifier = some error :=
    (OrderedMap.get?_insert _ _ _ _).trans (if_pos rfl)
  refine ⟨.failed noted failed rfl rfl ?_, fun _ _ => .inr ⟨error, noted⟩,
    fun sidecar _ compiled loaded _ => ⟨_, failed, ?_, ?_, nofun⟩⟩
  · rcases same with rfl | ⟨rfl, -⟩
    · exact hex
    · exact .inl rfl
  · obtain rfl := same.resolve_right fun blank => loaded blank.2.1
    exact compiled
  · obtain rfl := same.resolve_right fun blank => loaded blank.2.1
    exact loaded

theorem leavesStock_stage (found : pass.workspace.graph.get? specifier = some record)
    (compiled : record.isExternal = false)
    (filed : Filed pass.workspace.store record)
    (loaded : ∀ output, record.output? = some output → record.sourceHash ≠ "")
    (clear : pass.errors.get? specifier = none) {opened : Pass} (alike : Alike pass opened) (image : Image) :
    LeavesStock specifier record pass (opened.stage specifier image) := by
  obtain ⟨old, there, same⟩ := get?_install (alike.graph ▸ found) image.externals (prepare image)
    (fun _ => image.source_ne) (distinctTargets image.edges)
  have clear' : (opened.stage specifier image).errors.get? specifier = none := by
    rw [← clear, ← alike.errors]
    rfl
  have staged : (opened.stage specifier image).staged.get? specifier = some image.artifact :=
    (OrderedMap.get?_insert _ _ _ _).trans (if_pos rfl)
  have blobs : (opened.stage specifier image).workspace.store.blobs = pass.workspace.store.blobs :=
    alike.keeps.contents.blobs
  refine ⟨?_, fun output own => .inl ?_, fun sidecar _ _ loaded' keys => ?_⟩
  · rcases same with rfl | ⟨rfl, -⟩
    · refine .ample clear' there ⟨compiled, image.isHex_source, fun output own => ?_,
        image.artifact, .inl staged, image.slotsInText⟩
      exact filed.congr (fun _ => by rw [blobs]) output own
    · exact .left clear' there rfl rfl (.inr image.isHex_source)
  · obtain rfl := same.resolve_right fun blank => loaded output own blank.2.1
    exact ⟨_, output, there, own, rfl⟩
  · obtain rfl := same.resolve_right fun blank => loaded' blank.2.1
    exact ⟨_, there, compiled, image.source_ne, keys⟩

theorem leavesStock_reuse (found : pass.workspace.graph.get? specifier = some record)
    (named : record.specifier = specifier) (compiled : record.isExternal = false)
    (clear : pass.errors.get? specifier = none) (unstaged : pass.staged.get? specifier = none)
    {opened : Pass} (alike : Alike pass opened) (source : Source) {restored : Restored}
    (takes : TakesStock pass.workspace.store record restored) :
    LeavesStock specifier record pass (opened.reuse specifier (sourceHash source.bytes) restored).1 := by
  obtain ⟨old, there, same⟩ := get?_install (alike.graph ▸ found) restored.externals
    (takeOver (sourceHash source.bytes) restored) (fun _ => sourceHash_ne source.bytes)
    (distinctTargets restored.dependencies)
  obtain rfl := same.resolve_right fun blank => takes.loaded blank.2.1
  obtain ⟨output, hash, code, own, key, stored, length, fits⟩ := takes.code
  have stored' : opened.workspace.store.blobs.get? output.key = some code :=
    alike.keeps.contents.blobs ▸ stored
  refine ⟨.ample (alike.errors ▸ clear) there ⟨compiled, ⟨source.bytes, rfl⟩, fun other own' => ?_,
      code, .inr ⟨alike.staged ▸ unstaged, output, hash, own, key, stored'⟩, fits⟩, fun old own' => .inl ?_,
    fun sidecar noted _ _ _ => ⟨_, there, compiled, sourceHash_ne source.bytes,
      fun output own' => takes.sidecar sidecar output (named ▸ noted) own'⟩⟩
  · obtain rfl := Option.some.inj (own.symm.trans own')
    exact ⟨hash, code, key, stored', length⟩
  · obtain ⟨output', own'', same⟩ := takes.same old own'
    exact ⟨_, output', there, own'', same⟩

/-- A module is compiled, or fails; either way it leaves its stock in order. -/
theorem leavesStock_compileOrFail (tools : Toolchain) (inOrder : pass.workspace.store.faults = .empty)
    (indexed : pass.workspace.graph.Indexed)
    (found : pass.workspace.graph.get? specifier = some record) (compiled : record.isExternal = false)
    (own : Stocked pass.workspace.store none record)
    (stocked : ∀ sidecar, pass.workspace.store.sidecars.get? specifier = some sidecar →
      SidecarStocked pass.workspace specifier sidecar)
    (clear : pass.errors.get? specifier = none) (unstaged : pass.staged.get? specifier = none) :
    let after := (pass.compileOrFail tools specifier record).1
    SameContents pass.workspace.store after.workspace.store ∧ after.workspace.graph.Indexed ∧
      (∀ other, other ≠ specifier → after.staged.get? other = pass.staged.get? other) ∧
      LeavesStock specifier record pass after := by
  obtain rfl := indexed.keyed found
  have yields := yields_build tools inOrder record
  unfold compileOrFail
  generalize pass.build tools record = result at yields ⊢
  cases yields with
  | failed error opened alike fails =>
    refine ⟨alike.keeps.contents, ?_, fun other _ => congrArg (·.get? other) alike.staged,
      leavesStock_failed found own.hex alike _ error⟩
    exact (indexed_mentionExternals (alike.graph ▸ indexed) _).modify record.specifier fun _ => rfl
  | compiled image opened alike fresh is =>
    refine ⟨alike.keeps.contents, indexed_stage (alike.graph ▸ indexed) _ image, fun other differ => ?_,
      leavesStock_stage found compiled own.filed (fun _ => own.loaded) clear alike image⟩
    exact (OrderedMap.get?_insert _ _ _ _).trans
      ((if_neg (Ne.symm differ)).trans (congrArg (·.get? other) alike.staged))
  | restored source restored opened alike load given taken =>
    exact ⟨alike.keeps.contents, indexed_reuse (alike.graph ▸ indexed) _ _ restored,
      fun other _ => congrArg (·.get? other) alike.staged,
      leavesStock_reuse found rfl compiled clear unstaged alike source
        (takesStock_restore? rfl inOrder found own stocked given)⟩

theorem TakesTurns.visit (turns : TakesTurns astray base claimed pass) (fresh : specifier ∉ claimed)
    (tools : Toolchain) (options : CompileOptions) (isForced : Bool) :
    TakesTurns astray base (specifier :: claimed) (pass.visit tools options specifier isForced).1 := by
  have indexed := turns.stocks.indexed
  have turn := hasTurn_visit tools options turns.stocks.keyed specifier isForced
  have idle : pass.backlog claimed specifier = none := if_neg fresh
  obtain ⟨-, unstaged, clear⟩ := turns.unstarted specifier fresh
  rcases visit_cases tools options pass specifier isForced with ⟨notDue, visit⟩ | ⟨due, found, visit⟩
  · -- a module that is not due is left alone, or is ready and has its code
    obtain ⟨record, there⟩ : ∃ record, pass.workspace.graph.get? specifier = some record := by
      cases there : pass.workspace.graph.get? specifier with
      | none => exact absurd (show pass.IsDue specifier isForced by simp [IsDue, there]) notDue
      | some record => exact ⟨record, rfl⟩
    have out : TurnsOut pass specifier := by
      have own := idle ▸ turns.stocks.record there
      cases own with
      | left left bare hex => exact .left clear there left bare hex
      | bare compiled unready =>
        exact absurd (show pass.IsDue specifier isForced by simp [IsDue, there, compiled, unready]) notDue
      | ample ample => exact .ample clear there (unstaged ▸ ample)
    rw [mention_of_get? there] at visit
    rw [visit] at turn ⊢
    refine turns.turn fresh ⟨.refl _, indexed, fun other differ => (turn.others other differ).record,
      fun _ _ => rfl, fun _ _ => rfl⟩ out (fun _ => .inl) fun sidecar noted => ?_
    exact (turns.stocks.sidecar noted).record
  · have compiled := (Bool.or_eq_false_iff.1 ((isDue_iff pass specifier isForced).1 due)).1
    -- a module that is due is built with its own record, or with a blank one
    have own : Stocked pass.workspace.store none
        ((pass.workspace.graph.get? specifier).getD (.awaiting specifier)) := by
      cases there : pass.workspace.graph.get? specifier with
      | none => exact .bare rfl rfl rfl (.inl rfl)
      | some record => exact idle ▸ turns.stocks.record there
    have kept {record : ModuleRecord} (there : pass.workspace.graph.get? specifier = some record) :
        record = (pass.workspace.graph.get? specifier).getD (.awaiting specifier) := by rw [there]; rfl
    have stocked (sidecar : Sidecar)
        (noted : pass.workspace.store.sidecars.get? specifier = some sidecar) :
        SidecarStocked (pass.setGraph (pass.workspace.graph.mention specifier)).workspace specifier
          sidecar := by
      have stocked := turns.stocks.sidecar noted
      obtain ⟨record, there, -⟩ := stocked.record
      refine stocked.congr ?_ fun _ => rfl
      rw [there, kept there]
      exact found
    let mentioned := pass.setGraph (pass.workspace.graph.mention specifier)
    have inOrder : mentioned.workspace.store.faults = .empty := turns.stocks.inOrder
    obtain ⟨contents, indexed', staged, leaves⟩ := leavesStock_compileOrFail tools inOrder
      (indexed.mention specifier) found compiled own stocked clear unstaged
    rw [visit] at turn ⊢
    refine turns.turn fresh ⟨contents, indexed', fun other differ => (turn.others other differ).record,
      staged, fun other differ => (turn.others other differ).errors⟩ leaves.out ?_ fun sidecar noted => ?_
    · rintro key ⟨record, output, there, own', rfl⟩
      exact leaves.refers output (kept there ▸ own')
    · obtain ⟨record, there, compiled, loaded, keys⟩ := (turns.stocks.sidecar noted).record
      rw [kept there] at compiled loaded keys
      exact leaves.sidecar sidecar noted compiled loaded keys

end Turn

theorem takesTurns_visitAll (tools : Toolchain) (options : CompileOptions) {astray : String → Prop}
    {base : Workspace} (claimed : List Specifier) (pass : Pass) (work : List (Specifier × Bool))
    (turns : TakesTurns astray base claimed pass) :
    let (after, touched) := visitAll tools options claimed pass work
    TakesTurns astray base touched.reverse after := by
  induction claimed, pass, work using visitAll_induction tools options with
  | done claimed pass =>
    rw [visitAll]
    simpa using turns
  | old claimed pass other isForced rest old ih =>
    rw [visitAll_of_mem tools options old]
    exact ih turns
  | turn claimed pass other isForced rest targets fresh _ next ih =>
    rw [next]
    exact ih (turns.visit fresh tools options isForced)

end Pass

end ModuleBuild
