import ModuleBuild.Proofs.Compile.Restore
/-!
Building one module. Whether earlier output is taken over or not, the record that is left describes the
image of the present source; and if the source has no image, the module fails for the same reason.
-/

namespace ModuleBuild.Pass

open ModuleGraph Workspace ArtifactStore

variable {known : Toolchain → Prop} {modules leaf : Specifier → Prop}

/-! ## What a build does -/

/-- A module was loaded, and the store was asked for earlier output of it. -/
def loading (pass : Pass) (specifier : Specifier) (store : ArtifactStore) : Pass :=
  ({ pass with loads := specifier :: pass.loads } : Pass).setStore store

def calling (pass : Pass) (specifier : Specifier) (store : ArtifactStore) : Pass :=
  { pass.loading specifier store with transpilerCalls := specifier :: pass.transpilerCalls }

/-- All that a build can do. It fails before it asks for earlier output or when it does, or takes over what it
gets. If there is nothing to take over, the transpiler fails or its output is compiled. -/
inductive BuildRun (tools : Toolchain) (pass : Pass) (record : ModuleRecord) :
    Except ModuleError (List Specifier) × Pass → Prop
  | unloaded {error : ModuleError} (fails : tools.transpiled? record.specifier = .error error)
      (early : ∀ loaded, tools.sources.load record.specifier = .ok loaded →
        loaded.kind.isSupported = false) :
      BuildRun tools pass record (.error error, pass.loading record.specifier pass.workspace.store)
  | unread {loaded : Source} {error : StoreError} {store : ArtifactStore}
      (load : tools.sources.load record.specifier = .ok loaded)
      (supported : loaded.kind.isSupported = true)
      (asked : restore? pass.workspace.store record (sourceHash loaded.bytes) = (.error error, store)) :
      BuildRun tools pass record
        (.error (.artifact (.store error)), pass.loading record.specifier store)
  | restored {loaded : Source} {restored : Restored} {store : ArtifactStore}
      (load : tools.sources.load record.specifier = .ok loaded)
      (supported : loaded.kind.isSupported = true)
      (asked : restore? pass.workspace.store record (sourceHash loaded.bytes) =
        (.ok (some restored), store)) :
      BuildRun tools pass record (.ok (distinctTargets restored.dependencies),
        ((pass.loading record.specifier store).reuse record.specifier (sourceHash loaded.bytes)
          restored).1)
  | untranspiled {loaded : Source} {error : ModuleError} {store : ArtifactStore} {after : Pass}
      (load : tools.sources.load record.specifier = .ok loaded)
      (supported : loaded.kind.isSupported = true)
      (asked : restore? pass.workspace.store record (sourceHash loaded.bytes) = (.ok none, store))
      (fails : tools.transpiled? record.specifier = .error error)
      (counted : after = pass.loading record.specifier store ∨
        after = pass.calling record.specifier store) :
      BuildRun tools pass record (.error error, after)
  | transpiled {loaded : Source} {output : Transpiled} {store : ArtifactStore}
      (load : tools.sources.load record.specifier = .ok loaded)
      (supported : loaded.kind.isSupported = true)
      (asked : restore? pass.workspace.store record (sourceHash loaded.bytes) = (.ok none, store))
      (transpiled : tools.transpiled? record.specifier = .ok (loaded, output)) :
      BuildRun tools pass record ((pass.calling record.specifier store).compileOutput tools.resolver
        record.specifier (sourceHash loaded.bytes) loaded.kind output)

theorem buildRun (tools : Toolchain) (pass : Pass) (record : ModuleRecord) :
    BuildRun tools pass record (pass.build tools record) := by
  unfold build
  cases load : tools.sources.load record.specifier with
  | error error =>
    simp only [load]
    exact .unloaded (by simp [Toolchain.transpiled?, load]) (by simp [load])
  | ok loaded =>
    cases supported : loaded.kind.isSupported with
    | false =>
      simp only [load, supported, Bool.not_false, if_true]
      refine .unloaded (by simp [Toolchain.transpiled?, load, supported]) fun other load' => ?_
      exact Except.ok.inj (load.symm.trans load') ▸ supported
    | true =>
      cases asked : restore? pass.workspace.store record (sourceHash loaded.bytes) with
      | mk restored? store =>
        simp only [load, supported, Bool.not_true, Bool.false_eq_true, if_false, asked]
        cases restored? with
        | error error => exact .unread load supported asked
        | ok restored? =>
          cases restored? with
          | some restored => exact .restored load supported asked
          | none =>
            cases decoded : Utf8.decode loaded.bytes with
            | error fault =>
              exact .untranspiled load supported asked
                (by simp [Toolchain.transpiled?, load, supported, decoded]) (.inl rfl)
            | ok text =>
              dsimp only
              cases output : tools.transpiler record.specifier text loaded.kind with
              | error error =>
                exact .untranspiled load supported asked
                  (by simp [Toolchain.transpiled?, load, supported, decoded, output]) (.inr rfl)
              | ok output' =>
                exact .transpiled load supported asked
                  (by simp [Toolchain.transpiled?, load, supported, decoded, output])

structure Keeps (first second : Pass) : Prop where
  contents : SameContents first.workspace.store second.workspace.store
  isSpoiled : second.workspace.isSpoiled = first.workspace.isSpoiled

theorem Keeps.refl (pass : Pass) : Keeps pass pass := ⟨.refl _, rfl⟩

theorem Keeps.trans {first second third : Pass} (one : Keeps first second)
    (two : Keeps second third) : Keeps first third :=
  ⟨one.contents.trans two.contents, two.isSpoiled.trans one.isSpoiled⟩

structure BuildFails (leaf : Specifier → Prop) (before after : Pass) : Prop where
  keeps : Keeps before after
  indexed : after.workspace.graph.Indexed
  grows : Grows leaf before.workspace.graph after.workspace.graph
  adds : AddsOnly leaf before.workspace.graph after.workspace.graph
  staged : after.staged = before.staged
  errors : after.errors = before.errors

/-- The record of a module that was built and still has to be settled, with its code. -/
structure Prepared (store : ArtifactStore) (staged? : Option Bytes) (image : Image)
    (record : ModuleRecord) : Prop where
  describes : Describes image record
  pending : record.state = .pending
  owned : OwnsOutput record.specifier record.output?
  code : staged? = some image.artifact ∨
    staged? = none ∧ ∃ code, HasOutput store image record code

structure Builds (leaf : Specifier → Prop) (before after : Pass) (specifier : Specifier)
    (image : Image) : Prop where
  keeps : Keeps before after
  indexed : after.workspace.graph.Indexed
  prepared : ∃ record, after.workspace.graph.get? specifier = some record ∧
    record.specifier = specifier ∧
    Prepared before.workspace.store (after.staged.get? specifier) image record
  others : ∀ other, other ≠ specifier →
    GrowsAt leaf before.workspace.graph after.workspace.graph other ∧
    after.staged.get? other = before.staged.get? other
  adds : AddsOnly (fun other => ∃ edge ∈ image.edges, edge.target = other)
    before.workspace.graph after.workspace.graph
  errors : after.errors = before.errors
  targets : ∀ edge ∈ image.edges, ∃ record, after.workspace.graph.get? edge.target = some record

structure Alike (first second : Pass) : Prop where
  keeps : Keeps first second
  graph : second.workspace.graph = first.workspace.graph
  staged : second.staged = first.staged
  errors : second.errors = first.errors

theorem alike_loading {pass : Pass} {store : ArtifactStore}
    (contents : SameContents pass.workspace.store store) (specifier : Specifier) :
    Alike pass (pass.loading specifier store) := ⟨⟨contents, rfl⟩, rfl, rfl, rfl⟩

theorem alike_calling {pass : Pass} {store : ArtifactStore}
    (contents : SameContents pass.workspace.store store) (specifier : Specifier) :
    Alike pass (pass.calling specifier store) := ⟨⟨contents, rfl⟩, rfl, rfl, rfl⟩

theorem BuildFails.of_alike {first second after : Pass} (alike : Alike first second)
    (fails : BuildFails leaf second after) : BuildFails leaf first after :=
  ⟨alike.keeps.trans fails.keeps, fails.indexed, alike.graph ▸ fails.grows,
    alike.graph ▸ fails.adds, fails.staged.trans alike.staged, fails.errors.trans alike.errors⟩

theorem Alike.fails {first second : Pass} (alike : Alike first second)
    (indexed : first.workspace.graph.Indexed) : BuildFails leaf first second :=
  ⟨alike.keeps, alike.graph ▸ indexed, alike.graph ▸ .refl leaf _,
    .of_get? fun _ record found => ⟨record, alike.graph ▸ found⟩, alike.staged, alike.errors⟩

theorem Builds.of_alike {first second after : Pass} (alike : Alike first second)
    {specifier : Specifier} {image : Image} (builds : Builds leaf second after specifier image) :
    Builds leaf first after specifier image := by
  obtain ⟨record, found, named, prepared⟩ := builds.prepared
  refine
    { builds with
      keeps := alike.keeps.trans builds.keeps
      prepared := ⟨record, found, named, { prepared with code := prepared.code.imp_right ?_ }⟩
      others := fun other differ => ?_
      adds := alike.graph ▸ builds.adds
      errors := builds.errors.trans alike.errors }
  · rintro ⟨unstaged, code, stored⟩
    exact ⟨unstaged, code, stored.congr fun _ => by rw [alike.keeps.contents.blobs]⟩
  · obtain ⟨grows, staged⟩ := builds.others other differ
    exact ⟨alike.graph ▸ grows, alike.staged ▸ staged⟩

def Buildable (known : Toolchain → Prop) (workspace : Workspace) (record : ModuleRecord) : Prop :=
  record = .awaiting record.specifier ∨ HasFailed record ∨
    ∃ image, KnownImage known record.specifier image ∧ IsCompiled workspace.store image record ∧
      ∀ target ∈ image.externals, ∃ other, workspace.graph.get? target = some other

theorem Buildable.owned {workspace : Workspace} {record : ModuleRecord}
    (buildable : Buildable known workspace record) :
    OwnsOutput record.specifier record.output? := by
  intro output own
  rcases buildable with blank | failed | ⟨image, -, compiled, -⟩
  · rw [blank] at own
    cases own
  · rw [failed.output] at own
    cases own
  · obtain ⟨code, ⟨output', hash, own', key, -⟩, -, -⟩ := compiled.code
    obtain rfl := Option.some.inj (own.symm.trans own')
    exact ⟨hash, key⟩

/-- The record of a module that was compiled to an image and still has to be settled. -/
def prepare (image : Image) (record : ModuleRecord) : ModuleRecord :=
  { record with
    flags :=
      { isStyle := image.kind.isStyle
        hasSideEffects := image.hasSideEffects
        isDynamicEntryOnly := record.flags.isDynamicEntryOnly }
    kind? := some image.kind
    sourceHash := image.source
    dependencies := image.edges
    state := .pending }

def stage (pass : Pass) (specifier : Specifier) (image : Image) : Pass :=
  let graph := image.externals.foldl mentionExternal pass.workspace.graph
  let graph := graph.modify specifier (prepare image)
  { pass.setGraph (graph.mentionAll (distinctTargets image.edges)) with
    staged := pass.staged.insert specifier image.artifact
    transpiled := pass.transpiled + 1 }

theorem compileOutput_ok {tools : Toolchain} {pass : Pass} {specifier : Specifier} {loaded : Source}
    {output : Transpiled} (transpiled : tools.transpiled? specifier = .ok (loaded, output))
    {image : Image} (compiled : tools.image? specifier = .ok image) :
    pass.compileOutput tools.resolver specifier (sourceHash loaded.bytes) loaded.kind output =
      (.ok (distinctTargets image.edges), pass.stage specifier image) := by
  obtain ⟨loaded', output', -, transpiled', resolved, bytes, kind, code, effects⟩ :=
    Toolchain.image?_eq_ok compiled
  obtain ⟨rfl, rfl⟩ := Prod.mk.inj (Except.ok.inj (transpiled.symm.trans transpiled'))
  have edges : assignSlots output.imports (image.imports.map edgeOf)
      (Emission.ofEdits image.code (image.imports.filterMap editOf?)).slots = image.edges := by
    rw [← resolveImports_fst resolved]
    rfl
  rw [compileOutput, link_ok resolved]
  simp only [← kind, ← bytes, ← effects, ← code, edges]
  rfl

theorem compileOutput_error {tools : Toolchain} {specifier : Specifier}
    {loaded : Source} {output : Transpiled}
    (transpiled : tools.transpiled? specifier = .ok (loaded, output)) {error : ModuleError}
    (fails : tools.image? specifier = .error error) (pass : Pass) :
    pass.compileOutput tools.resolver specifier (sourceHash loaded.bytes) loaded.kind output =
      (.error error, pass.setGraph
        ((externalsOf (tools.resolutions specifier)).foldl mentionExternal
          pass.workspace.graph)) := by
  rw [Toolchain.image?, transpiled] at fails
  rcases resolved : resolveImports tools.resolver specifier output.imports with ⟨items, _ | cause⟩
  · simp [resolved] at fails
  · simp only [resolved] at fails
    obtain rfl := Except.error.inj fails
    rw [compileOutput, link_error resolved]
    simp [Toolchain.resolutions, transpiled, resolved]

section Steps

variable (scope : Scope known modules leaf) {tools : Toolchain} (used : known tools) {pass : Pass}
  (classed : pass.workspace.graph.Classed leaf) (indexed : pass.workspace.graph.Indexed)
  {record : ModuleRecord} (found : pass.workspace.graph.get? record.specifier = some record)
  (own : modules record.specifier)

include scope used classed indexed found own

theorem builds_stage {image : Image} (compiled : tools.image? record.specifier = .ok image)
    (owned : OwnsOutput record.specifier record.output?) :
    Builds leaf pass (pass.stage record.specifier image) record.specifier image := by
  have known : KnownImage known record.specifier image := ⟨tools, used, compiled⟩
  have targets : ∀ target ∈ distinctTargets image.edges, ¬ leaf target ∨
      target ∈ image.externals ∨ ∃ record, pass.workspace.graph.get? target = some record := by
    intro target member
    obtain ⟨edge, inside, rfl⟩ := (mem_distinctTargets _ _).1 member
    rcases scope.target own known inside with compiledToo | ⟨-, listed⟩
    · exact .inl (scope.apart compiledToo)
    · exact .inr (.inl listed)
  obtain ⟨indexed', installed, others, present⟩ :=
    install_ok classed indexed found
      (fun target member => scope.leaf_of_mem_externals own known member)
      (fun _ => rfl : ∀ record, (prepare image record).specifier = record.specifier) targets
  have compiledToo := classed.isExternal_eq_false (scope.apart own) found
  refine
    { keeps := ⟨.refl _, rfl⟩
      indexed := indexed'
      prepared := ⟨prepare image record, installed, rfl,
        ⟨⟨rfl, rfl, rfl, rfl, rfl, compiledToo⟩, rfl, owned, .inl ?_⟩⟩
      others := fun other differ => ⟨others other differ, ?_⟩
      adds := (addsOnly_install _ _ _ _ _).mono fun other added => added.elim
        image.mem_edges_of_mem_externals (mem_distinctTargets _ _).1
      errors := rfl
      targets := fun edge member => present _ ((mem_distinctTargets _ _).2 ⟨edge, member, rfl⟩) }
  · exact (OrderedMap.get?_insert _ _ _ _).trans (if_pos rfl)
  · exact (OrderedMap.get?_insert _ _ _ _).trans (if_neg (Ne.symm differ))

theorem builds_reuse {image : Image} (compiled : tools.image? record.specifier = .ok image)
    {restored : Restored} (taken : TakesOver image record.specifier pass.workspace restored)
    (fresh : pass.staged.get? record.specifier = none) :
    Builds leaf pass (pass.reuse record.specifier image.source restored).1 record.specifier image := by
  have known : KnownImage known record.specifier image := ⟨tools, used, compiled⟩
  have targets : ∀ target ∈ distinctTargets restored.dependencies, ¬ leaf target ∨
      target ∈ restored.externals ∨
        ∃ record, pass.workspace.graph.get? target = some record := by
    intro target member
    obtain ⟨edge, inside, rfl⟩ := (mem_distinctTargets _ _).1 member
    rcases scope.target own known (taken.edges ▸ inside) with compiledToo | ⟨-, listed⟩
    · exact .inl (scope.apart compiledToo)
    · exact .inr (taken.leaves _ listed)
  obtain ⟨indexed', installed, others, present⟩ :=
    install_ok classed indexed found
      (fun target member => scope.leaf_of_mem_externals own known (taken.externals target member))
      (fun _ => rfl : ∀ record : ModuleRecord,
        { record with
          kind? := restored.kind?
          sourceHash := image.source
          dependencies := restored.dependencies
          flags := restored.flags
          output? := restored.output?
          state := .pending }.specifier = record.specifier) targets
  have compiledToo := classed.isExternal_eq_false (scope.apart own) found
  obtain ⟨output, code, output?, stored, length, of⟩ := taken.code
  obtain ⟨hash, key⟩ := taken.owned output output?
  refine
    { keeps := ⟨.refl _, rfl⟩
      indexed := indexed'
      prepared := ⟨_, installed, rfl,
        ⟨⟨taken.kind, rfl, taken.edges, taken.style, taken.effects, compiledToo⟩, rfl, taken.owned,
          .inr ⟨fresh, code, ⟨output, hash, output?, key, stored⟩, of, fun other same => ?_⟩⟩⟩
      others := fun other differ => ⟨others other differ, rfl⟩
      adds := (addsOnly_install _ _ _ _ _).mono fun other added => added.elim
        (fun member => image.mem_edges_of_mem_externals (taken.externals other member))
        fun member => taken.edges ▸ (mem_distinctTargets _ _).1 member
      errors := rfl
      targets := fun edge member =>
        present _ ((mem_distinctTargets _ _).2 ⟨edge, taken.edges ▸ member, rfl⟩) }
  obtain rfl := Option.some.inj (output?.symm.trans same)
  exact length

/-- Once a source is transpiled, only its imports can keep the module from being built. -/
theorem compileOutput_builds {loaded : Source} {output : Transpiled}
    (transpiled : tools.transpiled? record.specifier = .ok (loaded, output))
    (owned : OwnsOutput record.specifier record.output?) :
    (∃ error after, tools.image? record.specifier = .error error ∧
      pass.compileOutput tools.resolver record.specifier (sourceHash loaded.bytes) loaded.kind output =
        (.error error, after) ∧ BuildFails leaf pass after) ∨
    ∃ image after, tools.image? record.specifier = .ok image ∧
      pass.compileOutput tools.resolver record.specifier (sourceHash loaded.bytes) loaded.kind output =
        (.ok (distinctTargets image.edges), after) ∧ Builds leaf pass after record.specifier image := by
  cases compiled : tools.image? record.specifier with
  | error error =>
    refine .inl ⟨error, _, rfl, compileOutput_error transpiled compiled pass, ?_⟩
    have leaves : ∀ target ∈ externalsOf (tools.resolutions record.specifier), leaf target :=
      fun _ => scope.leaf_of_mem_externalsOf used own
    obtain ⟨grows, indexed', -⟩ := foldl_mentionExternal classed indexed _ leaves
    exact ⟨⟨.refl _, rfl⟩, indexed', grows,
      (addsOnly_foldl addsOnly_mentionExternal _ _).mono leaves, rfl, rfl⟩
  | ok image =>
    exact .inr ⟨image, _, rfl, compileOutput_ok transpiled compiled,
      builds_stage scope used classed indexed found own compiled owned⟩

/-- A module is built if its source has an image, and fails for the same reason if it has none. -/
theorem build_ok (sound : SoundStore known modules pass.workspace.store)
    (givesBack : GivesBack modules pass.workspace.store)
    (buildable : Buildable known pass.workspace record)
    (fresh : pass.staged.get? record.specifier = none) :
    (∃ error after, tools.image? record.specifier = .error error ∧
      pass.build tools record = (.error error, after) ∧ BuildFails leaf pass after) ∨
    ∃ image after, tools.image? record.specifier = .ok image ∧
      pass.build tools record = (.ok (distinctTargets image.edges), after) ∧
      Builds leaf pass after record.specifier image := by
  have fails {error : ModuleError} (fails : tools.transpiled? record.specifier = .error error) :
      tools.image? record.specifier = .error error := by rw [Toolchain.image?, fails]
  have taken (source : Bytes) := restore?_ok sound givesBack own buildable (sourceHash source)
  have run := buildRun tools pass record
  generalize pass.build tools record = result at run ⊢
  cases run with
  | unloaded untold =>
    exact .inl ⟨_, _, fails untold, rfl, (alike_loading (.refl _) _).fails indexed⟩
  | @unread loaded _ _ _ _ asked =>
    obtain ⟨restored?, store, given, -⟩ := taken loaded.bytes
    cases asked.symm.trans given
  | @restored loaded earlier store load _ asked =>
    obtain ⟨restored?, store', given, contents, taken⟩ := taken loaded.bytes
    cases asked.symm.trans given
    obtain ⟨image, compiled, same, takes⟩ := taken earlier rfl
    have compiled := scope.image?_of_source used own load compiled same
    have takes' : TakesOver image record.specifier (pass.loading record.specifier store).workspace
        earlier := by
      obtain ⟨output, code, output?, stored, rest⟩ := takes.code
      refine { takes with code := ⟨output, code, output?, ?_, rest⟩ }
      rw [← stored]
      exact congrArg (·.get? output.key) contents.blobs
    have builds := @builds_reuse _ _ _ scope tools used (pass.loading record.specifier store) classed
      indexed record found own image compiled earlier takes' fresh
    rw [same] at builds
    exact .inr ⟨image, _, compiled, by rw [takes.edges],
      builds.of_alike (alike_loading contents _)⟩
  | @untranspiled loaded _ store _ _ _ asked untold counted =>
    obtain ⟨restored?, store', given, contents, -⟩ := taken loaded.bytes
    cases asked.symm.trans given
    refine .inl ⟨_, _, fails untold, rfl, ?_⟩
    rcases counted with rfl | rfl
    · exact (alike_loading contents _).fails indexed
    · exact (alike_calling contents _).fails indexed
  | @transpiled loaded output store _ _ asked transpiled =>
    obtain ⟨restored?, store', given, contents, -⟩ := taken loaded.bytes
    cases asked.symm.trans given
    have alike := alike_calling contents record.specifier
    rcases @compileOutput_builds _ _ _ scope tools used (pass.calling record.specifier store) classed
        indexed record found own loaded output transpiled buildable.owned with
      ⟨error, after, fails, result, build⟩ | ⟨image, after, compiled, result, build⟩
    · exact .inl ⟨error, after, fails, result, build.of_alike alike⟩
    · exact .inr ⟨image, after, compiled, result, build.of_alike alike⟩

end Steps

end ModuleBuild.Pass
