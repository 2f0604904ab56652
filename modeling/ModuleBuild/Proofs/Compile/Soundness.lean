import ModuleBuild.Proofs.Compile.Consistency
import ModuleBuild.Proofs.Compile.Growth
/-!
What holds of a workspace between two passes, whatever was compiled before: the record of a module that
is ready describes an image of the module, from some version of its source, and so does its sidecar;
stored code differs from the code of that image in the slots of imports only.
-/

namespace ModuleBuild

open ModuleGraph Workspace

/-- The modules that are compiled by some toolchains, which may differ in the sources, and those that
are left alone. -/
structure Scope (known : Toolchain → Prop) (modules leaf : Specifier → Prop) : Prop where
  imports : ∀ {tools specifier image item}, known tools → modules specifier →
    tools.image? specifier = .ok image → item ∈ image.imports → item.2.isExternal = false →
    modules item.2.specifier
  externals : ∀ {tools specifier item}, known tools → modules specifier →
    item ∈ tools.resolutions specifier → item.2.isExternal = true → leaf item.2.specifier
  apart : ∀ {specifier}, modules specifier → ¬ leaf specifier
  distinct : DigestsDistinct modules
  /-- Sources of one module with the same hash are the same. -/
  sources : ∀ {one two specifier first second}, known one → known two → modules specifier →
    one.sources.load specifier = .ok first → two.sources.load specifier = .ok second →
    sourceHash first.bytes = sourceHash second.bytes → first = second
  tools : ∀ {one two}, known one → known two →
    one.resolver = two.resolver ∧ one.transpiler = two.transpiler

/-- An image of a module from one of some versions of its source. -/
def KnownImage (known : Toolchain → Prop) (specifier : Specifier) (image : Image) : Prop :=
  ∃ tools, known tools ∧ tools.image? specifier = .ok image

namespace Toolchain

theorem image?_eq_ok {tools : Toolchain} {specifier : Specifier} {image : Image}
    (compiled : tools.image? specifier = .ok image) :
    ∃ loaded output, tools.sources.load specifier = .ok loaded ∧
      tools.transpiled? specifier = .ok (loaded, output) ∧
      resolveImports tools.resolver specifier output.imports = (image.imports, none) ∧
      image.bytes = loaded.bytes ∧ image.kind = loaded.kind ∧ image.code = output.code ∧
      image.hasSideEffects = output.hasSideEffects := by
  unfold image? at compiled
  split at compiled
  · cases compiled
  · next loaded output transpiled =>
    split at compiled
    · cases compiled
    · next items resolved =>
      obtain rfl := Except.ok.inj compiled
      refine ⟨loaded, output, ?_, transpiled, resolved, rfl, rfl, rfl, rfl⟩
      unfold transpiled? at transpiled
      split at transpiled
      · cases transpiled
      · next given load =>
        split at transpiled
        · cases transpiled
        · split at transpiled
          · cases transpiled
          · split at transpiled
            · cases transpiled
            · obtain ⟨rfl, -⟩ := Prod.mk.inj (Except.ok.inj transpiled)
              exact load

theorem resolutions_of_image? {tools : Toolchain} {specifier : Specifier} {image : Image}
    (compiled : tools.image? specifier = .ok image) :
    tools.resolutions specifier = image.imports := by
  obtain ⟨loaded, output, -, transpiled, resolved, -⟩ := image?_eq_ok compiled
  simp [resolutions, transpiled, resolved]

/-- The imports of a module do not name the module itself as one that is left alone. -/
def SparesItself (tools : Toolchain) (specifier : Specifier) : Prop :=
  ∀ item ∈ tools.resolutions specifier, item.2.isExternal = true → item.2.specifier ≠ specifier

theorem SparesItself.not_mem_externals {tools : Toolchain} {specifier : Specifier}
    (spares : tools.SparesItself specifier) {image : Image} (is : tools.image? specifier = .ok image) :
    specifier ∉ image.externals := by
  intro listed
  obtain ⟨item, inside, same⟩ := List.mem_map.1 listed
  obtain ⟨member, left⟩ := List.mem_filter.1 inside
  exact spares item (resolutions_of_image? is ▸ member) left same

theorem image?_congr {one two : Toolchain} {specifier : Specifier}
    (load : one.sources.load specifier = two.sources.load specifier)
    (resolver : one.resolver = two.resolver) (transpiler : one.transpiler = two.transpiler) :
    one.image? specifier = two.image? specifier := by
  simp only [image?, transpiled?, load, resolver, transpiler]

end Toolchain

namespace Scope

variable {known : Toolchain → Prop} {modules leaf : Specifier → Prop}
  (scope : Scope known modules leaf)

include scope

theorem leaf_iff {specifier : Specifier} {image : Image} (own : modules specifier)
    (compiled : KnownImage known specifier image) {item : FoundImport × Resolved}
    (member : item ∈ image.imports) : item.2.isExternal = true ↔ leaf item.2.specifier := by
  obtain ⟨tools, used, compiled⟩ := compiled
  constructor
  · exact scope.externals used own (Toolchain.resolutions_of_image? compiled ▸ member)
  · intro isLeaf
    by_contra compiledToo
    exact scope.apart (scope.imports used own compiled member (by simpa using compiledToo)) isLeaf

theorem target {specifier : Specifier} {image : Image} (own : modules specifier)
    (compiled : KnownImage known specifier image) {edge : DependencyEdge}
    (member : edge ∈ image.edges) :
    modules edge.target ∨ leaf edge.target ∧ edge.target ∈ image.externals := by
  obtain ⟨item, inside, same⟩ := image.mem_edges member
  rw [← same]
  cases left : item.2.isExternal with
  | false =>
    obtain ⟨tools, used, compiled⟩ := compiled
    exact .inl (scope.imports used own compiled inside left)
  | true =>
    exact .inr ⟨(scope.leaf_iff own compiled inside).1 left,
      List.mem_map.2 ⟨item, List.mem_filter.2 ⟨inside, left⟩, rfl⟩⟩

theorem leaf_of_mem_externalsOf {tools : Toolchain} (used : known tools) {specifier : Specifier}
    (own : modules specifier) {target : Specifier}
    (member : target ∈ externalsOf (tools.resolutions specifier)) : leaf target := by
  obtain ⟨item, inside, rfl⟩ := List.mem_map.1 member
  obtain ⟨inside, left⟩ := List.mem_filter.1 inside
  exact scope.externals used own inside left

theorem leaf_of_mem_externals {specifier : Specifier} {image : Image} (own : modules specifier)
    (compiled : KnownImage known specifier image) {target : Specifier}
    (member : target ∈ image.externals) : leaf target := by
  obtain ⟨tools, used, compiled⟩ := compiled
  exact scope.leaf_of_mem_externalsOf used own (Toolchain.resolutions_of_image? compiled ▸ member)

theorem image?_of_source {tools : Toolchain} (used : known tools) {specifier : Specifier}
    (own : modules specifier) {loaded : Source}
    (load : tools.sources.load specifier = .ok loaded) {image : Image}
    (compiled : KnownImage known specifier image)
    (same : image.source = sourceHash loaded.bytes) : tools.image? specifier = .ok image := by
  obtain ⟨other, used', compiled⟩ := compiled
  obtain ⟨given, output, load', -, -, bytes, -⟩ := Toolchain.image?_eq_ok compiled
  have equal : given = loaded := by
    refine scope.sources used' used own load' load ?_
    rw [← bytes]
    exact same
  obtain ⟨resolver, transpiler⟩ := scope.tools used' used
  rw [← compiled]
  exact (Toolchain.image?_congr (by rw [load', load, equal]) resolver transpiler).symm

theorem image_eq {tools : Toolchain} (used : known tools) {specifier : Specifier}
    (own : modules specifier) {image other : Image} (compiled : tools.image? specifier = .ok image)
    (compiled' : KnownImage known specifier other) (same : other.source = image.source) :
    other = image := by
  obtain ⟨loaded, -, load, -, -, bytes, -⟩ := Toolchain.image?_eq_ok compiled
  have same' : other.source = sourceHash loaded.bytes := by
    rw [same, ← bytes]
    rfl
  have again := scope.image?_of_source used own load compiled' same'
  exact Except.ok.inj (again.symm.trans compiled)

end Scope

/-- A record tells what an image says of its module. -/
structure Describes (image : Image) (record : ModuleRecord) : Prop where
  kind : record.kind? = some image.kind
  source : record.sourceHash = image.source
  edges : record.dependencies = image.edges
  style : record.flags.isStyle = image.kind.isStyle
  effects : record.flags.hasSideEffects = image.hasSideEffects
  compiled : record.isExternal = false

def OwnsOutput (specifier : Specifier) (output? : Option OutputReference) : Prop :=
  ∀ output, output? = some output → ∃ hash, output.key = artifactKey specifier hash

def IsCodeOf (image : Image) (code : Bytes) : Prop :=
  AgreeOutside (slotsOf image.edges) image.artifact code

/-- Code of an image is stored where a record says, as long as it says. -/
structure HasOutput (store : ArtifactStore) (image : Image) (record : ModuleRecord) (code : Bytes) :
    Prop where
  has : HasCode store record code
  of : IsCodeOf image code
  length : ∀ output, record.output? = some output → output.length = code.length

theorem HasOutput.congr {first second : ArtifactStore} {image : Image} {record : ModuleRecord}
    {code : Bytes} (stored : HasOutput first image record code)
    (same : ∀ hash, second.blobs.get? (artifactKey record.specifier hash) =
      first.blobs.get? (artifactKey record.specifier hash)) : HasOutput second image record code :=
  ⟨stored.has.congr same, stored.of, stored.length⟩

theorem IsCodeOf.fit {image : Image} {code : Bytes} (of : IsCodeOf image code) :
    SlotsFit image.edges code.length := of.length ▸ image.fit

structure SidecarDescribes (image : Image) (sidecar : Sidecar) : Prop where
  kind : sidecar.kind? = some image.kind
  source : sidecar.sourceHash = image.source
  edges : sidecar.dependencies = image.edges
  style : sidecar.flags.isStyle = image.kind.isStyle
  effects : sidecar.flags.hasSideEffects = image.hasSideEffects
  externals : ∀ target, target ∈ sidecar.externals ↔ target ∈ image.externals

structure Backed (known : Toolchain → Prop) (store : ArtifactStore) (specifier : Specifier)
    (sidecar : Sidecar) : Prop where
  named : sidecar.specifier = specifier
  code : ∃ image output hash code, KnownImage known specifier image ∧
    SidecarDescribes image sidecar ∧ sidecar.output? = some output ∧
    output.key = artifactKey specifier hash ∧ store.blobs.get? output.key = some code ∧
    output.length = code.length ∧ IsCodeOf image code

theorem Backed.congr {known : Toolchain → Prop} {first second : ArtifactStore}
    {specifier : Specifier} {sidecar : Sidecar} (backed : Backed known first specifier sidecar)
    (same : ∀ hash, second.blobs.get? (artifactKey specifier hash) =
      first.blobs.get? (artifactKey specifier hash)) : Backed known second specifier sidecar := by
  obtain ⟨image, output, hash, code, compiled, describes, output?, key, stored, rest⟩ := backed.code
  exact ⟨backed.named, image, output, hash, code, compiled, describes, output?, key,
    by rw [key, same, ← key, stored], rest⟩

structure SoundStore (known : Toolchain → Prop) (modules : Specifier → Prop)
    (store : ArtifactStore) : Prop where
  inOrder : store.faults = .empty
  backed : ∀ {specifier sidecar}, modules specifier →
    store.sidecars.get? specifier = some sidecar → Backed known store specifier sidecar

/-- A module failed: nothing of an earlier success is left but the hash of its source. -/
structure HasFailed (record : ModuleRecord) : Prop where
  errored : record.error?.isSome
  edges : record.dependencies = []
  output : record.output? = none
  hash : record.contentHash = ""
  compiled : record.isExternal = false
  token : record.sourceHash = "" ∨ HasToken record.sourceHash

theorem HasFailed.not_ready {record : ModuleRecord} (failed : HasFailed record) :
    ¬ record.isReady := by
  intro ready
  have state : record.state = .ready := by simpa [ModuleRecord.isReady] using ready
  have errored := failed.errored
  rw [ModuleRecord.error?, state] at errored
  cases errored

structure IsCompiled (store : ArtifactStore) (image : Image) (record : ModuleRecord) : Prop where
  describes : Describes image record
  ready : record.state = .ready
  code : ∃ code, HasOutput store image record code

inductive SoundRecord (known : Toolchain → Prop) (modules leaf : Specifier → Prop)
    (store : ArtifactStore) (specifier : Specifier) (record : ModuleRecord) : Prop
  | left (isLeaf : leaf specifier) (left : record.IsLeftAlone specifier)
  | awaiting (own : modules specifier) (blank : record = .awaiting specifier)
  | failed (own : modules specifier) (failed : HasFailed record)
  | compiled {image : Image} (own : modules specifier) (known : KnownImage known specifier image)
      (compiled : IsCompiled store image record)

namespace SoundRecord

variable {known : Toolchain → Prop} {modules leaf : Specifier → Prop} {store : ArtifactStore}
  {specifier : Specifier} {record : ModuleRecord}
  (sound : SoundRecord known modules leaf store specifier record)

include sound

theorem token : record.sourceHash = "" ∨ HasToken record.sourceHash := by
  cases sound with
  | left _ left =>
    obtain ⟨_, rfl⟩ := left
    exact .inl rfl
  | awaiting _ blank => exact .inl (blank ▸ rfl)
  | failed _ failed => exact failed.token
  | @compiled image _ _ compiled => exact .inr (compiled.describes.source ▸ image.hasToken_source)

theorem left_or_compiled (ready : record.isReady) :
    leaf specifier ∧ record.IsLeftAlone specifier ∨
      modules specifier ∧ ∃ image, KnownImage known specifier image ∧ IsCompiled store image record := by
  cases sound with
  | left isLeaf left => exact .inl ⟨isLeaf, left⟩
  | awaiting _ blank =>
    rw [blank] at ready
    cases ready
  | failed _ failed => exact absurd ready failed.not_ready
  | compiled own known compiled => exact .inr ⟨own, _, known, compiled⟩

theorem bare_or_compiled :
    record.dependencies = [] ∧ record.output? = none ∨
      modules specifier ∧ ∃ image, KnownImage known specifier image ∧ IsCompiled store image record := by
  cases sound with
  | left _ left =>
    obtain ⟨_, rfl⟩ := left
    exact .inl ⟨rfl, rfl⟩
  | awaiting _ blank => exact .inl ⟨blank ▸ rfl, blank ▸ rfl⟩
  | failed _ failed => exact .inl ⟨failed.edges, failed.output⟩
  | compiled own known compiled => exact .inr ⟨own, _, known, compiled⟩

end SoundRecord

structure Sound (known : Toolchain → Prop) (modules leaf : Specifier → Prop)
    (workspace : Workspace) : Prop where
  store : SoundStore known modules workspace.store
  indexed : workspace.graph.Indexed
  record : ∀ {specifier record}, workspace.graph.get? specifier = some record →
    SoundRecord known modules leaf workspace.store specifier record
  /-- The imports of a ready module that are left alone have their records. -/
  leaves : ∀ {specifier record edge}, workspace.graph.get? specifier = some record →
    edge ∈ record.dependencies → leaf edge.target →
    ∃ record, workspace.graph.get? edge.target = some record

theorem Sound.classed {known : Toolchain → Prop} {modules leaf : Specifier → Prop}
    {workspace : Workspace} (sound : Sound known modules leaf workspace)
    (scope : Scope known modules leaf) : workspace.graph.Classed leaf := by
  intro specifier record found
  cases sound.record found with
  | left isLeaf left => exact .inl ⟨isLeaf, left⟩
  | awaiting own blank => exact .inr ⟨scope.apart own, blank ▸ rfl⟩
  | failed own failed => exact .inr ⟨scope.apart own, failed.compiled⟩
  | compiled own _ compiled => exact .inr ⟨scope.apart own, compiled.describes.compiled⟩

theorem Sound.hasTokens {known : Toolchain → Prop} {modules leaf : Specifier → Prop}
    {workspace : Workspace} (sound : Sound known modules leaf workspace) :
    HasTokens workspace.graph :=
  hasTokens_of_sources fun _ _ found folds =>
    (sound.record found).token.resolve_left (loaded_of_folds folds)

end ModuleBuild
