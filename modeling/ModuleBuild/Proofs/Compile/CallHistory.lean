import ModuleBuild.Proofs.Compile.Histories
/-!
Any sequence of calls to a compiler, each with the sources as they are at that time.
-/

namespace ModuleBuild

open ModuleGraph Workspace ArtifactStore Pass

/-- What a compiler is asked to do. -/
inductive Call
  | compile (roots : List Specifier) (options : CompileOptions)
  | notice (specifier : Specifier)

def Call.roots : Call → List Specifier
  | .compile roots _ => roots
  | .notice _ => []

namespace Workspace

def perform (workspace : Workspace) (tools : Toolchain) : Call → Workspace
  | .compile roots options => (workspace.compileAll tools roots options).2
  | .notice specifier => (workspace.sourceChanged tools specifier).2

/-- What a sequence of calls makes of a workspace. -/
def performAll (workspace : Workspace) (calls : List (Toolchain × Call)) : Workspace :=
  calls.foldl (fun workspace (tools, call) => workspace.perform tools call) workspace

end Workspace

/-- What is asked of toolchains that share a store: they differ in their sources alone, whose kinds follow
from their bytes, and no hashes collide. -/
structure Coherent (known : Toolchain → Prop) (roots : List Specifier) : Prop where
  apart : Unambiguous known roots
  distinct : DigestsDistinct (Reached known roots · false)
  hashed : ∀ {one two specifier first second}, known one → known two →
    Reached known roots specifier false → one.sources.load specifier = .ok first →
    two.sources.load specifier = .ok second → sourceHash first.bytes = sourceHash second.bytes →
    first.bytes = second.bytes
  kinds : KindsFollow known roots
  tools : ∀ {one two}, known one → known two →
    one.resolver = two.resolver ∧ one.transpiler = two.transpiler

theorem Coherent.scope {known : Toolchain → Prop} {roots : List Specifier}
    (coherent : Coherent known roots) :
    Scope known (Reached known roots · false) (Reached known roots · true) := by
  refine scope_reached coherent.apart coherent.distinct ?_ coherent.tools
  intro one two specifier first second used used' own load load' same
  have bytes := coherent.hashed used used' own load load' same
  have kind := coherent.kinds used used' own load load' bytes
  cases first
  cases second
  simp_all

/-- What is asked of toolchains holds if imports stay among some modules, all of which have one source. -/
theorem coherent_listed {known : Toolchain → Prop} {roots : List Specifier} {source : Source}
    (listed : List Specifier) (rooted : ∀ root ∈ roots, root ∈ listed)
    (closed : ∀ tools, known tools → ∀ importer ∈ listed, ∀ item ∈ tools.resolutions importer,
      item.2.isExternal = false ∧ item.2.specifier ∈ listed)
    (digests : (listed.map ownerDigest).Nodup)
    (sources : ∀ tools specifier loaded, known tools → tools.sources.load specifier = .ok loaded →
      loaded = source)
    (same : ∀ one two, known one → known two →
      one.resolver = two.resolver ∧ one.transpiler = two.transpiler) : Coherent known roots where
  apart := by
    rintro specifier ⟨left, -⟩
    cases (reached_listed listed rooted closed left).1
  distinct first second one two := List.inj_on_of_nodup_map digests (reached_listed listed rooted closed one).2
    (reached_listed listed rooted closed two).2
  hashed used used' _ load load' _ := by rw [sources _ _ _ used load, sources _ _ _ used' load']
  kinds := by
    intro one two specifier first second used used' _ load load' _
    rw [sources _ _ _ used load, sources _ _ _ used' load']
  tools used used' := same _ _ used used'

variable {known : Toolchain → Prop} {modules leaf : Specifier → Prop}

theorem Sound.perform (scope : Scope known modules leaf) {workspace : Workspace}
    (sound : Sound known modules leaf workspace) (readable : workspace.store.Readable modules leaf)
    {tools : Toolchain} (used : known tools) {call : Call} (rooted : ∀ root ∈ call.roots, modules root) :
    Sound known modules leaf (workspace.perform tools call) ∧
      SameSetup workspace.store (workspace.perform tools call).store := by
  cases call with
  | compile roots options => exact sound_compileAll scope sound readable used rooted options
  | notice specifier => exact sound_sourceChanged scope sound readable used specifier

/-- Whatever a compiler is asked to do, its workspace stays sound. -/
theorem Sound.performAll (scope : Scope known modules leaf) (calls : List (Toolchain × Call))
    {workspace : Workspace} (sound : Sound known modules leaf workspace)
    (readable : workspace.store.Readable modules leaf) (used : ∀ call ∈ calls, known call.1)
    (rooted : ∀ call ∈ calls, ∀ root ∈ call.2.roots, modules root) :
    Sound known modules leaf (workspace.performAll calls) ∧
      SameSetup workspace.store (workspace.performAll calls).store := by
  induction calls generalizing workspace with
  | nil => exact ⟨sound, .refl _⟩
  | cons call rest ih =>
    obtain ⟨sound', setup⟩ := sound.perform scope readable (used call List.mem_cons_self)
      (rooted call List.mem_cons_self)
    obtain ⟨sound'', setup'⟩ := ih sound' (readable.congr setup)
      (fun other member => used other (List.mem_cons_of_mem _ member))
      (fun other member => rooted other (List.mem_cons_of_mem _ member))
    exact ⟨sound'', setup.trans setup'⟩

end ModuleBuild
