import ModuleBuild.Proofs.Compile.Calls
/-!
What compilations from some roots meet, and workspaces in which nothing was compiled yet.
-/

namespace ModuleBuild

open Workspace ArtifactStore Pass

/-- The specifiers that passes over some roots meet, with whether they are left alone, if they use any of
some toolchains. An import of a module that cannot be compiled counts only if its target is left alone,
since others are not followed. -/
inductive Reached (known : Toolchain → Prop) (roots : List Specifier) : Specifier → Bool → Prop
  | root {specifier : Specifier} (member : specifier ∈ roots) : Reached known roots specifier false
  | imported {tools : Toolchain} {importer : Specifier} {item : FoundImport × Resolved}
      (used : known tools) (reached : Reached known roots importer false)
      (member : item ∈ tools.resolutions importer)
      (counts : item.2.isExternal = true ∨ ∃ image, tools.image? importer = .ok image) :
      Reached known roots item.2.specifier item.2.isExternal

theorem Reached.mono {known more : Toolchain → Prop} {roots others : List Specifier}
    (used : ∀ tools, known tools → more tools) (listed : ∀ root ∈ roots, root ∈ others)
    {specifier : Specifier} {isExternal : Bool} (reached : Reached known roots specifier isExternal) :
    Reached more others specifier isExternal := by
  induction reached with
  | root member => exact .root (listed _ member)
  | imported own _ member counts ih => exact .imported (used _ own) ih member counts

/-- If the imports of some modules lead to modules among them, then nothing else is reached from them. -/
theorem reached_listed {known : Toolchain → Prop} {roots : List Specifier} (listed : List Specifier)
    (rooted : ∀ root ∈ roots, root ∈ listed)
    (closed : ∀ tools, known tools → ∀ importer ∈ listed, ∀ item ∈ tools.resolutions importer,
      item.2.isExternal = false ∧ item.2.specifier ∈ listed)
    {specifier : Specifier} {isExternal : Bool} (reached : Reached known roots specifier isExternal) :
    isExternal = false ∧ specifier ∈ listed := by
  induction reached with
  | root member => exact ⟨rfl, rooted _ member⟩
  | imported used _ member _ ih => exact closed _ used _ ih.2 _ member

/-- No specifier is met both as a module to compile and as one that is left alone. -/
def Unambiguous (known : Toolchain → Prop) (roots : List Specifier) : Prop :=
  ∀ specifier, ¬ (Reached known roots specifier true ∧ Reached known roots specifier false)

/-- What passes over some roots meet is closed under imports. -/
theorem scope_reached {known : Toolchain → Prop} {roots : List Specifier}
    (apart : Unambiguous known roots) (distinct : DigestsDistinct (Reached known roots · false))
    (sources : ∀ {one two specifier first second}, known one → known two →
      Reached known roots specifier false → one.sources.load specifier = .ok first →
      two.sources.load specifier = .ok second → sourceHash first.bytes = sourceHash second.bytes →
      first = second)
    (tools : ∀ {one two}, known one → known two →
      one.resolver = two.resolver ∧ one.transpiler = two.transpiler) :
    Scope known (Reached known roots · false) (Reached known roots · true) where
  imports := by
    intro tools importer image item used reached compiled member compiledToo
    have next := Reached.imported used reached (Toolchain.resolutions_of_image? compiled ▸ member)
      (.inr ⟨image, compiled⟩)
    exact compiledToo ▸ next
  externals := by
    intro tools importer item used reached member left
    have next := Reached.imported used reached member (.inl left)
    exact left ▸ next
  apart own isLeaf := apart _ ⟨isLeaf, own⟩
  distinct := distinct
  sources := sources
  tools := tools

/-- One toolchain alone is in scope of all that some toolchains meet, whatever else they have in common. -/
theorem scope_of_known {known : Toolchain → Prop} {roots : List Specifier} {tools : Toolchain}
    (apart : Unambiguous known roots) (distinct : DigestsDistinct (Reached known roots · false))
    (used : known tools) :
    Scope (· = tools) (Reached known roots · false) (Reached known roots · true) where
  imports := by
    rintro _ specifier image item rfl reached compiled member compiledToo
    have next := Reached.imported used reached (Toolchain.resolutions_of_image? compiled ▸ member)
      (.inr ⟨image, compiled⟩)
    exact compiledToo ▸ next
  externals := by
    rintro _ specifier item rfl reached member left
    have next := Reached.imported used reached member (.inl left)
    exact left ▸ next
  apart own isLeaf := apart _ ⟨isLeaf, own⟩
  distinct := distinct
  sources := by
    rintro _ _ specifier first second rfl rfl - load load' -
    exact Except.ok.inj (load.symm.trans load')
  tools := by
    rintro _ _ rfl rfl
    exact ⟨rfl, rfl⟩

theorem scope_single {tools : Toolchain} {roots : List Specifier}
    (apart : Unambiguous (· = tools) roots)
    (distinct : DigestsDistinct (Reached (· = tools) roots · false)) :
    Scope (· = tools) (Reached (· = tools) roots · false) (Reached (· = tools) roots · true) :=
  scope_of_known apart distinct rfl

/-- Nothing was compiled and nothing is stored, and the store is in order. -/
structure Workspace.IsBlank (workspace : Workspace) : Prop where
  graph : workspace.graph = {}
  blobs : workspace.store.blobs = .empty
  sidecars : workspace.store.sidecars = .empty
  inOrder : workspace.store.faults = .empty

namespace Workspace

variable {known : Toolchain → Prop} {modules leaf : Specifier → Prop} {workspace : Workspace}

theorem IsBlank.get? (blank : workspace.IsBlank) (specifier : Specifier) :
    workspace.graph.get? specifier = none := by
  rw [blank.graph]
  rfl

theorem IsBlank.not_found (blank : workspace.IsBlank) {specifier : Specifier} {record : ModuleRecord} :
    workspace.graph.get? specifier ≠ some record := by
  simp [blank.get?]

theorem IsBlank.sound (blank : workspace.IsBlank) : Sound known modules leaf workspace where
  store :=
    { inOrder := blank.inOrder
      backed := fun _ found => by simp [blank.sidecars] at found }
  indexed := blank.graph ▸ .empty
  record found := by simp [blank.get?] at found
  leaves found := by simp [blank.get?] at found

theorem IsBlank.givesBack (blank : workspace.IsBlank) : GivesBack modules workspace.store := by
  intro specifier _
  rw [getSidecar_eq blank.inOrder, blank.sidecars]
  rfl

end Workspace

/-- What content hashes will see of a module that can be compiled. -/
def Toolchain.view? (tools : Toolchain) (specifier : Specifier) : Option (Bytes × List Specifier) :=
  match tools.image? specifier with
  | .ok image => some (image.bytes, (image.edges.filter (!·.isDynamic)).map (·.target))
  | .error _ => none

theorem Toolchain.exists_image {tools : Toolchain} {specifier : Specifier} {bytes : Bytes}
    {targets : List Specifier} (view : tools.view? specifier = some (bytes, targets)) :
    ∃ image, tools.image? specifier = .ok image ∧ image.bytes = bytes ∧
      (image.edges.filter (!·.isDynamic)).map (·.target) = targets := by
  unfold Toolchain.view? at view
  split at view
  · next image is => simp_all
  · cases view

theorem cites_of_view {tools : Toolchain} {specifier target : Specifier} {bytes : Bytes}
    {targets : List Specifier} (view : tools.view? specifier = some (bytes, targets))
    (member : target ∈ targets) (modules : Specifier → Prop) (own : modules specifier) :
    Cites modules tools specifier target := by
  obtain ⟨image, is, -, rfl⟩ := Toolchain.exists_image view
  obtain ⟨edge, inside, same⟩ := List.mem_map.1 member
  exact ⟨own, image, is, edge, (List.mem_filter.1 inside).1, same⟩

end ModuleBuild
