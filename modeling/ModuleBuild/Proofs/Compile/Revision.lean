import ModuleBuild.Proofs.Compile.Exploration
/-!
What settling a module may change of its record: its content hash, its output, its state, and whether it
is noted as a dynamic entry. Its imports and its source hash stay, and so do all content hashes.
-/

namespace ModuleBuild

namespace ModuleRecord

def withEntry (record : ModuleRecord) (isEntry : Bool) : ModuleRecord :=
  { record with flags := { record.flags with isDynamicEntryOnly := isEntry } }

/-- One record differs from another by what a module gets when it is settled. -/
def Revises (first second : ModuleRecord) : Prop :=
  ∃ isEntry contentHash output? state,
    second = { first.withEntry isEntry with contentHash, output?, state }

theorem Revises.refl (record : ModuleRecord) : record.Revises record :=
  ⟨record.flags.isDynamicEntryOnly, record.contentHash, record.output?, record.state, rfl⟩

theorem Revises.trans {first second third : ModuleRecord} (one : first.Revises second)
    (two : second.Revises third) : first.Revises third := by
  obtain ⟨_, _, _, _, rfl⟩ := one
  obtain ⟨isEntry, contentHash, output?, state, rfl⟩ := two
  exact ⟨isEntry, contentHash, output?, state, rfl⟩

theorem revises_withEntry (record : ModuleRecord) (isEntry : Bool) :
    record.Revises (record.withEntry isEntry) :=
  ⟨isEntry, record.contentHash, record.output?, record.state, rfl⟩

namespace Revises

variable {first second : ModuleRecord} (revises : first.Revises second)

include revises

theorem specifier : second.specifier = first.specifier := by
  obtain ⟨_, _, _, _, rfl⟩ := revises
  rfl

theorem dependencies : second.dependencies = first.dependencies := by
  obtain ⟨_, _, _, _, rfl⟩ := revises
  rfl

theorem isExternal : second.isExternal = first.isExternal := by
  obtain ⟨_, _, _, _, rfl⟩ := revises
  rfl

theorem folds : second.folds = first.folds := by
  obtain ⟨_, _, _, _, rfl⟩ := revises
  rfl

theorem sourceHash : second.sourceHash = first.sourceHash := by
  obtain ⟨_, _, _, _, rfl⟩ := revises
  rfl

theorem describes {image : Image} (describes : Describes image first) : Describes image second := by
  obtain ⟨_, _, _, _, rfl⟩ := revises
  exact ⟨describes.kind, describes.source, describes.edges, describes.style, describes.effects,
    describes.compiled⟩

end Revises

end ModuleRecord

theorem IsCompiled.withEntry {store : ArtifactStore} {image : Image} {record : ModuleRecord}
    (compiled : IsCompiled store image record) (isEntry : Bool) :
    IsCompiled store image (record.withEntry isEntry) := by
  obtain ⟨code, stored⟩ := compiled.code
  exact ⟨(record.revises_withEntry isEntry).describes compiled.describes, compiled.ready, code,
    stored.has, stored.of, stored.length⟩

namespace ModuleGraph

/-- The records of one graph are those of another after some modules were settled. -/
structure Revises (first second : ModuleGraph) : Prop where
  importers : second.importers = first.importers
  get? : ∀ specifier, first.get? specifier = none ∧ second.get? specifier = none ∨
    ∃ old new, first.get? specifier = some old ∧ second.get? specifier = some new ∧ old.Revises new

theorem Revises.refl (graph : ModuleGraph) : graph.Revises graph := by
  refine ⟨rfl, fun specifier => ?_⟩
  cases graph.get? specifier with
  | none => exact .inl ⟨rfl, rfl⟩
  | some record => exact .inr ⟨record, record, rfl, rfl, .refl record⟩

theorem Revises.trans {first second third : ModuleGraph} (one : first.Revises second)
    (two : second.Revises third) : first.Revises third := by
  refine ⟨two.importers.trans one.importers, fun specifier => ?_⟩
  rcases one.get? specifier with ⟨absent, absent'⟩ | ⟨old, middle, found, found', revises⟩
  · rcases two.get? specifier with ⟨-, gone⟩ | ⟨old, -, there, -⟩
    · exact .inl ⟨absent, gone⟩
    · cases absent'.symm.trans there
  · rcases two.get? specifier with ⟨gone, -⟩ | ⟨_, new, there, there', revises'⟩
    · cases gone.symm.trans found'
    · obtain rfl := Option.some.inj (there.symm.trans found')
      exact .inr ⟨old, new, found, there', revises.trans revises'⟩

namespace Revises

variable {first second : ModuleGraph} (revises : first.Revises second)

include revises

theorem get?_of_get? {specifier : Specifier} {record : ModuleRecord}
    (found : first.get? specifier = some record) :
    ∃ new, second.get? specifier = some new ∧ record.Revises new := by
  rcases revises.get? specifier with ⟨absent, -⟩ | ⟨old, new, found', there, revises⟩
  · cases absent.symm.trans found
  · obtain rfl := Option.some.inj (found'.symm.trans found)
    exact ⟨new, there, revises⟩

theorem of_get? {specifier : Specifier} {record : ModuleRecord}
    (found : second.get? specifier = some record) :
    ∃ old, first.get? specifier = some old ∧ old.Revises record := by
  rcases revises.get? specifier with ⟨-, absent⟩ | ⟨old, new, there, found', revises⟩
  · cases absent.symm.trans found
  · obtain rfl := Option.some.inj (found'.symm.trans found)
    exact ⟨old, there, revises⟩

theorem dependencies (specifier : Specifier) :
    second.dependencies specifier = first.dependencies specifier := by
  rcases revises.get? specifier with ⟨absent, absent'⟩ | ⟨old, new, found, found', revises⟩
  · rw [dependencies_of_get?_eq_none absent, dependencies_of_get?_eq_none absent']
  · rw [dependencies_of_get? found, dependencies_of_get? found', revises.dependencies]

theorem foldView? (specifier : Specifier) :
    second.foldView? specifier = first.foldView? specifier := by
  rcases revises.get? specifier with ⟨absent, absent'⟩ | ⟨old, new, found, found', revises⟩
  · simp [ModuleGraph.foldView?, absent, absent']
  · simp only [ModuleGraph.foldView?, found, found', revises.folds, revises.sourceHash,
      ModuleRecord.staticDependencies, revises.dependencies]

theorem contentHash? (specifier : Specifier) :
    second.contentHash? specifier = first.contentHash? specifier :=
  contentHash?_congr fun _ _ => revises.foldView? _

theorem indexed (start : first.Indexed) : second.Indexed := by
  refine start.of_same_edges revises.importers revises.dependencies ?_
  intro specifier record found
  obtain ⟨old, there, revises⟩ := revises.of_get? found
  exact revises.specifier.trans (start.keyed there)

theorem isDynamicEntry (specifier : Specifier) :
    second.isDynamicEntry specifier = first.isDynamicEntry specifier := by
  simp only [ModuleGraph.isDynamicEntry, dependents, importersOf, revises.importers,
    revises.dependencies]

theorem hasTokens (tokens : Workspace.HasTokens first) : Workspace.HasTokens second :=
  fun specifier hash hashed => tokens specifier hash (revises.contentHash? specifier ▸ hashed)

end Revises

theorem revises_modify (graph : ModuleGraph) (specifier : Specifier)
    {change : ModuleRecord → ModuleRecord}
    (revises : ∀ record : ModuleRecord, record.Revises (change record)) :
    graph.Revises (graph.modify specifier change) := by
  refine ⟨modify_keeps_importers fun record _ => (revises record).dependencies, fun other => ?_⟩
  rw [get?_modify]
  by_cases same : specifier = other
  · rw [if_pos same, ← same]
    cases graph.get? specifier with
    | none => exact .inl ⟨rfl, rfl⟩
    | some record => exact .inr ⟨record, _, rfl, rfl, revises record⟩
  · rw [if_neg same]
    exact (Revises.refl graph).get? other

theorem get?_updateEntryFlag (graph : ModuleGraph) (specifier other : Specifier) :
    (graph.updateEntryFlag specifier).get? other =
      if specifier = other then
        (graph.get? specifier).map (·.withEntry (graph.isDynamicEntry specifier))
      else graph.get? other := by
  unfold updateEntryFlag
  cases found : graph.get? specifier with
  | none =>
    by_cases same : specifier = other
    · rw [if_pos same, ← same]
      exact found
    · rw [if_neg same]
  | some record =>
    by_cases noted : record.flags.isDynamicEntryOnly = graph.isDynamicEntry specifier
    · simp only [if_pos noted]
      by_cases same : specifier = other
      · rw [if_pos same, ← same, found, ← noted]
        rfl
      · rw [if_neg same]
    · simp only [if_neg noted]
      rw [get?_modify, found]
      rfl

theorem revises_updateEntryFlag (graph : ModuleGraph) (specifier : Specifier) :
    graph.Revises (graph.updateEntryFlag specifier) := by
  unfold updateEntryFlag
  split
  · dsimp only
    split
    · exact .refl graph
    · exact graph.revises_modify specifier fun record => record.revises_withEntry _
  · exact .refl graph

end ModuleGraph

theorem Workspace.Refreshes.revises {before after : Workspace} {record result : ModuleRecord}
    {hash : String} {code : Bytes} (refreshes : Refreshes before after record result hash code)
    (found : before.graph.get? record.specifier = some record) :
    before.graph.Revises after.graph := by
  refine ⟨refreshes.importers, fun other => ?_⟩
  rw [refreshes.get?]
  by_cases same : record.specifier = other
  · rw [if_pos same, ← same]
    obtain ⟨length, updated, -⟩ := refreshes.updated
    exact .inr ⟨record, result, found, rfl, _, _, _, _, updated⟩
  · rw [if_neg same]
    exact (ModuleGraph.Revises.refl before.graph).get? other

end ModuleBuild
