import ModuleBuild.Compile.Session
import ModuleBuild.Proofs.Compile.Determined
/-!
When two workspaces hold the same of a module: the records agree in all but the way the module is imported,
and so does the code.
-/

namespace ModuleBuild

open ModuleGraph Workspace ArtifactStore

theorem PassReport.isClean_iff (report : PassReport) :
    report.isClean = true ↔
      (∀ specifier error, report.outcomes.get? specifier ≠ some (.error error)) ∧
        report.missing = [] := by
  rw [isClean, Bool.and_eq_true, List.isEmpty_iff, List.isEmpty_iff]
  refine and_congr_left fun _ => ?_
  rw [errors, List.filterMap_eq_nil_iff]
  constructor
  · intro none specifier error failed
    have listed := OrderedMap.mem_of_lookup failed
    have clear := none _ listed
    cases clear
  · rintro clear ⟨specifier, outcome⟩ listed
    cases outcome with
    | ok record => rfl
    | error error => exact absurd (OrderedMap.get?_of_mem listed) (clear specifier error)

theorem Workspace.HasCode.artifact {workspace : Workspace} {specifier : Specifier} {record : ModuleRecord}
    {code : Bytes} (has : HasCode workspace.store record code) (inOrder : workspace.store.faults = .empty)
    (found : workspace.graph.get? specifier = some record) :
    (workspace.artifact specifier).1 = .ok (some code) := by
  obtain ⟨output, _, output?, -, stored⟩ := has
  simp [Workspace.artifact, found, output?, ArtifactStore.get, attempt_eq inOrder, stored]

theorem ModuleRecord.IsLeftAlone.artifact {workspace : Workspace} {specifier : Specifier}
    {record : ModuleRecord} (left : record.IsLeftAlone specifier)
    (found : workspace.graph.get? specifier = some record) :
    (workspace.artifact specifier).1 = .ok none := by
  obtain ⟨_, rfl⟩ := left
  simp [Workspace.artifact, found, ModuleRecord.external]

/-- What the record of a consistent module refers to follows from its content hash and its image. -/
theorem IsCompiled.output? {graph : ModuleGraph} {store : ArtifactStore} {image : Image}
    {record : ModuleRecord} (compiled : IsCompiled store image record)
    (consistent : Consistent graph store record) :
    record.output? =
      some ⟨artifactKey record.specifier record.contentHash, image.artifact.length⟩ := by
  obtain ⟨code, has⟩ := compiled.code
  obtain ⟨output, _, output?, key, -⟩ := consistent.stored
  rw [output?, ← key, has.of.length, ← has.length output output?]

/-- Two workspaces hold the same record and the same code of a module. -/
structure Agree (first second : Workspace) (specifier : Specifier) : Prop where
  record : ∃ one two, first.graph.get? specifier = some one ∧
    second.graph.get? specifier = some two ∧ two.state = one.state ∧
    two.sourceHash = one.sourceHash ∧ two.dependencies = one.dependencies ∧
    two.contentHash = one.contentHash ∧ two.output? = one.output?
  artifact : (second.artifact specifier).1 = (first.artifact specifier).1

/-- Every slot of an image holds a token, if the modules that its static imports name take part in content
hashes. -/
theorem Image.stamped_slots (image : Image) {graph : ModuleGraph} (tokens : HasTokens graph)
    (present : ∀ edge ∈ image.edges, ∀ slot, edge.slot? = some slot →
      graph.foldView? edge.target ≠ none) :
    ∀ slot ∈ slotsOf image.edges, slot ∈ stampSlots graph image.edges := by
  intro slot member
  obtain ⟨edge, inside, own⟩ := List.mem_filterMap.1 member
  obtain ⟨static, -⟩ := image.of_slot inside own
  obtain ⟨⟨source, targets⟩, view⟩ := Option.ne_none_iff_exists'.1 (present edge inside slot own)
  obtain ⟨imports, hashed⟩ := contentHash?_eq_some view
  obtain ⟨token, cut, -⟩ := tokens _ _ hashed
  refine List.mem_filterMap.2 ⟨edge, inside, ?_⟩
  simp [stamp?, static, own, hashed, cut]

section Compiled

variable {first second : Workspace} {specifier : Specifier} {image : Image}
  {one two : ModuleRecord}

/-- Two modules that are compiled to the same image and consistent agree, if the content hashes do and every
slot holds a token. -/
theorem agree_of_compiled (inOrder : first.store.faults = .empty)
    (inOrder' : second.store.faults = .empty) (found : first.graph.get? specifier = some one)
    (found' : second.graph.get? specifier = some two) (named : one.specifier = specifier)
    (named' : two.specifier = specifier) (compiled : IsCompiled first.store image one)
    (compiled' : IsCompiled second.store image two)
    (consistent : Consistent first.graph first.store one)
    (consistent' : Consistent second.graph second.store two)
    (hash : second.graph.contentHash? specifier = first.graph.contentHash? specifier)
    (imports : ∀ edge ∈ image.edges, edge.isDynamic = false →
      second.graph.contentHash? edge.target = first.graph.contentHash? edge.target)
    (stamped : ∀ slot ∈ slotsOf image.edges, slot ∈ stampSlots first.graph image.edges) :
    Agree first second specifier := by
  obtain ⟨output, code, output?, key, stored, -, marked⟩ := consistent.stored
  obtain ⟨output', code', output?', key', stored', -, marked'⟩ := consistent'.stored
  obtain ⟨held, has⟩ := compiled.code
  obtain ⟨held', has'⟩ := compiled'.code
  obtain rfl : held = code := has.has.eq ⟨output, _, output?, key, stored⟩
  obtain rfl : held' = code' := has'.has.eq ⟨output', _, output?', key', stored'⟩
  have hashes : two.contentHash = one.contentHash := by
    have hashed := consistent.hashed
    have hashed' := consistent'.hashed
    rw [named] at hashed
    rw [named', hash, hashed, Option.some.injEq] at hashed'
    exact hashed'.symm
  have codes : held = held' := by
    rw [compiled.describes.edges] at marked
    rw [compiled'.describes.edges] at marked'
    refine marked.eq ((has.of.symm.trans has'.of).mono stamped) (marked'.congr fun edge member static => ?_)
    exact (imports edge member static).symm
  refine ⟨⟨one, two, found, found', ?_, ?_, ?_, hashes, ?_⟩, ?_⟩
  · rw [compiled.ready, compiled'.ready]
  · rw [compiled.describes.source, compiled'.describes.source]
  · rw [compiled.describes.edges, compiled'.describes.edges]
  · rw [compiled.output? consistent, compiled'.output? consistent', named, named', hashes]
  · rw [has.has.artifact inOrder found, has'.has.artifact inOrder' found', codes]

theorem agree_of_left (found : first.graph.get? specifier = some one)
    (found' : second.graph.get? specifier = some two) (left : one.IsLeftAlone specifier)
    (left' : two.IsLeftAlone specifier) : Agree first second specifier := by
  have artifact := (left'.artifact found').trans (left.artifact found).symm
  obtain ⟨_, rfl⟩ := left
  obtain ⟨_, rfl⟩ := left'
  exact ⟨⟨_, _, found, found', rfl, rfl, rfl, rfl, rfl⟩, artifact⟩

end Compiled

end ModuleBuild
