import ModuleBuild.Proofs.Compile.Compiled
/-!
Passes that start without records. What they leave of a module follows from its image and from the graph,
so two of them that touch the same modules leave the same records, whatever is stored beforehand.
-/

namespace ModuleBuild

open ModuleGraph Workspace ArtifactStore

theorem ModuleGraph.isDynamicEntry_congr {first second : ModuleGraph} (indexed : first.Indexed)
    (indexed' : second.Indexed)
    (edges : ∀ specifier, second.dependencies specifier = first.dependencies specifier)
    (specifier : Specifier) : second.isDynamicEntry specifier = first.isDynamicEntry specifier := by
  have same (importer : Specifier) :
      importer ∈ second.dependents specifier ↔ importer ∈ first.dependents specifier := by
    rw [mem_dependents indexed', mem_dependents indexed, imports_congr specifier (edges importer)]
  have isEmpty : (second.dependents specifier).isEmpty = (first.dependents specifier).isEmpty := by
    rw [Bool.eq_iff_iff, List.isEmpty_iff, List.isEmpty_iff, List.eq_nil_iff_forall_not_mem,
      List.eq_nil_iff_forall_not_mem]
    exact forall_congr' fun importer => not_congr (same importer)
  simp only [isDynamicEntry, isEmpty, edges]
  congr 1
  rw [Bool.eq_iff_iff, List.all_eq_true, List.all_eq_true]
  exact forall_congr' fun importer => imp_congr_left (same importer)

theorem Workspace.Stamped.eq {graph : ModuleGraph} {edges : List DependencyEdge} {first second : Bytes}
    (one : Stamped graph edges first) (agree : AgreeOutside (stampSlots graph edges) first second)
    (two : Stamped graph edges second) : first = second := by
  refine agree.eq_of_content fun slot member => ?_
  obtain ⟨edge, inside, own⟩ := List.mem_filterMap.1 member
  obtain ⟨⟨slot', token⟩, stamp, rfl⟩ := Option.map_eq_some_iff.1 own
  rw [one edge inside slot' token stamp, two edge inside slot' token stamp]

/-- The record of a settled module follows from its image and the graph. -/
theorem Finished.record_eq {workspace : Workspace} {specifier : Specifier} {image : Image}
    {start : Bytes} {record : ModuleRecord} (indexed : workspace.graph.Indexed)
    (finished : Finished workspace specifier image start record) :
    ∃ hash, workspace.graph.contentHash? specifier = some hash ∧ record =
      { specifier
        kind? := some image.kind
        sourceHash := image.source
        contentHash := hash
        dependencies := image.edges
        output? := some ⟨artifactKey specifier hash, image.artifact.length⟩
        isExternal := false
        flags :=
          { isStyle := image.kind.isStyle
            hasSideEffects := image.hasSideEffects
            isDynamicEntryOnly := workspace.graph.isDynamicEntry specifier }
        state := .ready } := by
  obtain rfl := indexed.keyed finished.found
  obtain ⟨output, code, output?, key, -⟩ := finished.consistent.stored
  obtain ⟨written, stored, -⟩ := finished.code
  have length := (stored.length output output?).trans stored.of.length.symm
  obtain ⟨kind, source, edges, style, effects, compiled⟩ := finished.describes
  have output : record.output? =
      some ⟨artifactKey record.specifier record.contentHash, image.artifact.length⟩ := by
    rw [output?, ← key, ← length]
  have flags : record.flags =
      { isStyle := image.kind.isStyle
        hasSideEffects := image.hasSideEffects
        isDynamicEntryOnly := workspace.graph.isDynamicEntry record.specifier } := by
    rw [← style, ← effects, ← finished.entry]
  refine ⟨record.contentHash, finished.consistent.hashed, ?_⟩
  rw [← kind, ← source, ← edges, ← output, ← flags, ← finished.ready, ← compiled]

theorem Finished.isCodeOf {workspace : Workspace} {specifier : Specifier} {image : Image}
    {start : Bytes} {record : ModuleRecord}
    (finished : Finished workspace specifier image start record) : IsCodeOf image start := by
  obtain ⟨code, stored, agree⟩ := finished.code
  rw [finished.describes.edges] at agree
  exact stored.of.trans (agree.mono (stampSlots_subset _ _)).symm

theorem Finished.artifact_eq {workspace : Workspace} {specifier : Specifier} {image : Image}
    {start : Bytes} {record : ModuleRecord} (inOrder : workspace.store.faults = .empty)
    (finished : Finished workspace specifier image start record) :
    ∃ code, (workspace.artifact specifier).1 = .ok (some code) ∧
      AgreeOutside (stampSlots workspace.graph image.edges) start code ∧
      Stamped workspace.graph image.edges code := by
  obtain ⟨code, stored, agree⟩ := finished.code
  obtain ⟨output, hash, output?, key, there⟩ := stored.has
  obtain ⟨output', code', output?', -, there', -, stamped⟩ := finished.consistent.stored
  obtain rfl := Option.some.inj (output?.symm.trans output?')
  obtain rfl := Option.some.inj (there.symm.trans there')
  rw [finished.describes.edges] at agree stamped
  refine ⟨code, ?_, agree, stamped⟩
  simp [artifact, finished.found, output?, ArtifactStore.get, attempt_eq inOrder, there]

/-- Two settled modules of one image have the same code, if what they were made from differs in stamped
slots only. -/
theorem Finished.code_eq {first second : Workspace} {specifier : Specifier} {image : Image}
    {start start' : Bytes} {record record' : ModuleRecord}
    (inOrder : first.store.faults = .empty) (inOrder' : second.store.faults = .empty)
    (finished : Finished first specifier image start record)
    (finished' : Finished second specifier image start' record')
    (same : ∀ specifier, second.graph.contentHash? specifier = first.graph.contentHash? specifier)
    (agree : AgreeOutside (stampSlots first.graph image.edges) start start') :
    (second.artifact specifier).1 = (first.artifact specifier).1 := by
  obtain ⟨code, artifact, made, stamped⟩ := finished.artifact_eq inOrder
  obtain ⟨code', artifact', made', stamped'⟩ := finished'.artifact_eq inOrder'
  rw [stampSlots_congr _ same] at made'
  have equal : code = code' :=
    stamped.eq (made.symm.trans (agree.trans made')) (stamped'.congr fun edge _ _ => (same _).symm)
  rw [artifact, artifact', equal]

namespace Pass

variable {known : Toolchain → Prop} {modules leaf forced : Specifier → Prop} {tools : Toolchain}
  {base final : Workspace} {options : CompileOptions} {touched : List Specifier}
  {errors : OrderedMap Specifier ModuleError}

inductive FreshOutcome (modules leaf : Specifier → Prop) (tools : Toolchain) (base : Workspace)
    (errors : OrderedMap Specifier ModuleError) (final : Workspace) (specifier : Specifier) : Prop
  | left {record : ModuleRecord} (isLeaf : leaf specifier)
      (found : final.graph.get? specifier = some record) (left : record.IsLeftAlone specifier)
      (entry : record.flags.isDynamicEntryOnly = final.graph.isDynamicEntry specifier)
      (clear : errors.get? specifier = none)
  | failed {error : ModuleError} (own : modules specifier)
      (fails : tools.image? specifier = .error error)
      (found : final.graph.get? specifier =
        some ((ModuleRecord.awaiting specifier).failed error.message))
      (errors : errors.get? specifier = some error)
  | built {image : Image} {start : Bytes} {record : ModuleRecord} (own : modules specifier)
      (compiled : tools.image? specifier = .ok image)
      (source : start = image.artifact ∨ ∃ key, base.store.blobs.get? key = some start)
      (finished : Finished final specifier image start record)
      (targets : ∀ edge ∈ image.edges, ∃ record, final.graph.get? edge.target = some record)
      (clear : errors.get? specifier = none)

theorem Compiled.fresh
    (compiled : Compiled known modules leaf forced tools base options touched errors final)
    (empty : ∀ specifier, base.graph.get? specifier = none) {specifier : Specifier}
    (member : specifier ∈ touched) :
    FreshOutcome modules leaf tools base errors final specifier := by
  cases compiled.inside specifier member with
  | left isLeaf found left entry clear => exact .left isLeaf found left entry clear
  | kept _ was => cases (empty specifier).symm.trans was
  | restamped _ was => cases (empty specifier).symm.trans was
  | redone redone =>
    cases redone with
    | failed was fails found _ errors =>
      rcases was.was with there | ⟨-, rfl⟩
      · cases (empty specifier).symm.trans there
      · exact .failed was.own fails found errors
    | built was compiled source finished targets clear =>
      exact .built was.own compiled source finished targets clear

theorem FreshOutcome.ready {specifier : Specifier}
    (outcome : FreshOutcome modules leaf tools base errors final specifier) (own : ¬ leaf specifier)
    {image : Image} (is : tools.image? specifier = .ok image) :
    errors.get? specifier = none ∧ ∃ record, final.graph.get? specifier = some record ∧
      Describes image record ∧ record.isReady = true := by
  cases outcome with
  | left isLeaf => exact absurd isLeaf own
  | failed _ fails => cases is.symm.trans fails
  | built _ is' _ finished _ clear =>
    obtain rfl := Except.ok.inj (is.symm.trans is')
    exact ⟨clear, _, finished.found, finished.describes, by rw [ModuleRecord.isReady, finished.ready]; rfl⟩

/-- What content hashes and dynamic entries depend on is the same in two graphs. -/
structure SameShape (first second : ModuleGraph) : Prop where
  edges : ∀ specifier, second.dependencies specifier = first.dependencies specifier
  views : ∀ specifier, second.foldView? specifier = first.foldView? specifier

theorem SameShape.contentHash? {first second : ModuleGraph} (shape : SameShape first second)
    (specifier : Specifier) : second.contentHash? specifier = first.contentHash? specifier :=
  contentHash?_congr fun _ _ => shape.views _

theorem shape_of_revises {first second : ModuleGraph} {specifier : Specifier}
    {old new : ModuleRecord} (found : first.get? specifier = some old)
    (found' : second.get? specifier = some new) (revises : old.Revises new) :
    second.dependencies specifier = first.dependencies specifier ∧
      second.foldView? specifier = first.foldView? specifier := by
  refine ⟨?_, ?_⟩
  · rw [dependencies_of_get? found, dependencies_of_get? found', revises.dependencies]
  · simp only [ModuleGraph.foldView?, found, found', revises.folds, revises.sourceHash,
      ModuleRecord.staticDependencies, revises.dependencies]

inductive Matches (tools : Toolchain) (base other : Workspace)
    (errors errors' : OrderedMap Specifier ModuleError) (final final' : Workspace)
    (specifier : Specifier) : Prop
  | left {record record' : ModuleRecord} (found : final.graph.get? specifier = some record)
      (found' : final'.graph.get? specifier = some record') (left : record.IsLeftAlone specifier)
      (left' : record'.IsLeftAlone specifier)
      (entry : record.flags.isDynamicEntryOnly = final.graph.isDynamicEntry specifier)
      (entry' : record'.flags.isDynamicEntryOnly = final'.graph.isDynamicEntry specifier)
      (clear : errors.get? specifier = none) (clear' : errors'.get? specifier = none)
  | failed {error : ModuleError} {record : ModuleRecord}
      (found : final.graph.get? specifier = some record)
      (found' : final'.graph.get? specifier = some record) (bare : record.output? = none)
      (errors : errors.get? specifier = some error) (errors' : errors'.get? specifier = some error)
  | built {image : Image} {start start' : Bytes} {record record' : ModuleRecord}
      (compiled : tools.image? specifier = .ok image)
      (source : start = image.artifact ∨ ∃ key, base.store.blobs.get? key = some start)
      (source' : start' = image.artifact ∨ ∃ key, other.store.blobs.get? key = some start')
      (finished : Finished final specifier image start record)
      (finished' : Finished final' specifier image start' record')
      (clear : errors.get? specifier = none) (clear' : errors'.get? specifier = none)

section Two

variable {other final' : Workspace} {errors' : OrderedMap Specifier ModuleError}
  {specifier : Specifier}

theorem FreshOutcome.matches
    (one : FreshOutcome modules leaf tools base errors final specifier)
    (two : FreshOutcome modules leaf tools other errors' final' specifier)
    (apart : ∀ {specifier}, modules specifier → ¬ leaf specifier) :
    Matches tools base other errors errors' final final' specifier := by
  cases one with
  | left isLeaf found left entry clear =>
    cases two with
    | left _ found' left' entry' clear' =>
      exact .left found found' left left' entry entry' clear clear'
    | failed own => exact absurd isLeaf (apart own)
    | built own => exact absurd isLeaf (apart own)
  | failed own fails found errors =>
    cases two with
    | left isLeaf => exact absurd isLeaf (apart own)
    | failed _ fails' found' errors' =>
      obtain rfl := Except.error.inj (fails.symm.trans fails')
      exact .failed found found' rfl errors errors'
    | built _ compiled => cases fails.symm.trans compiled
  | built own compiled source finished _ clear =>
    cases two with
    | left isLeaf => exact absurd isLeaf (apart own)
    | failed _ fails => cases compiled.symm.trans fails
    | built _ compiled' source' finished' _ clear' =>
      obtain rfl := Except.ok.inj (compiled.symm.trans compiled')
      exact .built compiled source source' finished finished' clear clear'

variable (same : Matches tools base other errors errors' final final' specifier)

include same

theorem Matches.errors_eq : errors'.get? specifier = errors.get? specifier := by
  cases same with
  | left _ _ _ _ _ _ clear clear' => exact clear'.trans clear.symm
  | failed _ _ _ errors errors' => exact errors'.trans errors.symm
  | built _ _ _ _ _ clear clear' => exact clear'.trans clear.symm

theorem Matches.revises (indexed : final.graph.Indexed) (indexed' : final'.graph.Indexed) :
    ∃ record record', final.graph.get? specifier = some record ∧
      final'.graph.get? specifier = some record' ∧ record.Revises record' := by
  cases same with
  | left found found' left left' =>
    obtain ⟨_, rfl⟩ := left
    obtain ⟨isEntry, rfl⟩ := left'
    exact ⟨_, _, found, found', isEntry, "", none, .ready, rfl⟩
  | failed found found' => exact ⟨_, _, found, found', .refl _⟩
  | built _ _ _ finished finished' =>
    obtain ⟨hash, -, rfl⟩ := finished.record_eq indexed
    obtain ⟨hash', -, rfl⟩ := finished'.record_eq indexed'
    exact ⟨_, _, finished.found, finished'.found, _, hash', _, _, rfl⟩

theorem Matches.get?_eq (indexed : final.graph.Indexed) (indexed' : final'.graph.Indexed)
    (shape : SameShape final.graph final'.graph) :
    final'.graph.get? specifier = final.graph.get? specifier := by
  have entries := isDynamicEntry_congr indexed indexed' shape.edges specifier
  cases same with
  | left found found' left left' entry entry' =>
    obtain ⟨isEntry, rfl⟩ := left
    obtain ⟨isEntry', rfl⟩ := left'
    have same : isEntry' = isEntry := entry'.trans (entries.trans entry.symm)
    rw [found, found', same]
  | failed found found' => rw [found, found']
  | built _ _ _ finished finished' =>
    obtain ⟨hash, hashed, rfl⟩ := finished.record_eq indexed
    obtain ⟨hash', hashed', rfl⟩ := finished'.record_eq indexed'
    rw [shape.contentHash?, hashed, Option.some.injEq] at hashed'
    rw [finished.found, finished'.found, hashed', entries]

/-- The code of a module follows from its source and the shape of the graph, if what it was made from is
known outside of stamped slots. -/
theorem Matches.artifact_eq (inOrder : final.store.faults = .empty)
    (inOrder' : final'.store.faults = .empty) (shape : SameShape final.graph final'.graph)
    (agree : ∀ image start start' record, tools.image? specifier = .ok image →
      Finished final specifier image start record → IsCodeOf image start' →
      (start = image.artifact ∨ ∃ key, base.store.blobs.get? key = some start) →
      (start' = image.artifact ∨ ∃ key, other.store.blobs.get? key = some start') →
      AgreeOutside (stampSlots final.graph image.edges) start start') :
    (final'.artifact specifier).1 = (final.artifact specifier).1 := by
  cases same with
  | left found found' left left' =>
    obtain ⟨_, rfl⟩ := left
    obtain ⟨_, rfl⟩ := left'
    simp [artifact, found, found', ModuleRecord.external]
  | failed found found' bare => simp [artifact, found, found', bare]
  | built compiled source source' finished finished' =>
    exact finished.code_eq inOrder inOrder' finished' shape.contentHash?
      (agree _ _ _ _ compiled finished finished'.isCodeOf source source')

end Two

/-- Two passes without earlier records that touch the same modules leave the same graph shape. -/
theorem Compiled.sameShape {known' : Toolchain → Prop} {forced' : Specifier → Prop}
    {other final' : Workspace} {options' : CompileOptions} {touched' : List Specifier}
    {errors' : OrderedMap Specifier ModuleError} (scope : Scope known modules leaf)
    (one : Compiled known modules leaf forced tools base options touched errors final)
    (two : Compiled known' modules leaf forced' tools other options' touched' errors' final')
    (empty : ∀ specifier, base.graph.get? specifier = none)
    (empty' : ∀ specifier, other.graph.get? specifier = none)
    (same : ∀ specifier, specifier ∈ touched ↔ specifier ∈ touched') :
    SameShape final.graph final'.graph := by
  have shape (specifier : Specifier) :
      final'.graph.dependencies specifier = final.graph.dependencies specifier ∧
        final'.graph.foldView? specifier = final.graph.foldView? specifier := by
    by_cases member : specifier ∈ touched
    · have matched := (one.fresh empty member).matches
        (two.fresh empty' ((same specifier).1 member)) scope.apart
      obtain ⟨record, record', found, found', revises⟩ := matched.revises one.indexed two.indexed
      exact shape_of_revises found found' revises
    · have bare {workspace : Workspace} (grows : workspace.graph.get? specifier = none ∨
          ∃ record, workspace.graph.get? specifier = some record ∧ IsNew leaf specifier record) :
          workspace.graph.dependencies specifier = [] ∧
            workspace.graph.foldView? specifier = none := by
        rcases grows with absent | ⟨record, found, fresh⟩
        · exact ⟨dependencies_of_get?_eq_none absent, by simp [ModuleGraph.foldView?, absent]⟩
        · refine ⟨(dependencies_of_get? found).trans fresh.dependencies, ?_⟩
          simp [ModuleGraph.foldView?, found, fresh.folds]
      have first := bare ((one.outside specifier member).1.imp (·.trans (empty specifier)) And.right)
      have second := bare ((two.outside specifier fun member' =>
        member ((same specifier).2 member')).1.imp (·.trans (empty' specifier)) And.right)
      exact ⟨second.1.trans first.1.symm, second.2.trans first.2.symm⟩
  exact ⟨fun specifier => (shape specifier).1, fun specifier => (shape specifier).2⟩

end Pass

end ModuleBuild
