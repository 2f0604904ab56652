import ModuleBuild.Proofs.Compile.Agreement
import ModuleBuild.Proofs.Compile.Following
import ModuleBuild.Proofs.Compile.Reached
/-!
Histories: sources are edited, and a compiler is told of changes and follows them. In the end it holds what a
compilation from nothing would give.
-/

namespace ModuleBuild

open ModuleGraph Workspace ArtifactStore Pass Relation

inductive HistoryStep
  /-- A source is created, changed or deleted. -/
  | edit (specifier : Specifier) ( entry? : Option SourceEntry)
  /-- The compiler is told that a source changed. -/
  | notice (specifier : Specifier)

namespace Toolchain

def edited (tools : Toolchain) (specifier : Specifier) : Option SourceEntry → Toolchain
  | some entry => { tools with sources := tools.sources.insert specifier entry }
  | none => { tools with sources := tools.sources.erase specifier }

/-- The toolchain as it is before, between and after the steps of a history. -/
def versions (tools : Toolchain) : List HistoryStep → List Toolchain
  | [] => [tools]
  | .edit specifier entry? :: rest => tools :: (tools.edited specifier entry?).versions rest
  | .notice _ :: rest => tools.versions rest

end Toolchain

/-- What a history makes of the sources and of the workspace of a compiler. -/
def Workspace.follow (workspace : Workspace) (tools : Toolchain) :
    List HistoryStep → Toolchain × Workspace
  | [] => (tools, workspace)
  | .edit specifier entry? :: rest => workspace.follow (tools.edited specifier entry?) rest
  | .notice specifier :: rest => (workspace.sourceChanged tools specifier).2.follow tools rest

namespace HistoryStep

/-- The compiler is told of every edit after it was made. -/
def AllNoticed : List HistoryStep → Prop
  | [] => True
  | .edit specifier _ :: rest => .notice specifier ∈ rest ∧ AllNoticed rest
  | .notice _ :: rest => AllNoticed rest

/-- The compiler is not told of roots while they have no source. -/
def RootsPresent (roots : List Specifier) (tools : Toolchain) : List HistoryStep → Prop
  | [] => True
  | .edit specifier entry? :: rest => RootsPresent roots (tools.edited specifier entry?) rest
  | .notice specifier :: rest =>
    (specifier ∈ roots → tools.sources.get? specifier ≠ none) ∧ RootsPresent roots tools rest

def unfollowed (dirty : Specifier → Prop) : List HistoryStep → Specifier → Prop
  | [] => dirty
  | .edit specifier _ :: rest => unfollowed (fun other => dirty other ∨ other = specifier) rest
  | .notice specifier :: rest => unfollowed (fun other => dirty other ∧ other ≠ specifier) rest

theorem AllNoticed.unfollowed {steps : List HistoryStep} (noticed : AllNoticed steps)
    {dirty : Specifier → Prop} {specifier : Specifier}
    (left : HistoryStep.unfollowed dirty steps specifier) :
    dirty specifier ∧ .notice specifier ∉ steps := by
  induction steps generalizing dirty with
  | nil => exact ⟨left, List.not_mem_nil⟩
  | cons step rest ih =>
    cases step with
    | edit edited entry? =>
      obtain ⟨dirty' | rfl, absent⟩ := ih noticed.2 left
      · exact ⟨dirty', by simpa using absent⟩
      · exact absurd noticed.1 absent
    | notice noticed' =>
      obtain ⟨⟨dirty', differ⟩, absent⟩ := ih noticed left
      exact ⟨dirty', by simpa [differ] using absent⟩

end HistoryStep

/-- What is asked of a history, apart from what stands behind the kinds of sources. -/
structure Admissible (tools : Toolchain) (roots : List Specifier) (steps : List HistoryStep) :
    Prop where
  apart : Unambiguous (· ∈ tools.versions steps) roots
  distinct : DigestsDistinct (Reached (· ∈ tools.versions steps) roots · false)
  /-- Versions of a source with the same hash have the same bytes. -/
  hashed : ∀ {one two specifier first second}, one ∈ tools.versions steps →
    two ∈ tools.versions steps → Reached (· ∈ tools.versions steps) roots specifier false →
    one.sources.load specifier = .ok first → two.sources.load specifier = .ok second →
    sourceHash first.bytes = sourceHash second.bytes → first.bytes = second.bytes
  noticed : HistoryStep.AllNoticed steps
  present : HistoryStep.RootsPresent roots tools steps

/-- The kind of a source follows from its specifier and its bytes. -/
def KindsFollow (known : Toolchain → Prop) (roots : List Specifier) : Prop :=
  ∀ {one two specifier first second}, known one → known two → Reached known roots specifier false →
    one.sources.load specifier = .ok first → two.sources.load specifier = .ok second →
    first.bytes = second.bytes → first.kind = second.kind

theorem Toolchain.mem_versions_self (tools : Toolchain) (steps : List HistoryStep) :
    tools ∈ tools.versions steps := by
  induction steps with
  | nil => exact List.mem_singleton_self tools
  | cons step rest ih =>
    cases step with
    | edit => exact List.mem_cons_self
    | notice => exact ih

theorem Toolchain.same_of_mem_versions {tools version : Toolchain} {steps : List HistoryStep}
    (member : version ∈ tools.versions steps) :
    version.resolver = tools.resolver ∧ version.transpiler = tools.transpiler := by
  induction steps generalizing tools with
  | nil =>
    rw [List.mem_singleton.1 member]
    exact ⟨rfl, rfl⟩
  | cons step rest ih =>
    cases step with
    | edit specifier entry? =>
      rcases List.mem_cons.1 member with rfl | later
      · exact ⟨rfl, rfl⟩
      · have same := ih later
        cases entry? <;> exact same
    | notice => exact ih member

namespace Workspace

variable {known : Toolchain → Prop} {modules leaf : Specifier → Prop}

/-- A workspace keeps track of its sources over a history. -/
theorem tracks_follow (scope : Scope known modules leaf) {roots : List Specifier}
    (steps : List HistoryStep) {tools : Toolchain} {workspace : Workspace}
    {dirty : Specifier → Prop} (used : ∀ version ∈ tools.versions steps, known version)
    (present : HistoryStep.RootsPresent roots tools steps)
    (readable : workspace.store.Readable modules leaf)
    (tracks : Tracks known modules leaf dirty tools workspace)
    (rooted : ∀ root ∈ roots, ∃ record, workspace.graph.get? root = some record) :
    let (last, after) := workspace.follow tools steps
    Tracks known modules leaf (HistoryStep.unfollowed dirty steps) last after ∧
      (∀ root ∈ roots, ∃ record, after.graph.get? root = some record) ∧
      last ∈ tools.versions steps := by
  induction steps generalizing tools workspace dirty with
  | nil => exact ⟨tracks, rooted, List.mem_singleton_self tools⟩
  | cons step rest ih =>
    cases step with
    | edit specifier entry? =>
      have edited : Tracks known modules leaf (fun other => dirty other ∨ other = specifier)
          (tools.edited specifier entry?) workspace := by
        refine tracks.edit ?_ ?_ fun other differ => ?_
        all_goals cases entry?
        · rfl
        · rfl
        · rfl
        · rfl
        · exact (OrderedMap.get?_erase _ _ _).trans (if_neg (Ne.symm differ))
        · exact (OrderedMap.get?_insert _ _ _ _).trans (if_neg (Ne.symm differ))
      obtain ⟨later, rooted', last⟩ := ih (fun version member =>
        used version (List.mem_cons_of_mem _ member)) present readable edited rooted
      exact ⟨later, rooted', List.mem_cons_of_mem _ last⟩
    | notice specifier =>
      have own := used tools (tools.mem_versions_self _)
      obtain ⟨-, setup⟩ := sound_sourceChanged scope tracks.sound readable own specifier
      refine ih used present.2 (readable.congr setup)
        (tracks.sourceChanged scope readable own specifier) fun root member => ?_
      obtain ⟨record, found⟩ := rooted root member
      exact Tracks.present_sourceChanged scope tracks.sound readable own found fun same =>
        present.1 (same ▸ member)


end Workspace

/-- Reached in a graph from some roots. -/
def ModuleGraph.ReachedFrom (graph : ModuleGraph) (roots : List Specifier) (specifier : Specifier) :
    Prop :=
  ∃ root ∈ roots, ReflTransGen graph.Imports root specifier

section Clean

variable {known : Toolchain → Prop} {modules leaf : Specifier → Prop} {tools : Toolchain}
  {scratch fresh followed : Workspace} {roots touched : List Specifier}
  {errors : OrderedMap Specifier ModuleError} {specifier : Specifier}

/-- A module that a pass from nothing touched without a failure. -/
inductive CleanOutcome (modules leaf : Specifier → Prop) (tools : Toolchain) (fresh : Workspace)
    (specifier : Specifier) : Prop
  | left {record : ModuleRecord} (isLeaf : leaf specifier)
      (found : fresh.graph.get? specifier = some record) (left : record.IsLeftAlone specifier)
  | built {image : Image} {start : Bytes} {record : ModuleRecord} (own : modules specifier)
      (compiled : tools.image? specifier = .ok image)
      (finished : Finished fresh specifier image start record)

theorem SoundRecord.leftAlone {store : ArtifactStore} {record : ModuleRecord}
    (sound : SoundRecord known modules leaf store specifier record) (scope : Scope known modules leaf)
    (isLeaf : leaf specifier) : record.IsLeftAlone specifier := by
  cases sound with
  | left _ left => exact left
  | awaiting own => exact absurd isLeaf (scope.apart own)
  | failed own => exact absurd isLeaf (scope.apart own)
  | compiled own => exact absurd isLeaf (scope.apart own)

variable
  (compiled : Compiled known modules leaf (fun _ => False) tools scratch {} touched errors fresh)
  (empty : ∀ specifier, scratch.graph.get? specifier = none)
  (clear : ∀ specifier ∈ touched, errors.get? specifier = none)

include compiled empty clear

theorem cleanOutcome (member : specifier ∈ touched) :
    CleanOutcome modules leaf tools fresh specifier := by
  cases compiled.fresh empty member with
  | left isLeaf found left => exact .left isLeaf found left
  | failed _ _ _ failed => cases (clear specifier member).symm.trans failed
  | built own is _ finished => exact .built own is finished

variable (tracks : Tracks known modules leaf (fun _ => False) tools followed)

include tracks

/-- What a clean pass from nothing compiled leads to modules that it touched and that the other
workspace has records of. -/
theorem present_of_imports {target : Specifier} (member : specifier ∈ touched)
    {record : ModuleRecord} (found : followed.graph.get? specifier = some record)
    (imports : fresh.graph.Imports specifier target) :
    target ∈ touched ∧ ∃ record, followed.graph.get? target = some record := by
  obtain ⟨edge, inside, rfl⟩ := imports
  have next : edge.target ∈ touched :=
    compiled.closed rfl specifier member (empty specifier) edge inside
  refine ⟨next, ?_⟩
  cases cleanOutcome compiled empty clear member with
  | left _ there left =>
    rw [dependencies_of_get? there] at inside
    obtain ⟨_, rfl⟩ := left
    cases inside
  | @built image _ _ own is finished =>
    rw [dependencies_of_get? finished.found, finished.describes.edges] at inside
    cases tracks.current specifier record own not_false found with
    | failed fails => cases is.symm.trans fails
    | compiled is' describes =>
      obtain rfl := Except.ok.inj (is.symm.trans is')
      have leads : followed.graph.Imports specifier edge.target :=
        ⟨edge, by rwa [dependencies_of_get? found, describes.edges], rfl⟩
      rcases tracks.linked specifier edge.target leads with present | dirty | missing
      · exact present
      · exact dirty.elim
      · cases cleanOutcome compiled empty clear next with
        | left isLeaf =>
          exact tracks.sound.leaves found (describes.edges.symm ▸ inside) isLeaf
        | built _ is => exact absurd missing (Toolchain.sources_of_image? is)

variable (rooted : ∀ root ∈ roots, root ∈ touched ∧ ∃ record, followed.graph.get? root = some record)

include rooted

theorem present_of_reached (reached : fresh.graph.ReachedFrom roots specifier) :
    specifier ∈ touched ∧ ∃ record, followed.graph.get? specifier = some record := by
  obtain ⟨root, listed, leads⟩ := reached
  induction leads with
  | refl => exact rooted root listed
  | tail _ imports ih =>
    obtain ⟨member, record, found⟩ := ih
    exact present_of_imports compiled empty clear tracks member found imports

variable (scope : Scope known modules leaf)

include scope

theorem foldView?_of_reached (reached : fresh.graph.ReachedFrom roots specifier) :
    fresh.graph.foldView? specifier = followed.graph.foldView? specifier := by
  obtain ⟨member, record, found⟩ := present_of_reached compiled empty clear tracks rooted reached
  cases cleanOutcome compiled empty clear member with
  | left isLeaf there left =>
    obtain ⟨_, rfl⟩ := left
    have left' := (tracks.sound.record found).leftAlone scope isLeaf
    obtain ⟨_, rfl⟩ := left'
    simp [foldView?, there, found, ModuleRecord.folds, ModuleRecord.external]
  | built own is finished =>
    cases tracks.current specifier record own not_false found with
    | failed fails => cases is.symm.trans fails
    | compiled is' describes =>
      obtain rfl := Except.ok.inj (is.symm.trans is')
      rw [foldView?_of_get? finished.found finished.describes.folds,
        foldView?_of_get? found describes.folds, ModuleRecord.staticDependencies,
        ModuleRecord.staticDependencies, finished.describes.source, finished.describes.edges,
        describes.source, describes.edges]

theorem contentHash?_of_reached (reached : fresh.graph.ReachedFrom roots specifier) :
    followed.graph.contentHash? specifier = fresh.graph.contentHash? specifier := by
  obtain ⟨root, listed, leads⟩ := reached
  refine (contentHash?_congr fun other folds => ?_).symm
  exact foldView?_of_reached compiled empty clear tracks rooted scope
    ⟨root, listed, leads.trans (imports_of_reflTransGen folds)⟩

/-- A workspace that keeps track of its sources agrees with a clean pass from nothing on all that is
reached there. -/
theorem agree_of_reached (used : known tools) (start : Sound known modules leaf scratch)
    (reached : fresh.graph.ReachedFrom roots specifier) : Agree fresh followed specifier := by
  obtain ⟨member, record, found⟩ := present_of_reached compiled empty clear tracks rooted reached
  cases cleanOutcome compiled empty clear member with
  | left isLeaf there left =>
    exact agree_of_left there found left ((tracks.sound.record found).leftAlone scope isLeaf)
  | @built image start' record' own is finished =>
    have sound := compiled.sound scope start used
    have done := tracks.isCompiled scope used own not_false found is
    have ready : record.isReady := by simp [ModuleRecord.isReady, done.ready]
    have consistent := (tracks.consistent specifier record found ready done.describes.folds).resolve_right
      (by rintro ⟨_, dirty, -⟩; exact dirty)
    have onward {edge : DependencyEdge} (inside : edge ∈ image.edges) :
        fresh.graph.ReachedFrom roots edge.target := by
      obtain ⟨root, listed, leads⟩ := reached
      refine ⟨root, listed, leads.tail ⟨edge, ?_, rfl⟩⟩
      rwa [dependencies_of_get? finished.found, finished.describes.edges]
    refine agree_of_compiled compiled.store.inOrder tracks.sound.store.inOrder finished.found found
      (sound.indexed.keyed finished.found) (tracks.sound.indexed.keyed found) finished.isCompiled
      done finished.consistent consistent
      (contentHash?_of_reached compiled empty clear tracks rooted scope reached)
      (fun edge inside _ =>
        contentHash?_of_reached compiled empty clear tracks rooted scope (onward inside))
      (image.stamped_slots sound.hasTokens fun edge inside slot own' => ?_)
    obtain ⟨-, item, imported, target, compiledToo⟩ := image.of_slot inside own'
    have ownTarget : modules edge.target :=
      target ▸ scope.imports used own is imported compiledToo
    obtain ⟨next, -⟩ := present_of_reached compiled empty clear tracks rooted (onward inside)
    cases cleanOutcome compiled empty clear next with
    | left isLeaf => exact absurd isLeaf (scope.apart ownTarget)
    | built _ _ finished' =>
      rw [foldView?_of_get? finished'.found finished'.describes.folds]
      simp

end Clean

end ModuleBuild
