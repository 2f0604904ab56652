import Mathlib.Data.List.Nodup
import Mathlib.Logic.Relation
import ModuleBuild.Proofs.Compile.Building
/-!
The first half of a pass: from its roots to all that they import. Every module that was claimed has been
left as it was, has failed, or was built, and the modules that were not claimed have at most got a new
record.
-/

namespace ModuleBuild.Pass

open ModuleGraph Workspace ArtifactStore Relation

variable {known : Toolchain → Prop} {modules leaf forced : Specifier → Prop} {tools : Toolchain}
  {base : Workspace}

/-- One module imports another, as its source says. -/
def Cites (modules : Specifier → Prop) (tools : Toolchain) (importer target : Specifier) : Prop :=
  modules importer ∧ ∃ image, tools.image? importer = .ok image ∧
    ∃ edge ∈ image.edges, edge.target = target

/-- A module that imports a specifier was built, and still has to be settled. -/
def BuiltOn (modules : Specifier → Prop) (tools : Toolchain) (pass : Pass)
    (importer target : Specifier) : Prop :=
  Cites modules tools importer target ∧
    ∃ record, pass.workspace.graph.get? importer = some record ∧ record.state = .pending

/-- A specifier that is left alone was met in a module that cannot be compiled. -/
def StraysFrom (modules leaf : Specifier → Prop) (tools : Toolchain) (importer target : Specifier) : Prop :=
  modules importer ∧ leaf target ∧ ∃ error, tools.image? importer = .error error

structure Turn (modules leaf : Specifier → Prop) (tools : Toolchain) (before after : Pass)
    (specifier : Specifier) : Prop where
  keeps : Keeps before after
  adds : AddsOnly
    (fun other => other = specifier ∨ StraysFrom modules leaf tools specifier other ∨
      BuiltOn modules tools after specifier other)
    before.workspace.graph after.workspace.graph
  indexed : after.workspace.graph.Indexed
  own : ∃ record, after.workspace.graph.get? specifier = some record
  others : ∀ other, other ≠ specifier →
    GrowsAt leaf before.workspace.graph after.workspace.graph other ∧
    after.staged.get? other = before.staged.get? other ∧
    after.errors.get? other = before.errors.get? other

structure Kept (modules leaf : Specifier → Prop) (base : Workspace) (pass : Pass)
    (specifier : Specifier) (record : ModuleRecord) : Prop where
  found : pass.workspace.graph.get? specifier = some record
  was : leaf specifier ∧ record.IsLeftAlone specifier ∨
    modules specifier ∧ base.graph.get? specifier = some record ∧ record.isReady
  staged : pass.staged.get? specifier = none
  errors : pass.errors.get? specifier = none

structure WasDue (modules forced : Specifier → Prop) (base : Workspace) (specifier : Specifier)
    (record : ModuleRecord) : Prop where
  own : modules specifier
  was : base.graph.get? specifier = some record ∨
    base.graph.get? specifier = none ∧ record = .awaiting specifier
  due : record.isReady = false ∨ forced specifier

structure FailedBy (modules forced : Specifier → Prop) (tools : Toolchain) (base : Workspace)
    (pass : Pass) (specifier : Specifier) (error : ModuleError) : Prop where
  fails : tools.image? specifier = .error error
  found : ∃ record, WasDue modules forced base specifier record ∧
    pass.workspace.graph.get? specifier = some (record.failed error.message)
  staged : pass.staged.get? specifier = none
  errors : pass.errors.get? specifier = some error

/-- A module that was claimed was compiled, and still has to be settled. -/
structure BuiltTo (modules forced : Specifier → Prop) (tools : Toolchain) (base : Workspace)
    (pass : Pass) (specifier : Specifier) (image : Image) : Prop where
  compiled : tools.image? specifier = .ok image
  due : ∃ record, WasDue modules forced base specifier record
  found : ∃ record, pass.workspace.graph.get? specifier = some record ∧
    record.specifier = specifier ∧
    Prepared base.store (pass.staged.get? specifier) image record
  targets : ∀ edge ∈ image.edges, ∃ record, pass.workspace.graph.get? edge.target = some record
  errors : pass.errors.get? specifier = none

inductive Visited (modules leaf forced : Specifier → Prop) (tools : Toolchain) (base : Workspace)
    (pass : Pass) (specifier : Specifier) : Prop
  | kept {record : ModuleRecord} (kept : Kept modules leaf base pass specifier record)
  | failed {error : ModuleError} (failed : FailedBy modules forced tools base pass specifier error)
  | built {image : Image} (built : BuiltTo modules forced tools base pass specifier image)

structure Explored (modules leaf forced : Specifier → Prop) (tools : Toolchain) (base : Workspace)
    (claimed : List Specifier) (pass : Pass) : Prop where
  contents : SameContents base.store pass.workspace.store
  isSpoiled : pass.workspace.isSpoiled = base.isSpoiled
  indexed : pass.workspace.graph.Indexed
  outside : ∀ specifier, specifier ∉ claimed →
    GrowsAt leaf base.graph pass.workspace.graph specifier ∧
    pass.staged.get? specifier = none ∧ pass.errors.get? specifier = none
  visited : ∀ specifier ∈ claimed, Visited modules leaf forced tools base pass specifier
  adds : AddsOnly
    (fun other => other ∈ claimed ∨ (∃ importer ∈ claimed, StraysFrom modules leaf tools importer other) ∨
      ∃ importer ∈ claimed, BuiltOn modules tools pass importer other)
    base.graph pass.workspace.graph

structure Later (claimed : List Specifier) (first second : Pass) : Prop where
  same : ∀ specifier ∈ claimed,
    second.workspace.graph.get? specifier = first.workspace.graph.get? specifier ∧
    second.staged.get? specifier = first.staged.get? specifier ∧
    second.errors.get? specifier = first.errors.get? specifier
  present : ∀ specifier record, first.workspace.graph.get? specifier = some record →
    ∃ record, second.workspace.graph.get? specifier = some record

theorem Later.refl (claimed : List Specifier) (pass : Pass) : Later claimed pass pass :=
  ⟨fun _ _ => ⟨rfl, rfl, rfl⟩, fun _ record found => ⟨record, found⟩⟩

theorem Later.trans {claimed : List Specifier} {first second third : Pass}
    (one : Later claimed first second) (two : Later claimed second third) :
    Later claimed first third := by
  refine ⟨fun specifier member => ?_, fun specifier record found => ?_⟩
  · obtain ⟨graph, staged, errors⟩ := one.same specifier member
    obtain ⟨graph', staged', errors'⟩ := two.same specifier member
    exact ⟨graph'.trans graph, staged'.trans staged, errors'.trans errors⟩
  · obtain ⟨middle, found⟩ := one.present specifier record found
    exact two.present specifier middle found

theorem Later.mono {claimed more : List Specifier} {first second : Pass}
    (later : Later more first second) (fewer : ∀ specifier ∈ claimed, specifier ∈ more) :
    Later claimed first second :=
  ⟨fun specifier member => later.same specifier (fewer specifier member), later.present⟩

theorem BuiltOn.later {claimed : List Specifier} {first second : Pass}
    (later : Later claimed first second) {importer target : Specifier} (member : importer ∈ claimed)
    (built : BuiltOn modules tools first importer target) :
    BuiltOn modules tools second importer target := by
  obtain ⟨cites, record, found, pending⟩ := built
  exact ⟨cites, record, (later.same importer member).1.trans found, pending⟩

namespace Visited

theorem get? {pass : Pass} {specifier : Specifier}
    (visited : Visited modules leaf forced tools base pass specifier) :
    ∃ record, pass.workspace.graph.get? specifier = some record := by
  cases visited with
  | kept kept => exact ⟨_, kept.found⟩
  | failed failed =>
    obtain ⟨record, -, found⟩ := failed.found
    exact ⟨_, found⟩
  | built built =>
    obtain ⟨record, found, -⟩ := built.found
    exact ⟨record, found⟩

theorem later {claimed : List Specifier} {first second : Pass} (later : Later claimed first second)
    {specifier : Specifier} (member : specifier ∈ claimed)
    (visited : Visited modules leaf forced tools base first specifier) :
    Visited modules leaf forced tools base second specifier := by
  obtain ⟨graph, staged, errors⟩ := later.same specifier member
  cases visited with
  | kept kept =>
    exact .kept ⟨graph.trans kept.found, kept.was, staged.trans kept.staged, errors.trans kept.errors⟩
  | failed failed =>
    obtain ⟨record, was, found⟩ := failed.found
    exact .failed ⟨failed.fails, ⟨record, was, graph.trans found⟩, staged.trans failed.staged,
      errors.trans failed.errors⟩
  | built built =>
    obtain ⟨record, found, named, prepared⟩ := built.found
    refine .built ⟨built.compiled, built.due, ⟨record, graph.trans found, named, staged ▸ prepared⟩,
      fun edge inside => ?_, errors.trans built.errors⟩
    obtain ⟨target, found⟩ := built.targets edge inside
    exact later.present _ target found

end Visited

namespace Explored

variable {claimed : List Specifier} {pass : Pass}
  (explored : Explored modules leaf forced tools base claimed pass)

include explored

theorem present {specifier : Specifier} {record : ModuleRecord}
    (found : base.graph.get? specifier = some record) :
    ∃ record, pass.workspace.graph.get? specifier = some record := by
  by_cases member : specifier ∈ claimed
  · exact (explored.visited specifier member).get?
  · exact ⟨record, (explored.outside specifier member).1.get?_of_get? found⟩

theorem classed (scope : Scope known modules leaf) (start : base.graph.Classed leaf) :
    pass.workspace.graph.Classed leaf := by
  intro specifier record found
  by_cases member : specifier ∈ claimed
  · cases explored.visited specifier member with
    | kept kept =>
      rw [kept.found, Option.some.injEq] at found
      subst found
      rcases kept.was with isLeaf | ⟨-, found, -⟩
      · exact .inl isLeaf
      · exact start specifier _ found
    | failed failed =>
      obtain ⟨old, was, found'⟩ := failed.found
      rw [found', Option.some.injEq] at found
      subst found
      refine .inr ⟨scope.apart was.own, ?_⟩
      rcases was.was with there | ⟨-, rfl⟩
      · rcases start specifier old there with ⟨isLeaf, -⟩ | ⟨-, compiled⟩
        · exact absurd isLeaf (scope.apart was.own)
        · exact compiled
      · rfl
    | built built =>
      obtain ⟨record', found', -, prepared⟩ := built.found
      obtain ⟨old, was⟩ := built.due
      rw [found', Option.some.injEq] at found
      exact .inr ⟨scope.apart was.own, found ▸ prepared.describes.compiled⟩
  · rcases (explored.outside specifier member).1 with same | ⟨-, record', found', fresh⟩
    · exact start specifier record (same ▸ found)
    · rw [found', Option.some.injEq] at found
      exact found ▸ fresh.classed

theorem turn {specifier : Specifier} {after : Pass} (fresh : specifier ∉ claimed)
    (turn : Turn modules leaf tools pass after specifier)
    (visited : Visited modules leaf forced tools base after specifier) :
    Explored modules leaf forced tools base (specifier :: claimed) after ∧
      Later claimed pass after := by
  have later : Later claimed pass after := by
    refine ⟨fun other member => ?_, fun other record found => ?_⟩
    · obtain ⟨grows, staged, errors⟩ := turn.others other fun same => fresh (same ▸ member)
      obtain ⟨record, found⟩ := (explored.visited other member).get?
      exact ⟨(grows.get?_of_get? found).trans found.symm, staged, errors⟩
    · by_cases same : other = specifier
      · exact same ▸ turn.own
      · exact ⟨record, (turn.others other same).1.get?_of_get? found⟩
  refine ⟨⟨explored.contents.trans turn.keeps.contents,
    turn.keeps.isSpoiled.trans explored.isSpoiled, turn.indexed, fun other absent => ?_,
    fun other member => ?_, (explored.adds.mono fun other => ?_).trans
      (turn.adds.mono fun other => ?_)⟩, later⟩
  · obtain ⟨differ, outside⟩ := not_or.1 (mt List.mem_cons.2 absent)
    obtain ⟨grows, staged, errors⟩ := explored.outside other outside
    obtain ⟨grows', staged', errors'⟩ := turn.others other differ
    exact ⟨grows.trans grows', staged'.trans staged, errors'.trans errors⟩
  · rcases List.mem_cons.1 member with rfl | old
    · exact visited
    · exact (explored.visited other old).later later old
  · rintro (old | ⟨importer, old, strays⟩ | ⟨importer, old, built⟩)
    · exact .inl (List.mem_cons_of_mem _ old)
    · exact .inr (.inl ⟨importer, List.mem_cons_of_mem _ old, strays⟩)
    · exact .inr (.inr ⟨importer, List.mem_cons_of_mem _ old, built.later later old⟩)
  · rintro (rfl | strays | built)
    · exact .inl List.mem_cons_self
    · exact .inr (.inl ⟨specifier, List.mem_cons_self, strays⟩)
    · exact .inr (.inr ⟨specifier, List.mem_cons_self, built⟩)

/-- What is known of the record of a module that was not claimed yet. -/
theorem due {specifier : Specifier} (sound : Sound known modules leaf base)
    (scope : Scope known modules leaf) (own : modules specifier) (fresh : specifier ∉ claimed)
    (isDue : ∀ record, pass.workspace.graph.get? specifier = some record →
      record.isReady = false ∨ forced specifier) :
    ∃ record, record = (pass.workspace.graph.get? specifier).getD (.awaiting specifier) ∧
      WasDue modules forced base specifier record ∧
      Buildable known pass.workspace record := by
  have blank : Buildable known pass.workspace (.awaiting specifier) := .inl rfl
  rcases (explored.outside specifier fresh).1 with same | ⟨absent, record, found, isNew⟩
  · cases found : base.graph.get? specifier with
    | none =>
      refine ⟨_, by rw [same, found]; rfl, ⟨own, .inr ⟨found, rfl⟩, .inl rfl⟩, blank⟩
    | some record =>
      have found' := same.trans found
      refine ⟨record, by rw [found']; rfl, ⟨own, .inl found, isDue record found'⟩, ?_⟩
      have named := sound.indexed.keyed found
      cases sound.record found with
      | left isLeaf => exact absurd isLeaf (scope.apart own)
      | awaiting _ isBlank => exact isBlank ▸ blank
      | failed _ failed => exact .inr (.inl failed)
      | @compiled image _ known compiled =>
        obtain ⟨code, stored⟩ := compiled.code
        refine .inr (.inr ⟨image, named ▸ known, ⟨compiled.describes, compiled.ready, code,
          stored.congr fun _ => by rw [explored.contents.blobs]⟩, fun target member => ?_⟩)
        obtain ⟨item, inside, rfl⟩ := List.mem_map.1 member
        obtain ⟨inside, left⟩ := List.mem_filter.1 inside
        obtain ⟨edge, listed, target⟩ := image.mem_targets inside
        have isLeaf := (scope.leaf_iff own known inside).1 left
        rw [← target] at isLeaf ⊢
        obtain ⟨other, there⟩ :=
          sound.leaves found (compiled.describes.edges ▸ listed) isLeaf
        exact explored.present there
  · rcases isNew with ⟨isLeaf, -⟩ | ⟨-, rfl⟩
    · exact absurd isLeaf (scope.apart own)
    · exact ⟨_, by rw [found]; rfl, ⟨own, .inr ⟨absent, rfl⟩, .inl rfl⟩, blank⟩

end Explored

/-- A specifier that may be claimed: that of a module to compile, or of one that is left alone and has
its record. -/
def MayClaim (modules leaf : Specifier → Prop) (pass : Pass) (specifier : Specifier) : Prop :=
  modules specifier ∨ leaf specifier ∧ ∃ record, pass.workspace.graph.get? specifier = some record

/-- If a module was built, its imports are among some specifiers. -/
def ImportsWithin (tools : Toolchain) (pass : Pass) (specifier : Specifier)
    (targets : List Specifier) : Prop :=
  ∀ record image, pass.workspace.graph.get? specifier = some record → record.state = .pending →
    tools.image? specifier = .ok image → ∀ edge ∈ image.edges, edge.target ∈ targets

structure LeadsOn (modules leaf : Specifier → Prop) (tools : Toolchain) (options : CompileOptions)
    (pass : Pass) (specifier : Specifier) (targets : List Specifier) : Prop where
  mayClaim : ∀ target ∈ targets, MayClaim modules leaf pass target
  cited : ∀ target ∈ targets, Cites modules tools specifier target
  all : options.ignoreDependencies = false → ImportsWithin tools pass specifier targets

def IsUnready (pass : Pass) (specifier : Specifier) : Prop :=
  ∀ record, pass.workspace.graph.get? specifier = some record → record.isReady = false

theorem claim_eq (pass : Pass) (specifier : Specifier) (isForced : Bool) :
    pass.claim specifier isForced =
      let record := (pass.workspace.graph.get? specifier).getD (.awaiting specifier)
      (pass.setGraph (pass.workspace.graph.mention specifier),
        if record.isExternal || (record.isReady && !isForced) then none else some record) := by
  simp only [claim, getOrCreate_eq]
  split <;> rfl

/-- A module that needs no compilation is left as it is. -/
theorem turn_kept (scope : Scope known modules leaf) (start : base.graph.Classed leaf)
    {claimed : List Specifier} {pass : Pass}
    (explored : Explored modules leaf forced tools base claimed pass) {specifier : Specifier}
    (fresh : specifier ∉ claimed) (mayClaim : MayClaim modules leaf pass specifier)
    {record : ModuleRecord} (found : pass.workspace.graph.get? specifier = some record)
    (done : record.isExternal = true ∨ record.isReady = true) :
    Turn modules leaf tools pass (pass.setGraph (pass.workspace.graph.mention specifier)) specifier ∧
      Kept modules leaf base (pass.setGraph (pass.workspace.graph.mention specifier)) specifier
        record := by
  rw [mention_of_get? found]
  obtain ⟨grows, staged, errors⟩ := explored.outside specifier fresh
  refine ⟨⟨.refl pass, .of_get? fun _ record found => ⟨record, found⟩, explored.indexed,
      ⟨record, found⟩, fun other _ => ⟨.inl rfl, rfl, rfl⟩⟩, found, ?_, staged, errors⟩
  rcases explored.classed scope start specifier record found with isLeaf | ⟨notLeaf, compiled⟩
  · exact .inl isLeaf
  · have own := mayClaim.resolve_right fun isLeaf => notLeaf isLeaf.1
    have ready := done.resolve_left (by simp [compiled])
    rcases grows with same | ⟨-, blank, found', isNew⟩
    · exact .inr ⟨own, same ▸ found, ready⟩
    · rw [found, Option.some.injEq] at found'
      subst found'
      rcases isNew with ⟨isLeaf, -⟩ | ⟨-, rfl⟩
      · exact absurd isLeaf notLeaf
      · cases ready

section Turns

variable {pass : Pass} {specifier : Specifier} {record : ModuleRecord}
  (was : WasDue modules forced base specifier record)
  (located : record = (pass.workspace.graph.get? specifier).getD (.awaiting specifier))
  (named : record.specifier = specifier)

include located named

omit was in
theorem get?_mention_due :
    (pass.workspace.graph.mention specifier).get? record.specifier = some record := by
  rw [named, get?_mention, if_pos rfl, ← located]

include was

theorem turn_failed {error : ModuleError} (fails : tools.image? specifier = .error error)
    (unstaged : pass.staged.get? specifier = none)
    {after : Pass} (build : BuildFails leaf
      (pass.setGraph (pass.workspace.graph.mention specifier)) after) :
    Turn modules leaf tools pass (after.fail specifier error) specifier ∧
      FailedBy modules forced tools base (after.fail specifier error) specifier error := by
  have found := get?_mention_due located named
  rw [named] at found
  have found' := build.grows.get?_of_get? found
  have changed (other : Specifier) := get?_modify after.workspace.graph specifier other
    (·.failed error.message)
  have adds : AddsOnly (fun other => other = specifier ∨ StraysFrom modules leaf tools specifier other ∨
      BuiltOn modules tools (after.fail specifier error) specifier other)
      pass.workspace.graph (after.fail specifier error).workspace.graph :=
    (((addsOnly_mention _ specifier).mono fun _ => .inl).trans
      (build.adds.mono fun _ isLeaf => .inr (.inl ⟨was.own, isLeaf, error, fails⟩))).trans
        (addsOnly_modify _ _ _)
  refine ⟨⟨⟨build.keeps.contents, build.keeps.isSpoiled⟩, adds,
      build.indexed.modify specifier fun _ => rfl, ?_, fun other differ => ?_⟩,
    fails, ⟨record, was, ?_⟩, ?_, ?_⟩
  · exact ⟨_, by rw [fail, setGraph, changed, if_pos rfl, found', Option.map_some]⟩
  · refine ⟨GrowsAt.trans (.inl ?_) ((build.grows other).trans (.inl ?_)), ?_, ?_⟩
    · exact (get?_mention _ _ _).trans (if_neg (Ne.symm differ))
    · exact (changed other).trans (if_neg (Ne.symm differ))
    · exact congrArg (·.get? other) build.staged
    · refine (OrderedMap.get?_insert _ _ _ _).trans ((if_neg (Ne.symm differ)).trans ?_)
      exact congrArg (·.get? other) build.errors
  · rw [fail, setGraph, changed, if_pos rfl, found', Option.map_some]
  · exact (congrArg (·.get? specifier) build.staged).trans unstaged
  · exact (OrderedMap.get?_insert _ _ _ _).trans (if_pos rfl)

omit located named in
theorem turn_built {image : Image} (compiled : tools.image? specifier = .ok image)
    (contents : SameContents base.store pass.workspace.store)
    (clear : pass.errors.get? specifier = none) {after : Pass}
    (build : Builds leaf (pass.setGraph (pass.workspace.graph.mention specifier)) after specifier
      image) :
    Turn modules leaf tools pass after specifier ∧
      BuiltTo modules forced tools base after specifier image := by
  obtain ⟨result, found, named', prepared⟩ := build.prepared
  have adds : AddsOnly (fun other => other = specifier ∨ StraysFrom modules leaf tools specifier other ∨
      BuiltOn modules tools after specifier other) pass.workspace.graph after.workspace.graph :=
    ((addsOnly_mention _ specifier).mono fun _ => .inl).trans (build.adds.mono fun _ target =>
      .inr (.inr ⟨⟨was.own, image, compiled, target⟩, result, found, prepared.pending⟩))
  refine ⟨⟨⟨build.keeps.contents, build.keeps.isSpoiled⟩, adds, build.indexed, ⟨result, found⟩,
      fun other differ => ?_⟩, compiled,
    ⟨record, was⟩, ⟨result, found, named', ?_⟩, build.targets, ?_⟩
  · obtain ⟨grows, staged⟩ := build.others other differ
    refine ⟨GrowsAt.trans (.inl ?_) grows, staged, congrArg (·.get? other) build.errors⟩
    exact (get?_mention _ _ _).trans (if_neg (Ne.symm differ))
  · refine { prepared with code := prepared.code.imp_right ?_ }
    rintro ⟨unstaged, code, stored⟩
    exact ⟨unstaged, code, stored.congr fun _ => by rw [← contents.blobs]; rfl⟩
  · exact (congrArg (·.get? specifier) build.errors).trans clear

end Turns

theorem explored_compile (sound : Sound known modules leaf base) (scope : Scope known modules leaf)
    (givesBack : GivesBack modules base.store) (used : known tools)
    {claimed : List Specifier} {pass : Pass}
    (explored : Explored modules leaf forced tools base claimed pass) {specifier : Specifier}
    (fresh : specifier ∉ claimed) (own : modules specifier)
    (isDue : ∀ record, pass.workspace.graph.get? specifier = some record →
      record.isReady = false ∨ forced specifier) :
    let (after, targets) :=
      (pass.setGraph (pass.workspace.graph.mention specifier)).compileOrFail tools specifier
        ((pass.workspace.graph.get? specifier).getD (.awaiting specifier))
    Turn modules leaf tools pass after specifier ∧
      ((∃ error, FailedBy modules forced tools base after specifier error ∧ targets = []) ∨
        ∃ image, BuiltTo modules forced tools base after specifier image ∧
          targets = distinctTargets image.edges) := by
  obtain ⟨record, located, was, buildable⟩ := explored.due sound scope own fresh isDue
  obtain ⟨-, unstaged, clear⟩ := explored.outside specifier fresh
  rw [← located]
  have named : record.specifier = specifier := by
    rw [located]
    cases found : pass.workspace.graph.get? specifier with
    | none => rfl
    | some record => exact explored.indexed.keyed found
  subst named
  have classed := explored.classed scope (sound.classed scope)
  have grows : Grows leaf pass.workspace.graph (pass.workspace.graph.mention record.specifier) :=
    grows_mention (.inl (scope.apart own))
  have found := get?_mention_due located rfl
  have store := sound.store.congr explored.contents
  have givesBack' := givesBack.congr sound.store.inOrder explored.contents
  have buildable' : Buildable known
      (pass.setGraph (pass.workspace.graph.mention record.specifier)).workspace record := by
    refine buildable.imp_right (.imp_right ?_)
    rintro ⟨image, known, compiled, present⟩
    refine ⟨image, known, compiled, fun target member => ?_⟩
    obtain ⟨other, there⟩ := present target member
    exact ⟨other, grows.get?_of_get? there⟩
  rcases @build_ok _ _ _ scope tools used
      (pass.setGraph (pass.workspace.graph.mention record.specifier)) (grows.classed classed)
      (explored.indexed.mention _) record found own store givesBack' buildable' unstaged with
    ⟨error, after, fails, build, result⟩ | ⟨image, after, compiled, build, result⟩
  · obtain ⟨turn, failed⟩ := turn_failed was located rfl fails unstaged result
    rw [compileOrFail, build]
    exact ⟨turn, .inl ⟨error, failed, rfl⟩⟩
  · obtain ⟨turn, built⟩ := turn_built was compiled explored.contents clear result
    rw [compileOrFail, build]
    exact ⟨turn, .inr ⟨image, built, rfl⟩⟩

section Leads

variable {pass : Pass} {specifier : Specifier}

theorem Kept.leadsOn {record : ModuleRecord} (kept : Kept modules leaf base pass specifier record)
    (options : CompileOptions) : LeadsOn modules leaf tools options pass specifier [] := by
  refine ⟨by simp, by simp, fun _ other image found pending => ?_⟩
  rw [kept.found, Option.some.injEq] at found
  subst found
  rcases kept.was with ⟨-, _, rfl⟩ | ⟨-, -, ready⟩
  · cases pending
  · simp [ModuleRecord.isReady, pending] at ready

theorem FailedBy.leadsOn {error : ModuleError}
    (failed : FailedBy modules forced tools base pass specifier error) (options : CompileOptions) :
    LeadsOn modules leaf tools options pass specifier [] := by
  refine ⟨by simp, by simp, fun _ _ image _ _ compiled => ?_⟩
  cases failed.fails.symm.trans compiled

theorem FailedBy.isUnready {error : ModuleError}
    (failed : FailedBy modules forced tools base pass specifier error) : IsUnready pass specifier := by
  intro record found
  obtain ⟨old, -, found'⟩ := failed.found
  obtain rfl := Option.some.inj (found'.symm.trans found)
  rfl

theorem BuiltTo.leadsOn {image : Image} (built : BuiltTo modules forced tools base pass specifier image)
    (scope : Scope known modules leaf) (used : known tools) (options : CompileOptions) :
    LeadsOn modules leaf tools options pass specifier
      (if options.ignoreDependencies then [] else distinctTargets image.edges) := by
  obtain ⟨record, was⟩ := built.due
  refine ⟨fun target member => ?_, fun target member => ?_, fun all _ other _ _ compiled edge inside => ?_⟩
  · split at member
    · cases member
    · obtain ⟨edge, inside, rfl⟩ := (mem_distinctTargets _ _).1 member
      rcases scope.target was.own ⟨tools, used, built.compiled⟩ inside with compiled | ⟨isLeaf, -⟩
      · exact .inl compiled
      · exact .inr ⟨isLeaf, built.targets edge inside⟩
  · split at member
    · cases member
    · exact ⟨was.own, image, built.compiled, (mem_distinctTargets _ _).1 member⟩
  · obtain rfl := Except.ok.inj (compiled.symm.trans built.compiled)
    rw [all]
    exact (mem_distinctTargets _ _).2 ⟨edge, inside, rfl⟩

theorem BuiltTo.isUnready {image : Image}
    (built : BuiltTo modules forced tools base pass specifier image) : IsUnready pass specifier := by
  intro record found
  obtain ⟨result, found', -, prepared⟩ := built.found
  obtain rfl := Option.some.inj (found'.symm.trans found)
  simp [ModuleRecord.isReady, prepared.pending]

end Leads

theorem explored_visit (sound : Sound known modules leaf base) (scope : Scope known modules leaf)
    (givesBack : GivesBack modules base.store) (used : known tools) (options : CompileOptions)
    {claimed : List Specifier} {pass : Pass}
    (explored : Explored modules leaf forced tools base claimed pass) {specifier : Specifier}
    (fresh : specifier ∉ claimed) (mayClaim : MayClaim modules leaf pass specifier)
    {isForced : Bool} (isDue : isForced = true → forced specifier) :
    let (after, targets) := pass.visit tools options specifier isForced
    Explored modules leaf forced tools base (specifier :: claimed) after ∧
      Later claimed pass after ∧
      LeadsOn modules leaf tools options after specifier targets ∧
      (isForced = true → leaf specifier ∨ IsUnready after specifier) := by
  have start := sound.classed scope
  have classed := explored.classed scope start
  rw [visit, claim_eq]
  by_cases done :
      (((pass.workspace.graph.get? specifier).getD (.awaiting specifier)).isExternal ||
        (((pass.workspace.graph.get? specifier).getD (.awaiting specifier)).isReady && !isForced)) =
        true
  · simp only [done, if_true]
    cases found : pass.workspace.graph.get? specifier with
    | none => simp [found, ModuleRecord.awaiting, ModuleRecord.isReady] at done
    | some record =>
      rw [found, Option.getD_some, Bool.or_eq_true, Bool.and_eq_true] at done
      obtain ⟨turn, kept⟩ :=
        turn_kept scope start explored fresh mayClaim found (done.imp_right And.left)
      obtain ⟨explored', later⟩ := explored.turn fresh turn (.kept kept)
      refine ⟨explored', later, kept.leadsOn options, fun isForced => ?_⟩
      have left := done.resolve_right fun unforced => by simp [isForced] at unforced
      rcases classed specifier record found with ⟨isLeaf, -⟩ | ⟨-, compiled⟩
      · exact .inl isLeaf
      · cases left.symm.trans compiled
  · simp only [done, Bool.false_eq_true, if_false]
    rw [Bool.or_eq_true, not_or, Bool.and_eq_true, not_and] at done
    have isDue' : ∀ record, pass.workspace.graph.get? specifier = some record →
        record.isReady = false ∨ forced specifier := by
      intro record found
      rw [found, Option.getD_some] at done
      cases ready : record.isReady with
      | false => exact .inl rfl
      | true => exact .inr (isDue (by simpa using done.2 ready))
    -- what is left alone has a record that says so, and is not due
    have own : modules specifier := by
      refine mayClaim.resolve_right ?_
      rintro ⟨isLeaf, record, found⟩
      obtain ⟨_, rfl⟩ := classed.isLeftAlone isLeaf found
      exact done.1 (by rw [found]; rfl)
    have compile := explored_compile sound scope givesBack used explored fresh own isDue'
    generalize (pass.setGraph (pass.workspace.graph.mention specifier)).compileOrFail tools specifier
      ((pass.workspace.graph.get? specifier).getD (.awaiting specifier)) = outcome at compile ⊢
    obtain ⟨after, targets⟩ := outcome
    obtain ⟨turn, ⟨error, failed, rfl⟩ | ⟨image, built, rfl⟩⟩ := compile
    · obtain ⟨explored', later⟩ := explored.turn fresh turn (.failed failed)
      rw [ite_self]
      exact ⟨explored', later, failed.leadsOn options, fun _ => .inr failed.isUnready⟩
    · obtain ⟨explored', later⟩ := explored.turn fresh turn (.built built)
      exact ⟨explored', later, built.leadsOn scope used options, fun _ => .inr built.isUnready⟩

/-- What holds once some work is done, if some modules were claimed before. -/
structure Exploration (modules leaf forced : Specifier → Prop) (tools : Toolchain)
    (base : Workspace) (options : CompileOptions) (claimed : List Specifier) (pass : Pass)
    (work : List (Specifier × Bool)) (touched : List Specifier) (after : Pass) : Prop where
  explored : Explored modules leaf forced tools base touched after
  later : Later claimed pass after
  nodup : touched.Nodup
  earlier : ∀ specifier ∈ claimed, specifier ∈ touched
  done : ∀ item ∈ work, item.1 ∈ touched
  /-- Work that comes first is done anew if that is asked for. -/
  anew : ∀ specifier rest, work = (specifier, true) :: rest → specifier ∉ claimed →
    leaf specifier ∨ IsUnready after specifier
  cited : ∀ specifier ∈ touched, specifier ∈ claimed ∨
    ∃ item ∈ work, ReflTransGen (Cites modules tools) item.1 specifier
  closed : options.ignoreDependencies = false → ∀ specifier ∈ touched, specifier ∈ claimed ∨
    ImportsWithin tools after specifier touched

theorem MayClaim.later {claimed : List Specifier} {first second : Pass}
    (later : Later claimed first second) {specifier : Specifier}
    (mayClaim : MayClaim modules leaf first specifier) :
    MayClaim modules leaf second specifier := by
  refine mayClaim.imp_right ?_
  rintro ⟨isLeaf, record, found⟩
  exact ⟨isLeaf, later.present specifier record found⟩

theorem ImportsWithin.later {claimed : List Specifier} {first second : Pass}
    (later : Later claimed first second) {specifier : Specifier} (member : specifier ∈ claimed)
    {targets more : List Specifier} (fewer : ∀ target ∈ targets, target ∈ more)
    (within : ImportsWithin tools first specifier targets) :
    ImportsWithin tools second specifier more := by
  intro record image found pending compiled edge inside
  rw [(later.same specifier member).1] at found
  exact fewer _ (within record image found pending compiled edge inside)

namespace Exploration

variable {options : CompileOptions} {claimed touched : List Specifier} {pass middle after : Pass}

/-- A module's turn before those of the modules it leads on to and of the rest. -/
theorem cons {specifier : Specifier} {isForced : Bool} {rest : List (Specifier × Bool)}
    {targets next : List Specifier} (later : Later claimed pass middle)
    (leads : LeadsOn modules leaf tools options middle specifier targets)
    (fewer : ∀ target ∈ next, target ∈ targets)
    (all : ImportsWithin tools middle specifier targets → ImportsWithin tools middle specifier next)
    (anew : isForced = true → leaf specifier ∨ IsUnready middle specifier)
    (exploration : Exploration modules leaf forced tools base options (specifier :: claimed) middle
      (next.map (·, false) ++ rest) touched after) :
    Exploration modules leaf forced tools base options claimed pass ((specifier, isForced) :: rest)
      touched after where
  explored := exploration.explored
  later := later.trans (exploration.later.mono fun _ => List.mem_cons_of_mem specifier)
  nodup := exploration.nodup
  earlier other member := exploration.earlier other (List.mem_cons_of_mem specifier member)
  done item member := by
    rcases List.mem_cons.1 member with rfl | old
    · exact exploration.earlier _ List.mem_cons_self
    · exact exploration.done item (List.mem_append_right _ old)
  anew := by
    rintro first _ ⟨⟩ -
    refine (anew rfl).imp_right fun unready record found => unready record ?_
    rw [← (exploration.later.same _ List.mem_cons_self).1, found]
  cited other member := by
    rcases exploration.cited other member with old | ⟨item, listed, cited⟩
    · rcases List.mem_cons.1 old with rfl | old
      · exact .inr ⟨_, List.mem_cons_self, .refl⟩
      · exact .inl old
    · rcases List.mem_append.1 listed with new | old
      · obtain ⟨target, inside, rfl⟩ := List.mem_map.1 new
        exact .inr ⟨_, List.mem_cons_self, .head (leads.cited target (fewer target inside)) cited⟩
      · exact .inr ⟨item, List.mem_cons_of_mem _ old, cited⟩
  closed whole other member := by
    rcases exploration.closed whole other member with old | within
    · rcases List.mem_cons.1 old with rfl | old
      · refine .inr ((all (leads.all whole)).later exploration.later List.mem_cons_self ?_)
        exact fun target inside => exploration.done (target, false)
          (List.mem_append_left _ (List.mem_map.2 ⟨target, inside, rfl⟩))
      · exact .inl old
    · exact .inr within

end Exploration

/-- One module's turn, with what follows from the work it leaves. -/
theorem explored_cons (sound : Sound known modules leaf base) (scope : Scope known modules leaf)
    (givesBack : GivesBack modules base.store) (used : known tools) {options : CompileOptions}
    {claimed : List Specifier} {pass : Pass} {specifier : Specifier} {isForced : Bool}
    {rest : List (Specifier × Bool)}
    (explored : Explored modules leaf forced tools base claimed pass) (nodup : claimed.Nodup)
    (fresh : specifier ∉ claimed)
    (mayClaim : ∀ item ∈ (specifier, isForced) :: rest, MayClaim modules leaf pass item.1)
    (isDue : ∀ item ∈ (specifier, isForced) :: rest, item.2 = true → forced item.1)
    {middle : Pass} {targets : List Specifier}
    (visit : pass.visit tools options specifier isForced = (middle, targets))
    {next : List Specifier} (fewer : ∀ target ∈ next, target ∈ targets)
    (all : ImportsWithin tools middle specifier targets → ImportsWithin tools middle specifier next)
    {after : Pass} {touched : List Specifier}
    (later : Explored modules leaf forced tools base (specifier :: claimed) middle →
      (specifier :: claimed).Nodup →
      (∀ item ∈ next.map (·, false) ++ rest, MayClaim modules leaf middle item.1) →
      (∀ item ∈ next.map (·, false) ++ rest, item.2 = true → forced item.1) →
      Exploration modules leaf forced tools base options (specifier :: claimed) middle
        (next.map (·, false) ++ rest) touched after) :
    Exploration modules leaf forced tools base options claimed pass ((specifier, isForced) :: rest)
      touched after := by
  have visited := explored_visit sound scope givesBack used options explored fresh
    (mayClaim _ List.mem_cons_self) (isDue _ List.mem_cons_self)
  rw [visit] at visited
  obtain ⟨explored', kept, leads, anew⟩ := visited
  refine .cons kept leads fewer all anew (later explored' (List.nodup_cons.2 ⟨fresh, nodup⟩) ?_ ?_)
  · intro item member
    rcases List.mem_append.1 member with new | old
    · obtain ⟨target, inside, rfl⟩ := List.mem_map.1 new
      exact leads.mayClaim target (fewer target inside)
    · exact (mayClaim item (List.mem_cons_of_mem _ old)).later kept
  · intro item member isForced
    rcases List.mem_append.1 member with new | old
    · obtain ⟨target, -, rfl⟩ := List.mem_map.1 new
      cases isForced
    · exact isDue item (List.mem_cons_of_mem _ old) isForced

/-- Everything that work leads to is claimed, and each module has its turn once. -/
theorem explored_visitAll (sound : Sound known modules leaf base) (scope : Scope known modules leaf)
    (givesBack : GivesBack modules base.store) (used : known tools) (options : CompileOptions)
    (claimed : List Specifier) (pass : Pass) (work : List (Specifier × Bool))
    (explored : Explored modules leaf forced tools base claimed pass) (nodup : claimed.Nodup)
    (mayClaim : ∀ item ∈ work, MayClaim modules leaf pass item.1)
    (isDue : ∀ item ∈ work, item.2 = true → forced item.1) :
    let (after, touched) := visitAll tools options claimed pass work
    Exploration modules leaf forced tools base options claimed pass work touched after := by
  induction claimed, pass, work using visitAll.induct tools options with
  | case1 claimed pass =>
    rw [visitAll]
    refine ⟨?_, .refl claimed pass, List.nodup_reverse.2 nodup, ?_, by simp, by simp, ?_, ?_⟩
    · exact { explored with
        outside := fun other absent => explored.outside other (mt List.mem_reverse.2 absent)
        visited := fun other member => explored.visited other (List.mem_reverse.1 member)
        adds := explored.adds.mono (by simp) }
    · exact fun other => List.mem_reverse.2
    · exact fun other member => .inl (List.mem_reverse.1 member)
    · exact fun _ other member => .inl (List.mem_reverse.1 member)
  | case2 claimed pass specifier isForced rest old ih =>
    rw [visitAll, dif_pos old]
    have exploration := ih explored nodup
      (fun item member => mayClaim item (List.mem_cons_of_mem _ member))
      fun item member => isDue item (List.mem_cons_of_mem _ member)
    refine { exploration with
      done := fun item member => ?_
      anew := fun first _ same absent => ?_
      cited := fun other member => ?_ }
    · rcases List.mem_cons.1 member with rfl | later
      · exact exploration.earlier _ old
      · exact exploration.done item later
    · obtain ⟨⟨rfl, -⟩, -⟩ := by simpa using same
      exact absurd old absent
    · refine (exploration.cited other member).imp_right ?_
      rintro ⟨item, listed, cited⟩
      exact ⟨item, List.mem_cons_of_mem _ listed, cited⟩
  | case3 claimed pass specifier isForced rest fresh middle targets visit absent ih =>
    -- without a source there is no image, so that nothing is led on to
    have none : ImportsWithin tools middle specifier [] := by
      intro _ image _ _ compiled
      obtain ⟨loaded, -, load, -⟩ := Toolchain.image?_eq_ok compiled
      simp [SourceTree.load, absent] at load
    have step := explored_cons sound scope givesBack used explored nodup fresh mayClaim isDue visit
      (by simp : ∀ target ∈ [], target ∈ targets) (fun _ => none) ih
    rw [visitAll, dif_neg fresh, visit]
    dsimp only
    split
    · exact step
    · next there => cases absent.symm.trans there
  | case4 claimed pass specifier isForced rest fresh middle targets visit entry found ih =>
    have step := explored_cons sound scope givesBack used explored nodup fresh mayClaim isDue visit
      (fun _ member => member) id ih
    rw [visitAll, dif_neg fresh, visit]
    dsimp only
    split
    · next absent => cases absent.symm.trans found
    · exact step

end ModuleBuild.Pass
