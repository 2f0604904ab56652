import ModuleBuild.Proofs.Compile.Incremental
import ModuleBuild.Proofs.Compile.Sessions
/-!
Starting on a store that was filled before. Whatever sessions left behind, a clean compilation gives what it
would give on an empty store.
-/

namespace ModuleBuild

open ModuleGraph Workspace ArtifactStore BuildManifest Pass Session Relation

section Passes

variable {known : Toolchain → Prop} {modules leaf : Specifier → Prop} {tools : Toolchain}
  {roots touched : List Specifier} {base final : Workspace} {errors : OrderedMap Specifier ModuleError}
  {specifier : Specifier}

theorem Pass.Reaches.mem_touched_iff
    (reaches : Reaches modules tools base {} (roots.map (·, false)) touched)
    (empty : ∀ specifier, base.graph.get? specifier = none) (specifier : Specifier) :
    specifier ∈ touched ↔ ∃ root ∈ roots, ReflTransGen (Cites modules tools) root specifier := by
  constructor
  · intro member
    obtain ⟨item, listed, leads⟩ := reaches.cited specifier member
    obtain ⟨root, inside, rfl⟩ := List.mem_map.1 listed
    exact ⟨root, inside, leads⟩
  · rintro ⟨root, inside, leads⟩
    induction leads with
    | refl => exact reaches.done _ (List.mem_map.2 ⟨root, inside, rfl⟩)
    | @tail importer target _ cites ih =>
      refine reaches.onward rfl importer ih (.inl fun record found => ?_) target cites
      cases (empty importer).symm.trans found

variable
  (compiled : Compiled known modules leaf (fun _ => False) tools base {} touched errors final)
  (empty : ∀ specifier, base.graph.get? specifier = none)

include compiled empty

theorem mem_touched_of_dependency (member : specifier ∈ touched) {edge : DependencyEdge}
    (inside : edge ∈ final.graph.dependencies specifier) : edge.target ∈ touched :=
  compiled.closed rfl specifier member (empty specifier) edge inside

variable (clear : ∀ specifier ∈ touched, errors.get? specifier = none)

include clear

theorem mem_touched_of_get? (apart : ∀ {specifier}, modules specifier → ¬ leaf specifier)
    {record : ModuleRecord} (found : final.graph.get? specifier = some record) : specifier ∈ touched := by
  rcases compiled.adds specifier record (empty specifier) found with
    inside | ⟨importer, member, own, -, error, fails⟩ | ⟨partly, -⟩
  · exact inside
  · cases cleanOutcome compiled empty clear member with
    | left isLeaf => exact absurd isLeaf (apart own)
    | built _ is => cases is.symm.trans fails
  · cases partly

theorem stamped_of_clean (scope : Scope known modules leaf) (used : known tools)
    (tokens : HasTokens final.graph) (member : specifier ∈ touched) {image : Image} {start : Bytes}
    {record : ModuleRecord} (is : tools.image? specifier = .ok image)
    (finished : Finished final specifier image start record) :
    ∀ slot ∈ slotsOf image.edges, slot ∈ stampSlots final.graph image.edges := by
  have own : modules specifier := by
    cases cleanOutcome compiled empty clear member with
    | built own => exact own
    | left _ found left =>
      obtain ⟨_, rfl⟩ := left
      obtain rfl := Option.some.inj (finished.found.symm.trans found)
      cases finished.describes.compiled
  refine image.stamped_slots tokens fun edge inside slot own' => ?_
  obtain ⟨-, item, imported, target, compiledToo⟩ := image.of_slot inside own'
  have ownTarget : modules edge.target := target ▸ scope.imports used own is imported compiledToo
  have listed : edge ∈ final.graph.dependencies specifier := by
    rwa [dependencies_of_get? finished.found, finished.describes.edges]
  cases cleanOutcome compiled empty clear (mem_touched_of_dependency compiled empty member listed) with
  | left isLeaf => exact absurd isLeaf (scope.apart ownTarget)
  | built _ _ finished =>
    rw [foldView?_of_get? finished.found finished.describes.folds]
    simp

end Passes

section TwoStores

variable {known : Toolchain → Prop} {modules leaf : Specifier → Prop} {tools : Toolchain}
  {roots : List Specifier}

/-- Two compilations of the same sources from no records, each over a store that holds what it may. If one
of them is clean then so is the other, and they leave the same. -/
theorem compileAll_agrees (scope : Scope known modules leaf) (used : known tools)
    (rooted : ∀ root ∈ roots, modules root) {first second : Workspace}
    (sound : Sound known modules leaf first) (sound' : Sound known modules leaf second)
    (empty : ∀ specifier, first.graph.get? specifier = none)
    (empty' : ∀ specifier, second.graph.get? specifier = none)
    (givesBack : GivesBack modules first.store) (givesBack' : GivesBack modules second.store)
    (clean : (first.compileAll tools roots).1.isClean = true) :
    let (_, one) := first.compileAll tools roots
    let (report, two) := second.compileAll tools roots
    report.isClean = true ∧ ∀ specifier, two.graph.get? specifier = one.graph.get? specifier ∧
      (two.artifact specifier).1 = (one.artifact specifier).1 := by
  have run := compileAll_ok scope sound used givesBack rooted
  have run' := compileAll_ok scope sound' used givesBack' rooted
  generalize first.compileAll tools roots = result at run clean ⊢
  generalize second.compileAll tools roots = result' at run' ⊢
  obtain ⟨report, one⟩ := result
  obtain ⟨report', two⟩ := result'
  obtain ⟨touched, errors, compiled, reaches, reports⟩ := run
  obtain ⟨touched', errors', compiled', reaches', reports'⟩ := run'
  have same (specifier : Specifier) : specifier ∈ touched ↔ specifier ∈ touched' :=
    (reaches.mem_touched_iff empty specifier).trans (reaches'.mem_touched_iff empty' specifier).symm
  have matched {specifier : Specifier} (member : specifier ∈ touched) :=
    (compiled.fresh empty member).matches (compiled'.fresh empty' ((same specifier).1 member)) scope.apart
  have clear := PassReport.clear_of_isClean reports clean
  have clear' : ∀ specifier ∈ touched', errors'.get? specifier = none := by
    intro specifier member
    have member' := (same specifier).2 member
    rw [(matched member').errors_eq, clear specifier member']
  have shape := compiled.sameShape scope compiled' empty empty' same
  have tokens := (compiled.sound scope sound used).hasTokens
  refine ⟨PassReport.isClean_of_clear reports' clear' fun specifier member edge inside =>
    compiled'.get?_of_mem (mem_touched_of_dependency compiled' empty' member inside), fun specifier => ?_⟩
  by_cases member : specifier ∈ touched
  · refine ⟨(matched member).get?_eq compiled.indexed compiled'.indexed shape,
      (matched member).artifact_eq compiled.store.inOrder compiled'.store.inOrder shape ?_⟩
    intro image start start' record is finished of' _ _
    exact (finished.isCodeOf.symm.trans of').mono
      (stamped_of_clean compiled empty clear scope used tokens member is finished)
  · have absent : one.graph.get? specifier = none := by
      cases found : one.graph.get? specifier with
      | none => rfl
      | some record => exact absurd (mem_touched_of_get? compiled empty clear scope.apart found) member
    have absent' : two.graph.get? specifier = none := by
      cases found : two.graph.get? specifier with
      | none => rfl
      | some record =>
        have inside := mem_touched_of_get? compiled' empty' clear' scope.apart found
        exact absurd ((same specifier).2 inside) member
    exact ⟨absent'.trans absent.symm, by simp [artifact, absent, absent']⟩

end TwoStores

/-- What is asked of toolchains that share a store, apart from what stands behind the kinds of sources. -/
structure Compatible (known : Toolchain → Prop) (roots : List Specifier) : Prop where
  apart : Unambiguous known roots
  distinct : DigestsDistinct (Reached known roots · false)
  hashed : ∀ {one two specifier first second}, known one → known two →
    Reached known roots specifier false → one.sources.load specifier = .ok first →
    two.sources.load specifier = .ok second → sourceHash first.bytes = sourceHash second.bytes →
    first.bytes = second.bytes
  tools : ∀ {one two}, known one → known two →
    one.resolver = two.resolver ∧ one.transpiler = two.transpiler

theorem Compatible.coherent {known : Toolchain → Prop} {roots : List Specifier}
    (compatible : Compatible known roots) (kinds : KindsFollow known roots) : Coherent known roots where
  apart := compatible.apart
  distinct := compatible.distinct
  hashed := compatible.hashed
  kinds := kinds
  tools := compatible.tools

/-- A session that compiles once. -/
def Session.single (manifest : BuildManifest) (tools : Toolchain) (roots : List Specifier) : Session :=
  ⟨manifest, [(tools, .compile roots {})]⟩

/-- Let sessions work one after another on a store that was empty at first, and let another one compile
from some roots. If a compilation of the same sources on an empty store is clean, then the session's is
too, and it leaves the same record and the same code of every module. -/
theorem warm_start_agrees (earlier : List Session) (manifest : BuildManifest) (tools : Toolchain)
    (roots : List Specifier)
    (compatible : ∀ other, Compatible (UsedUnder (single manifest tools roots :: earlier) other)
      (rootsUnder (single manifest tools roots :: earlier) other))
    (kinds : ∀ other, KindsFollow (UsedUnder (single manifest tools roots :: earlier) other)
      (rootsUnder (single manifest tools roots :: earlier) other))
    (store : ArtifactStore) (blank : ({ store } : Workspace).IsBlank) (unmarked : store.metadata = .empty)
    (readable : ∀ other, store.Readable (Meets (single manifest tools roots :: earlier) other · false)
      (Meets (single manifest tools roots :: earlier) other · true))
    (scratch : Workspace) (blank' : scratch.IsBlank) :
    let (prepared, warm) := ({ store := runAll earlier store } : Workspace).prepare (some manifest)
    let (report, cold) := scratch.compileAll tools roots
    let (report', after) := warm.compileAll tools roots
    report.isClean = true → prepared.isOk = true ∧ report'.isClean = true ∧
      ∀ specifier, after.graph.get? specifier = cold.graph.get? specifier ∧
        (after.artifact specifier).1 = (cold.artifact specifier).1 := by
  have coherent (other : BuildManifest) := (compatible other).coherent (kinds other)
  have scope := (coherent manifest).scope
  have listed : single manifest tools roots ∈ single manifest tools roots :: earlier := List.mem_cons_self
  have used : UsedUnder (single manifest tools roots :: earlier) manifest tools :=
    ⟨_, listed, rfl, _, List.mem_singleton_self _, rfl⟩
  have rooted : ∀ root ∈ roots, Meets (single manifest tools roots :: earlier) manifest root false :=
    fun root member => .root (mem_rootsUnder.2 ⟨_, listed, rfl, _, List.mem_singleton_self _, member⟩)
  obtain ⟨attributed, keepsText⟩ := (attributed_blank _ blank unmarked).runAll earlier
    (fun _ => List.mem_cons_of_mem _) coherent readable
  obtain ⟨status, prepared, isPrepared, keepsText', sound, -⟩ := attributed.prepare manifest
  have readable' : prepared.Readable (Meets (single manifest tools roots :: earlier) manifest · false)
      (Meets (single manifest tools roots :: earlier) manifest · true) := by
    rw [ArtifactStore.Readable, keepsText', keepsText]
    exact readable manifest
  have agrees := compileAll_agrees scope used rooted blank'.sound (sound_of_store sound) blank'.get?
    (fun _ => rfl) blank'.givesBack (sound.givesBack scope readable')
  rw [isPrepared]
  dsimp only
  generalize scratch.compileAll tools roots = result at agrees ⊢
  generalize ({ store := prepared } : Workspace).compileAll tools roots = result' at agrees ⊢
  obtain ⟨report, cold⟩ := result
  obtain ⟨report', after⟩ := result'
  exact fun clean => ⟨rfl, agrees clean⟩

section Versions

variable {tools : Toolchain} {roots : List Specifier} {steps : List HistoryStep} {sessions : List Session}
  (within : ∀ session ∈ sessions, ∀ call ∈ session.calls,
    call.1 ∈ tools.versions steps ∧ ∀ root ∈ call.2.roots, root ∈ roots)

include within

theorem Session.UsedUnder.mem_versions {manifest : BuildManifest} {other : Toolchain}
    (used : UsedUnder sessions manifest other) : other ∈ tools.versions steps := by
  obtain ⟨session, member, -, call, inside, rfl⟩ := used
  exact (within session member call inside).1

theorem Session.mem_roots_of_mem_rootsUnder {manifest : BuildManifest} {root : Specifier}
    (listed : root ∈ rootsUnder sessions manifest) : root ∈ roots := by
  obtain ⟨session, member, -, call, inside, listed'⟩ := mem_rootsUnder.1 listed
  exact (within session member call inside).2 root listed'

/-- What sessions meet that compile versions of the same sources is met in the history of these. -/
theorem Session.reached_of_meets {manifest : BuildManifest} {specifier : Specifier} {isExternal : Bool}
    (meets : Meets sessions manifest specifier isExternal) :
    Reached (· ∈ tools.versions steps) roots specifier isExternal :=
  meets.mono (fun _ used => used.mem_versions within) fun _ listed =>
    mem_roots_of_mem_rootsUnder within listed

theorem Admissible.compatible (admissible : Admissible tools roots steps) (manifest : BuildManifest) :
    Compatible (UsedUnder sessions manifest) (rootsUnder sessions manifest) where
  apart specifier both :=
    admissible.apart specifier (both.imp (reached_of_meets within) (reached_of_meets within))
  distinct first second one two :=
    admissible.distinct first second (reached_of_meets within one) (reached_of_meets within two)
  hashed used used' own :=
    admissible.hashed (used.mem_versions within) (used'.mem_versions within) (reached_of_meets within own)
  tools used used' := by
    obtain ⟨resolver, transpiler⟩ := Toolchain.same_of_mem_versions (used.mem_versions within)
    obtain ⟨resolver', transpiler'⟩ := Toolchain.same_of_mem_versions (used'.mem_versions within)
    exact ⟨resolver.trans resolver'.symm, transpiler.trans transpiler'.symm⟩

theorem KindsFollow.under (kinds : KindsFollow (· ∈ tools.versions steps) roots) (manifest : BuildManifest) :
    KindsFollow (UsedUnder sessions manifest) (rootsUnder sessions manifest) :=
  fun used used' own =>
    kinds (used.mem_versions within) (used'.mem_versions within) (reached_of_meets within own)

end Versions

section Ring

def digests : BuildManifest := .ofDigests "m" "p"

/-- A session compiled two modules that import each other. A later one, for which the second was edited,
gives what it would give on an empty store. -/
theorem warm_start_agrees_ring :
    let (_, warm) := ({ store := runAll [single digests ring [⟨"app:a"⟩]] {} } : Workspace).prepare
      (some digests)
    let (report, cold) := ({} : Workspace).compileAll editedRing [⟨"app:a"⟩]
    let (report', after) := warm.compileAll editedRing [⟨"app:a"⟩]
    report.isClean = true ∧ report'.isClean = true ∧ ∀ specifier,
      after.graph.get? specifier = cold.graph.get? specifier ∧
      (after.artifact specifier).1 = (cold.artifact specifier).1 := by
  have within : ∀ session ∈ [single digests editedRing [⟨"app:a"⟩], single digests ring [⟨"app:a"⟩]],
      ∀ call ∈ session.calls,
        call.1 ∈ ring.versions ringSteps ∧ ∀ root ∈ call.2.roots, root ∈ [(⟨"app:a"⟩ : Specifier)] := by
    simp [single, Call.roots, Toolchain.versions, ringSteps, editedRing]
  have agrees := warm_start_agrees _ digests editedRing [⟨"app:a"⟩] (admissible_ring.compatible within)
    (kindsFollow_ring.under within) {} ⟨rfl, rfl, rfl, rfl⟩ rfl
    (fun _ kept => absurd kept Bool.false_ne_true) {} ⟨rfl, rfl, rfl, rfl⟩ isClean_editedRing
  exact ⟨isClean_editedRing, agrees.2⟩

end Ring

section Recast

variable {tools : Toolchain} {size : Nat}

theorem sidecar_lone (lone : IsLone tools size) {workspace : Workspace} (blank : workspace.IsBlank) :
    let (_, after) := workspace.compileAll tools [⟨"app:a"⟩]
    SoundStore (· = tools) (Reached (· = tools) [⟨"app:a"⟩] · false) after.store ∧
      SameSetup workspace.store after.store ∧
      ∃ sidecar, after.store.sidecars.get? ⟨"app:a"⟩ = some sidecar := by
  have alone := lone_of_eq lone
  have run := compileAll_fresh blank (unambiguous_lone alone) (distinct_lone alone) [⟨"app:a"⟩]
    fun _ => Iff.rfl
  generalize workspace.compileAll tools [⟨"app:a"⟩] = result at run ⊢
  obtain ⟨report, after⟩ := result
  obtain ⟨touched, errors, compiled, -, touches⟩ := run
  refine ⟨compiled.store, compiled.setup, ?_⟩
  obtain ⟨image, is, -⟩ := lone.compiled
  cases compiled.inside ⟨"app:a"⟩ ((touches _).2 (.inl List.mem_cons_self)) with
  | left isLeaf => cases (reached_lone alone isLeaf).1
  | kept _ was => exact absurd was blank.not_found
  | restamped _ was => exact absurd was blank.not_found
  | redone redone =>
    cases redone with
    | failed _ fails => cases fails.symm.trans is
    | built _ _ _ _ _ _ sidecar =>
      refine sidecar.resolve_left ?_
      rintro ⟨key, stored⟩
      simp [blank.blobs] at stored

theorem restore?_lone (lone : IsLone tools size) {store : ArtifactStore} {sidecar : Sidecar}
    (sound : SoundStore (· = tools) (Reached (· = tools) [⟨"app:a"⟩] · false) store)
    (keepsText : store.keepsText = false) (found : store.sidecars.get? ⟨"app:a"⟩ = some sidecar) :
    ∃ restored after, restore? store (.awaiting ⟨"app:a"⟩) (sourceHash [49]) =
      (.ok (some restored), after) ∧ restored.dependencies = [] := by
  obtain ⟨image, is, bytes, edges, -⟩ := lone.compiled
  obtain ⟨-, image', output, hash, code, ⟨_, rfl, is'⟩, describes, output?, -, stored, -⟩ :=
    sound.backed (.root List.mem_cons_self) found
  obtain rfl := Except.ok.inj (is.symm.trans is')
  obtain ⟨after, contains, -⟩ := contains_ok sound.inOrder output.key
  have source : sidecar.sourceHash = sourceHash [49] := by rw [describes.source, Image.source, bytes]
  refine ⟨{
      kind? := sidecar.kind?
      dependencies := sidecar.dependencies
      flags := sidecar.flags
      output? := sidecar.output?
      externals := sidecar.externals }, after, ?_, describes.edges.trans edges⟩
  simp [restore?, ModuleRecord.awaiting, restoreSidecar?, getSidecar_eq sound.inOrder, found, keepsText,
    output?, source, contains, OrderedMap.contains, stored]

/-- What a session made of a single root is there for the next one under the same manifest. -/
theorem prepare_lone (lone : IsLone tools size) :
    ∃ store : ArtifactStore,
      ({ store := runAll [single digests tools [⟨"app:a"⟩]] {} } : Workspace).prepare (some digests) =
        (.ok .matching, { store }) ∧
      SoundStore (· = tools) (Reached (· = tools) [⟨"app:a"⟩] · false) store ∧ store.keepsText = false ∧
      ∃ sidecar, store.sidecars.get? ⟨"app:a"⟩ = some sidecar := by
  obtain ⟨prepared, fresh, blank, keepsText, marked⟩ : ∃ prepared : ArtifactStore,
      ({} : Workspace).prepare (some digests) = (.ok .fresh, { store := prepared }) ∧
      ({ store := prepared } : Workspace).IsBlank ∧ prepared.keepsText = false ∧
      prepared.metadata.get? metadataKey = some digests.encode :=
    ⟨_, prepare_fresh rfl digests rfl, ⟨rfl, rfl, rfl, rfl⟩, rfl,
      (OrderedMap.get?_insert _ _ _ _).trans (if_pos rfl)⟩
  have runs : runAll [single digests tools [⟨"app:a"⟩]] {} =
      (({ store := prepared } : Workspace).compileAll tools [⟨"app:a"⟩]).2.store := by
    change (((({} : Workspace).prepare (some digests)).2).performAll _).store = _
    rw [fresh]
    rfl
  have leaves := sidecar_lone lone blank
  rw [runs]
  generalize ({ store := prepared } : Workspace).compileAll tools [⟨"app:a"⟩] = result at leaves ⊢
  obtain ⟨report, after⟩ := result
  obtain ⟨sound, setup, sidecar, found⟩ := leaves
  have matching := prepare_matching sound.inOrder digests (setup.metadata ▸ marked)
    (decode?_encode digests)
  exact ⟨after.store, matching, sound, setup.keepsText.trans keepsText, sidecar, found⟩

/-- A session takes over what an earlier one made of the same bytes, though the source is declared to be
of another kind now, so that its record differs from that of a compilation on an empty store. -/
theorem warm_start_disagrees_after_recast :
    (∀ other, Compatible
      (UsedUnder [single digests recastScript [⟨"app:a"⟩], single digests script [⟨"app:a"⟩]] other)
      (rootsUnder [single digests recastScript [⟨"app:a"⟩], single digests script [⟨"app:a"⟩]] other)) ∧
    let (_, warm) := ({ store := runAll [single digests script [⟨"app:a"⟩]] {} } : Workspace).prepare
      (some digests)
    let (report, cold) := ({} : Workspace).compileAll recastScript [⟨"app:a"⟩]
    report.isClean = true ∧
      (warm.compileAll recastScript [⟨"app:a"⟩]).2.graph.get? ⟨"app:a"⟩ ≠ cold.graph.get? ⟨"app:a"⟩ := by
  refine ⟨admissible_recast.compatible ?_, ?_⟩
  · simp [single, Call.roots, Toolchain.versions, recastSteps, recastScript]
  obtain ⟨store, prepared, sound, keepsText, sidecar, found⟩ := prepare_lone isLone_script
  obtain ⟨restored, after, taken, bare⟩ := restore?_lone isLone_script sound keepsText found
  have recast : Recast script recastScript ⟨"app:a"⟩ [49] :=
    ⟨⟨.javaScript, rfl, rfl⟩, ⟨.json, rfl, rfl⟩⟩
  have alike : ({ store } : Workspace).compileAll recastScript [⟨"app:a"⟩] =
      ({ store } : Workspace).compileAll script [⟨"app:a"⟩] :=
    compileAll_recast recast rfl rfl taken bare {}
  have cold := compileAll_lone isLone_script
  have other := compileAll_lone isLone_recastScript
  have scope := scope_single (unambiguous_lone (lone_of_eq isLone_script))
    (distinct_lone (lone_of_eq isLone_script))
  have rooted : ∀ root ∈ [(⟨"app:a"⟩ : Specifier)], Reached (· = script) [⟨"app:a"⟩] root false :=
    fun root member => .root member
  have readable : store.Readable (Reached (· = script) [⟨"app:a"⟩] · false)
      (Reached (· = script) [⟨"app:a"⟩] · true) := fun kept => by simp [keepsText] at kept
  have agrees := compileAll_agrees scope rfl rooted (IsBlank.sound ⟨rfl, rfl, rfl, rfl⟩)
    (sound_of_store sound) (fun _ => rfl) (fun _ => rfl) (IsBlank.givesBack ⟨rfl, rfl, rfl, rfl⟩)
    (sound.givesBack scope readable) cold.1
  rw [prepared]
  dsimp only
  rw [alike]
  generalize ({} : Workspace).compileAll script [⟨"app:a"⟩] = result at cold agrees
  generalize ({} : Workspace).compileAll recastScript [⟨"app:a"⟩] = result' at other ⊢
  generalize ({ store } : Workspace).compileAll script [⟨"app:a"⟩] = result'' at agrees ⊢
  obtain ⟨report, scratch⟩ := result
  obtain ⟨report', scratch'⟩ := result'
  obtain ⟨report'', warm⟩ := result''
  obtain ⟨-, tracks, ⟨record, there⟩, -⟩ := cold
  obtain ⟨clean, tracks', ⟨record', there'⟩, -⟩ := other
  obtain ⟨-, -, -, -, output, -, output?, -, short⟩ := record_lone isLone_script tracks there
  obtain ⟨-, -, -, -, output', -, output?', -, long⟩ := record_lone isLone_recastScript tracks' there'
  refine ⟨clean, fun same => ?_⟩
  rw [(agrees.2 _).1, there, there', Option.some.injEq] at same
  rw [same, output?', Option.some.injEq] at output?
  rw [← output?, long] at short
  cases short

end Recast

end ModuleBuild
