import ModuleBuild.Proofs.Compile.FreshBuild
import ModuleBuild.Proofs.Compile.Histories
import ModuleBuild.Proofs.Compile.Takeover
/-!
Incremental compilation gives what a compilation from nothing gives, whatever was edited in between and in
whatever order the compiler was told of it.
-/

namespace ModuleBuild

open ModuleGraph Workspace ArtifactStore Pass

namespace PassReport

variable {touched : List Specifier} {errors : OrderedMap Specifier ModuleError} {graph : ModuleGraph}
  {report : PassReport}

theorem clear_of_isClean (reports : ReportsOn touched errors graph report)
    (clean : report.isClean = true) : ∀ specifier ∈ touched, errors.get? specifier = none := by
  intro specifier member
  cases failed : errors.get? specifier with
  | none => rfl
  | some error =>
    have told := reports.outcomes specifier
    rw [if_pos member, outcome?, failed] at told
    exact absurd told (((isClean_iff report).1 clean).1 specifier error)

theorem isClean_of_clear (reports : ReportsOn touched errors graph report)
    (clear : ∀ specifier ∈ touched, errors.get? specifier = none)
    (present : ∀ specifier ∈ touched, ∀ edge ∈ graph.dependencies specifier,
      ∃ record, graph.get? edge.target = some record) : report.isClean = true :=
  (isClean_iff report).2 ⟨reports.not_error clear, reports.missing present⟩

end PassReport

namespace Admissible

variable {tools : Toolchain} {roots : List Specifier} {steps : List HistoryStep}

theorem scope (admissible : Admissible tools roots steps)
    (kinds : KindsFollow (· ∈ tools.versions steps) roots) :
    Scope (· ∈ tools.versions steps) (Reached (· ∈ tools.versions steps) roots · false)
      (Reached (· ∈ tools.versions steps) roots · true) := by
  refine scope_reached admissible.apart admissible.distinct ?_ ?_
  · intro one two specifier first second used used' own load load' same
    have bytes := admissible.hashed used used' own load load' same
    have kind := kinds used used' own load load' bytes
    cases first
    cases second
    simp_all
  · intro one two used used'
    obtain ⟨resolver, transpiler⟩ := Toolchain.same_of_mem_versions used
    obtain ⟨resolver', transpiler'⟩ := Toolchain.same_of_mem_versions used'
    exact ⟨resolver.trans resolver'.symm, transpiler.trans transpiler'.symm⟩

end Admissible

namespace Workspace

/-- Let everything be compiled from some roots, and then sources be edited and the compiler be told of
every edit. If the sources that are left compile without an error or a missing import, then what the
compiler holds of all that is reached agrees with a compilation of these sources from nothing. -/
theorem follow_agrees_with_fresh (tools : Toolchain) (roots : List Specifier)
    (steps : List HistoryStep) (admissible : Admissible tools roots steps)
    (kinds : KindsFollow (· ∈ tools.versions steps) roots) (workspace scratch : Workspace)
    (blank : workspace.IsBlank) (blank' : scratch.IsBlank)
    (readable : workspace.store.Readable (Reached (· ∈ tools.versions steps) roots · false)
      (Reached (· ∈ tools.versions steps) roots · true)) :
    let (last, followed) := (workspace.compileAll tools roots).2.follow tools steps
    let (report, fresh) := scratch.compileAll last roots
    report.isClean = true → ∀ specifier, fresh.graph.ReachedFrom roots specifier →
      Agree fresh followed specifier := by
  have scope := admissible.scope kinds
  have start := compileAll_ok scope blank.sound (tools.mem_versions_self steps) blank.givesBack
    fun root member => .root member
  generalize workspace.compileAll tools roots = result at start ⊢
  obtain ⟨_, started⟩ := result
  obtain ⟨touched, errors, compiled, reaches, -⟩ := start
  have rooted : ∀ root ∈ roots, ∃ record, started.graph.get? root = some record := fun root member =>
    compiled.get?_of_mem (reaches.done _ (List.mem_map.2 ⟨root, member, rfl⟩))
  have tracks : Tracks _ _ _ (fun _ => False) tools started := .of_fresh blank.get? compiled
    scope blank.sound (tools.mem_versions_self steps)
  have later := tracks_follow scope steps (fun _ member => member) admissible.present
    (readable.congr compiled.setup) tracks rooted
  generalize started.follow tools steps = result at later ⊢
  obtain ⟨last, followed⟩ := result
  obtain ⟨tracks', rooted', used⟩ := later
  have none : HistoryStep.unfollowed (fun _ => False) steps = fun _ => False :=
    funext fun specifier => propext ⟨fun left => (admissible.noticed.unfollowed left).1, False.elim⟩
  rw [none] at tracks'
  have anew := compileAll_ok scope blank'.sound used blank'.givesBack fun root member => .root member
  dsimp only
  generalize scratch.compileAll last roots = result at anew ⊢
  obtain ⟨report, fresh⟩ := result
  obtain ⟨touched', errors', compiled', reaches', reports⟩ := anew
  intro clean specifier reached
  exact agree_of_reached compiled' blank'.get? (PassReport.clear_of_isClean reports clean) tracks'
    (fun root member =>
      ⟨reaches'.done _ (List.mem_map.2 ⟨root, member, rfl⟩), rooted' root member⟩)
    scope used blank'.sound reached

/-- A pass from nothing is clean if everything that it meets compiles. -/
theorem isClean_compileAll {tools : Toolchain} {roots : List Specifier} {workspace : Workspace}
    (blank : workspace.IsBlank) (apart : Unambiguous (· = tools) roots)
    (distinct : DigestsDistinct (Reached (· = tools) roots · false))
    (compile : ∀ specifier, Reached (· = tools) roots specifier false →
      (tools.image? specifier).isOk = true) :
    (workspace.compileAll tools roots).1.isClean = true := by
  have run := compileAll_fresh blank apart distinct roots fun _ => Iff.rfl
  generalize workspace.compileAll tools roots = result at run ⊢
  obtain ⟨report, after⟩ := result
  obtain ⟨touched, errors, compiled, reports, -⟩ := run
  refine PassReport.isClean_of_clear reports (fun specifier member => ?_)
    fun specifier member edge inside => ?_
  · cases compiled.fresh blank.get? member with
    | left _ _ _ _ clear => exact clear
    | built _ _ _ _ _ clear => exact clear
    | failed own fails =>
      have able := compile specifier own
      rw [fails] at able
      cases able
  · cases compiled.fresh blank.get? member with
    | left _ found left =>
      rw [dependencies_of_get? found] at inside
      obtain ⟨_, rfl⟩ := left
      cases inside
    | failed _ _ found =>
      rw [dependencies_of_get? found] at inside
      cases inside
    | built _ _ _ finished targets =>
      rw [dependencies_of_get? finished.found, finished.describes.edges] at inside
      exact targets edge inside

section Ring

/-- The second of two modules that import each other is edited, and the compiler is told. -/
def ringSteps : List HistoryStep :=
  [.edit ⟨"app:b"⟩ (some (.source ⟨[49], .javaScript⟩)), .notice ⟨"app:b"⟩]

def editedRing : Toolchain := ring.edited ⟨"app:b"⟩ (some (.source ⟨[49], .javaScript⟩))

theorem mem_versions_ring {tools : Toolchain} (member : tools ∈ ring.versions ringSteps) :
    tools = ring ∨ tools = editedRing := by
  simpa [Toolchain.versions, ringSteps, editedRing] using member

set_option maxRecDepth 20000 in
theorem isRing_editedRing : IsRing editedRing := by
  constructor <;> decide

theorem isRing_of_mem_versions : ∀ tools ∈ ring.versions ringSteps, IsRing tools := by
  intro tools member
  rcases mem_versions_ring member with rfl | rfl
  · exact isRing_ring
  · exact isRing_editedRing

theorem load_ring {tools : Toolchain} (member : tools ∈ ring.versions ringSteps)
    {specifier : Specifier} (reached : Reached (· ∈ ring.versions ringSteps) [⟨"app:a"⟩] specifier false)
    {source : Source} (load : tools.sources.load specifier = .ok source) :
    source = ⟨[], .javaScript⟩ ∨ source = ⟨[49], .javaScript⟩ := by
  have first : ring.sources.load ⟨"app:a"⟩ = .ok ⟨[], .javaScript⟩ := rfl
  have second : ring.sources.load ⟨"app:b"⟩ = .ok ⟨[], .javaScript⟩ := rfl
  have first' : editedRing.sources.load ⟨"app:a"⟩ = .ok ⟨[], .javaScript⟩ := rfl
  have second' : editedRing.sources.load ⟨"app:b"⟩ = .ok ⟨[49], .javaScript⟩ := rfl
  rcases mem_versions_ring member with rfl | rfl <;>
    rcases (reached_ring isRing_of_mem_versions reached).2 with rfl | rfl
  · exact .inl (Except.ok.inj (load.symm.trans first))
  · exact .inl (Except.ok.inj (load.symm.trans second))
  · exact .inl (Except.ok.inj (load.symm.trans first'))
  · exact .inr (Except.ok.inj (load.symm.trans second'))

theorem admissible_ring : Admissible ring [⟨"app:a"⟩] ringSteps where
  apart := unambiguous_ring isRing_of_mem_versions
  distinct := distinct_ring isRing_of_mem_versions
  hashed := by
    intro one two specifier first second used used' own load load' same
    have differ : sourceHash [] ≠ sourceHash [49] := by decide +kernel
    rcases load_ring used own load with rfl | rfl <;> rcases load_ring used' own load' with rfl | rfl
    · rfl
    · exact absurd same differ
    · exact absurd same.symm differ
    · rfl
  noticed := by simp [HistoryStep.AllNoticed, ringSteps]
  present := by simp [HistoryStep.RootsPresent, ringSteps]

theorem kindsFollow_ring : KindsFollow (· ∈ ring.versions ringSteps) [⟨"app:a"⟩] := by
  intro one two specifier first second used used' own load load' _
  rcases load_ring used own load with rfl | rfl <;> rcases load_ring used' own load' with rfl | rfl <;>
    rfl

set_option maxRecDepth 20000 in
theorem isClean_editedRing : (({} : Workspace).compileAll editedRing [⟨"app:a"⟩]).1.isClean = true := by
  have rings : ∀ tools, tools = editedRing → IsRing tools := fun _ same => same ▸ isRing_editedRing
  refine isClean_compileAll ⟨rfl, rfl, rfl, rfl⟩ (unambiguous_ring rings) (distinct_ring rings) ?_
  intro specifier reached
  rcases (reached_ring rings reached).2 with rfl | rfl <;> decide

/-- The importer of the edited module agrees with a clean compilation from nothing. -/
theorem follow_agrees_with_fresh_ring :
    let (last, followed) := (({} : Workspace).compileAll ring [⟨"app:a"⟩]).2.follow ring ringSteps
    let (report, fresh) := ({} : Workspace).compileAll last [⟨"app:a"⟩]
    report.isClean = true ∧ Agree fresh followed ⟨"app:a"⟩ := by
  have clean := isClean_editedRing
  exact ⟨clean, follow_agrees_with_fresh ring [⟨"app:a"⟩] ringSteps admissible_ring kindsFollow_ring
    {} {} ⟨rfl, rfl, rfl, rfl⟩ ⟨rfl, rfl, rfl, rfl⟩ nofun clean ⟨"app:a"⟩
    ⟨_, List.mem_cons_self, .refl⟩⟩

end Ring

section Recast

/-- A single script. -/
def script : Toolchain where
  sources := OrderedMap.empty.insert ⟨"app:a"⟩ (.source ⟨[49], .javaScript⟩)

/-- The source is declared to be data. Its bytes stay. -/
def recastSteps : List HistoryStep :=
  [.edit ⟨"app:a"⟩ (some (.source ⟨[49], .json⟩)), .notice ⟨"app:a"⟩]

def recastScript : Toolchain := script.edited ⟨"app:a"⟩ (some (.source ⟨[49], .json⟩))

/-- The only root compiles to a number of bytes and imports nothing. -/
structure IsLone (tools : Toolchain) (size : Nat) : Prop where
  bare : tools.resolutions ⟨"app:a"⟩ = []
  compiled : ∃ image, tools.image? ⟨"app:a"⟩ = .ok image ∧ image.bytes = [49] ∧ image.edges = [] ∧
    image.artifact.length = size

theorem isLone_of {tools : Toolchain} {size : Nat}
    (bare : (tools.resolutions ⟨"app:a"⟩).isEmpty = true)
    (compiled : (tools.image? ⟨"app:a"⟩).toOption.any (fun image => image.bytes = [49] ∧
      image.edges = [] ∧ image.artifact.length = size) = true) : IsLone tools size := by
  refine ⟨List.isEmpty_iff.1 bare, ?_⟩
  cases is : tools.image? ⟨"app:a"⟩ with
  | error error => simp [is, Except.toOption] at compiled
  | ok image =>
    simp only [is, Except.toOption, Option.any_some, decide_eq_true_eq] at compiled
    exact ⟨image, rfl, compiled⟩

set_option maxRecDepth 20000 in
theorem isLone_script : IsLone script 1 := isLone_of (by decide +kernel) (by decide +kernel)

set_option maxRecDepth 20000 in
theorem isLone_recastScript : IsLone recastScript 18 :=
  isLone_of (by decide +kernel) (by decide +kernel)

section Lone

variable {known : Toolchain → Prop} (lone : ∀ tools, known tools → ∃ size, IsLone tools size)

include lone

theorem reached_lone {specifier : Specifier} {isExternal : Bool}
    (reached : Reached known [⟨"app:a"⟩] specifier isExternal) :
    isExternal = false ∧ specifier = ⟨"app:a"⟩ := by
  induction reached with
  | root member => exact ⟨rfl, List.mem_singleton.1 member⟩
  | @imported tools importer item used _ member _ ih =>
    obtain ⟨-, rfl⟩ := ih
    obtain ⟨size, is⟩ := lone tools used
    rw [is.bare] at member
    cases member

theorem unambiguous_lone : Unambiguous known [⟨"app:a"⟩] := by
  rintro specifier ⟨left, -⟩
  cases (reached_lone lone left).1

theorem distinct_lone : DigestsDistinct (Reached known [⟨"app:a"⟩] · false) := by
  intro first second one two _
  rw [(reached_lone lone one).2, (reached_lone lone two).2]

end Lone

theorem lone_of_eq {tools : Toolchain} {size : Nat} (lone : IsLone tools size) :
    ∀ other, other = tools → ∃ size, IsLone other size :=
  fun _ same => ⟨size, same ▸ lone⟩

theorem compileAll_lone {tools : Toolchain} {size : Nat} (lone : IsLone tools size) :
    let (report, after) := ({} : Workspace).compileAll tools [⟨"app:a"⟩]
    report.isClean = true ∧ Tracks (· = tools) (Reached (· = tools) [⟨"app:a"⟩] · false)
      (Reached (· = tools) [⟨"app:a"⟩] · true) (fun _ => False) tools after ∧
    (∃ record, after.graph.get? ⟨"app:a"⟩ = some record) ∧ after.store.keepsText = false := by
  have alone := lone_of_eq lone
  have apart := unambiguous_lone alone
  have distinct := distinct_lone alone
  have blank : ({} : Workspace).IsBlank := ⟨rfl, rfl, rfl, rfl⟩
  have clean := isClean_compileAll blank apart distinct fun specifier reached => by
    obtain ⟨image, is, -⟩ := lone.compiled
    rw [(reached_lone alone reached).2, is]
    rfl
  have run := compileAll_fresh blank apart distinct [⟨"app:a"⟩] fun _ => Iff.rfl
  generalize ({} : Workspace).compileAll tools [⟨"app:a"⟩] = result at run clean ⊢
  obtain ⟨report, after⟩ := result
  obtain ⟨touched, errors, compiled, -, touches⟩ := run
  have scope := scope_single apart distinct
  exact ⟨clean, .of_fresh blank.get? compiled scope blank.sound rfl,
    compiled.get?_of_mem ((touches _).2 (.inl List.mem_cons_self)), compiled.setup.keepsText⟩

theorem record_lone {tools : Toolchain} {size : Nat} (lone : IsLone tools size) {workspace : Workspace}
    (tracks : Tracks (· = tools) (Reached (· = tools) [⟨"app:a"⟩] · false)
      (Reached (· = tools) [⟨"app:a"⟩] · true) (fun _ => False) tools workspace)
    {record : ModuleRecord} (found : workspace.graph.get? ⟨"app:a"⟩ = some record) :
    record.specifier = ⟨"app:a"⟩ ∧ record.state = .ready ∧ record.sourceHash = sourceHash [49] ∧
      record.dependencies = [] ∧ ∃ output code, record.output? = some output ∧
        workspace.store.blobs.get? output.key = some code ∧ output.length = size := by
  have alone := lone_of_eq lone
  have scope := scope_single (unambiguous_lone alone) (distinct_lone alone)
  obtain ⟨image, is, bytes, edges, rfl⟩ := lone.compiled
  have done := tracks.isCompiled scope rfl (.root List.mem_cons_self) not_false found is
  obtain ⟨code, has⟩ := done.code
  obtain ⟨output, -, output?, -, stored⟩ := has.has
  refine ⟨tracks.sound.indexed.keyed found, done.ready, ?_, ?_, output, code, output?, stored, ?_⟩
  · rw [done.describes.source, Image.source, bytes]
  · rw [done.describes.edges, edges]
  · rw [has.length output output?, has.of.length]

theorem mem_versions_script {tools : Toolchain} (member : tools ∈ script.versions recastSteps) :
    tools = script ∨ tools = recastScript := by
  simpa [Toolchain.versions, recastSteps, recastScript] using member

theorem admissible_recast : Admissible script [⟨"app:a"⟩] recastSteps := by
  have alone : ∀ tools ∈ script.versions recastSteps, ∃ size, IsLone tools size := by
    intro tools member
    rcases mem_versions_script member with rfl | rfl
    · exact ⟨1, isLone_script⟩
    · exact ⟨18, isLone_recastScript⟩
  have text {tools : Toolchain} (member : tools ∈ script.versions recastSteps) {source : Source}
      (load : tools.sources.load ⟨"app:a"⟩ = .ok source) : source.bytes = [49] := by
    have first : script.sources.load ⟨"app:a"⟩ = .ok ⟨[49], .javaScript⟩ := rfl
    have second : recastScript.sources.load ⟨"app:a"⟩ = .ok ⟨[49], .json⟩ := rfl
    rcases mem_versions_script member with rfl | rfl
    · rw [← Except.ok.inj (first.symm.trans load)]
    · rw [← Except.ok.inj (second.symm.trans load)]
  refine
    { apart := unambiguous_lone alone
      distinct := distinct_lone alone
      hashed := ?_
      noticed := by simp [HistoryStep.AllNoticed, recastSteps]
      present := ⟨fun _ => by decide, trivial⟩ }
  intro one two specifier first second used used' own load load' _
  obtain ⟨-, rfl⟩ := reached_lone alone own
  rw [text used load, text used' load']

/-- A source whose declared kind changes and whose bytes stay is not compiled again, so that what the
compiler holds of it differs from a clean compilation from nothing. -/
theorem follow_disagrees_after_recast :
    Admissible script [⟨"app:a"⟩] recastSteps ∧
    let (last, followed) := (({} : Workspace).compileAll script [⟨"app:a"⟩]).2.follow script recastSteps
    let (report, fresh) := ({} : Workspace).compileAll last [⟨"app:a"⟩]
    report.isClean = true ∧ fresh.graph.ReachedFrom [⟨"app:a"⟩] ⟨"app:a"⟩ ∧
      ¬ Agree fresh followed ⟨"app:a"⟩ := by
  have first := compileAll_lone isLone_script
  have second := compileAll_lone isLone_recastScript
  have alone := lone_of_eq isLone_script
  have scope := scope_single (unambiguous_lone alone) (distinct_lone alone)
  refine ⟨admissible_recast, second.1, ⟨_, List.mem_cons_self, .refl⟩, ?_⟩
  change ¬ Agree (({} : Workspace).compileAll recastScript [⟨"app:a"⟩]).2
    ((({} : Workspace).compileAll script [⟨"app:a"⟩]).2.sourceChanged recastScript ⟨"app:a"⟩).2 _
  generalize ({} : Workspace).compileAll script [⟨"app:a"⟩] = result at first ⊢
  generalize ({} : Workspace).compileAll recastScript [⟨"app:a"⟩] = result' at second ⊢
  obtain ⟨-, tracks, ⟨record, found⟩, keepsText⟩ := first
  obtain ⟨-, tracks', -⟩ := second
  obtain ⟨named, ready, source, bare, output, code, output?, stored, -⟩ :=
    record_lone isLone_script tracks found
  have recast : Recast script recastScript ⟨"app:a"⟩ [49] :=
    ⟨⟨.javaScript, rfl, rfl⟩, ⟨.json, rfl, rfl⟩⟩
  rw [sourceChanged_recast recast tracks.sound.store.inOrder found named ready source bare output?
    stored]
  have later := tracks.sourceChanged scope (fun kept => by simp [keepsText] at kept) rfl ⟨"app:a"⟩
  simp only [false_and] at later
  rintro ⟨⟨one, two, found', found'', -, -, -, -, outputs⟩, -⟩
  obtain ⟨-, -, -, -, fresh, -, output', -, long⟩ := record_lone isLone_recastScript tracks' found'
  obtain ⟨-, -, -, -, held, -, output'', -, short⟩ := record_lone isLone_script later found''
  rw [output', output'', Option.some.injEq] at outputs
  rw [outputs, long] at short
  cases short

end Recast

end Workspace

end ModuleBuild
