import ModuleBuild.Proofs.Compile.Determined
import ModuleBuild.Proofs.Compile.Reached
/-!
Compiling from nothing. Every module that a pass touches is settled for good, whatever cycles and failures
there are among them, and neither records nor code depend on the order of the roots.
-/

namespace ModuleBuild

open ModuleGraph Workspace ArtifactStore

/-- A module is settled for good. Its outcome is its record, or the error that marks it as failed. -/
inductive Settlement (tools : Toolchain) (roots : List Specifier) (after : Workspace)
    (specifier : Specifier) (record : ModuleRecord) : Except ModuleError ModuleRecord → Prop
  | external (reached : Reached (· = tools) roots specifier true) (left : record.IsLeftAlone specifier) :
      Settlement tools roots after specifier record (.ok record)
  /-- It cannot be loaded, transpiled or resolved. -/
  | errored {error : ModuleError} (fails : tools.image? specifier = .error error)
      (state : record.state = .errored error.message) (edges : record.dependencies = [])
      (output : record.output? = none) (hash : record.contentHash = "")
      (compiled : record.isExternal = false) :
      Settlement tools roots after specifier record (.error error)
  /-- It is ready: its content hash is the one that follows from the graph, and under its key there is
  the emitted code with the tokens of its imports. -/
  | ready {image : Image} {output : OutputReference} {code : Bytes}
      (compiled : tools.image? specifier = .ok image) (state : record.state = .ready)
      (describes : Describes image record)
      (hashed : after.graph.contentHash? specifier = some record.contentHash)
      (output? : record.output? = some output)
      (key : output.key = artifactKey specifier record.contentHash)
      (stored : after.store.blobs.get? output.key = some code) (length : code.length = output.length)
      (emitted : AgreeOutside (stampSlots after.graph image.edges) image.artifact code)
      (tokens : ∀ edge ∈ image.edges, ∀ slot target, edge.slot? = some slot →
        after.graph.get? edge.target = some target → target.folds →
        ∃ hash token, after.graph.contentHash? edge.target = some hash ∧
          hashToken? hash = some token ∧ slot.content code = Text.bytes token) :
      Settlement tools roots after specifier record (.ok record)

namespace Pass

variable {tools : Toolchain} {roots : List Specifier} {base final : Workspace}
  {errors : OrderedMap Specifier ModuleError} {specifier : Specifier}

theorem eq_artifact_of_blobs (blobs : base.store.blobs = .empty) {image : Image} {start : Bytes}
    (source : start = image.artifact ∨ ∃ key, base.store.blobs.get? key = some start) :
    start = image.artifact := by
  refine source.resolve_right ?_
  rintro ⟨key, stored⟩
  simp [blobs] at stored

theorem FreshOutcome.settlement
    (fresh : FreshOutcome (Reached (· = tools) roots · false) (Reached (· = tools) roots · true) tools
      base errors final specifier) (blobs : base.store.blobs = .empty) (indexed : final.graph.Indexed)
    (tokens : HasTokens final.graph) :
    ∃ record outcome, final.graph.get? specifier = some record ∧
      outcome? errors final.graph specifier = some outcome ∧
      Settlement tools roots final specifier record outcome := by
  cases fresh with
  | @left record reached found left _ clear =>
    exact ⟨record, .ok record, found, by simp [outcome?, clear, found], .external reached left⟩
  | @failed error _ fails found errors =>
    exact ⟨_, .error error, found, by simp [outcome?, errors],
      .errored fails rfl rfl rfl rfl rfl⟩
  | @built image start record _ compiled source finished _ clear =>
    refine ⟨record, .ok record, finished.found, by simp [outcome?, clear, finished.found], ?_⟩
    obtain rfl := eq_artifact_of_blobs blobs source
    obtain rfl := indexed.keyed finished.found
    obtain ⟨output, code, output?, key, stored, -, stamped⟩ := finished.consistent.stored
    obtain ⟨written, has, agree⟩ := finished.code
    obtain ⟨output', -, own, -, there⟩ := has.has
    obtain rfl := Option.some.inj (output?.symm.trans own)
    obtain rfl := Option.some.inj (stored.symm.trans there)
    rw [finished.describes.edges] at agree stamped
    refine .ready compiled finished.ready finished.describes finished.consistent.hashed output? key
      stored (has.length output output?).symm agree fun edge member slot target slot? found folds => ?_
    obtain ⟨imports, hashed⟩ := contentHash?_eq_some (foldView?_of_get? found folds)
    obtain ⟨token, cut, -⟩ := tokens _ _ hashed
    have static := (image.of_slot member slot?).1
    exact ⟨_, token, hashed, cut, stamped edge member slot _ (by simp [stamp?, static, slot?, hashed, cut])⟩

/-- The specifiers that a pass over some roots touches. -/
def Touches (tools : Toolchain) (roots : List Specifier) (specifier : Specifier) : Prop :=
  specifier ∈ roots ∨ ∃ importer, Cites (Reached (· = tools) roots · false) tools importer specifier

section Run

variable {known : Toolchain → Prop} {forced : Specifier → Prop} {options : CompileOptions}
  {touched : List Specifier}
  (compiled : Compiled known (Reached (· = tools) roots · false) (Reached (· = tools) roots · true)
    forced tools base options touched errors final)
  (empty : ∀ specifier, base.graph.get? specifier = none) (whole : options.ignoreDependencies = false)
  (rooted : ∀ root ∈ roots, root ∈ touched)

include compiled empty whole

theorem mem_touched_of_edge (apart : Unambiguous (· = tools) roots) {importer : Specifier}
    (member : importer ∈ touched) (own : Reached (· = tools) roots importer false) {image : Image}
    (is : tools.image? importer = .ok image) {edge : DependencyEdge} (inside : edge ∈ image.edges) :
    edge.target ∈ touched := by
  refine compiled.closed whole importer member (empty importer) edge ?_
  cases compiled.fresh empty member with
  | left isLeaf => exact absurd ⟨isLeaf, own⟩ (apart importer)
  | failed _ fails => cases is.symm.trans fails
  | built _ compiled' _ finished =>
    obtain rfl := Except.ok.inj (is.symm.trans compiled')
    rw [dependencies_of_get? finished.found, finished.describes.edges]
    exact inside

include rooted

theorem mem_touched_of_reached (apart : Unambiguous (· = tools) roots) {isExternal : Bool}
    (reached : Reached (· = tools) roots specifier isExternal) (own : isExternal = false) :
    specifier ∈ touched := by
  induction reached with
  | root member => exact rooted _ member
  | imported used reached member counts ih =>
    subst used
    rcases counts with left | ⟨image, is⟩
    · cases own.symm.trans left
    · rw [Toolchain.resolutions_of_image? is] at member
      obtain ⟨edge, inside, target⟩ := image.mem_targets member
      exact target ▸ mem_touched_of_edge compiled empty whole apart (ih rfl) reached is inside

theorem mem_touched_of_touches (apart : Unambiguous (· = tools) roots)
    (touches : Touches tools roots specifier) : specifier ∈ touched := by
  rcases touches with root | ⟨importer, own, image, is, edge, inside, rfl⟩
  · exact rooted specifier root
  · exact mem_touched_of_edge compiled empty whole apart
      (mem_touched_of_reached compiled empty whole rooted apart own rfl) own is inside

end Run

end Pass

namespace Workspace

open Pass

theorem compileAll_fresh {tools : Toolchain} {roots : List Specifier} {workspace : Workspace}
    (blank : workspace.IsBlank) (apart : Unambiguous (· = tools) roots)
    (distinct : DigestsDistinct (Reached (· = tools) roots · false)) (others : List Specifier)
    (same : ∀ specifier, specifier ∈ others ↔ specifier ∈ roots) :
    let (report, after) := workspace.compileAll tools others
    ∃ touched errors,
      Compiled (· = tools) (Reached (· = tools) roots · false) (Reached (· = tools) roots · true)
        (fun _ => False) tools workspace {} touched errors after ∧
      ReportsOn touched errors after.graph report ∧
      ∀ specifier, specifier ∈ touched ↔ Touches tools roots specifier := by
  have run := compileAll_ok (scope_single apart distinct) blank.sound (rfl : tools = tools)
    blank.givesBack fun root (member : root ∈ others) => .root ((same root).1 member)
  generalize workspace.compileAll tools others = result at run ⊢
  obtain ⟨report, after⟩ := result
  obtain ⟨touched, errors, compiled, reaches, reports⟩ := run
  have rooted : ∀ root ∈ roots, root ∈ touched := fun root member =>
    reaches.done _ (List.mem_map.2 ⟨root, (same root).2 member, rfl⟩)
  refine ⟨touched, errors, compiled, reports, fun specifier => ⟨fun member => ?_,
    mem_touched_of_touches compiled blank.get? rfl rooted apart⟩⟩
  obtain ⟨item, listed, cited⟩ := reaches.cited specifier member
  obtain ⟨root, inside, rfl⟩ := List.mem_map.1 listed
  rcases cited.cases_tail with rfl | ⟨importer, -, cites⟩
  · exact .inl ((same _).1 inside)
  · exact .inr ⟨importer, cites⟩

/-- Two passes that start from nothing leave the same if they are given the same roots. -/
theorem compileAll_same {tools : Toolchain} {roots : List Specifier} {workspace : Workspace}
    (blank : workspace.IsBlank) (apart : Unambiguous (· = tools) roots)
    (distinct : DigestsDistinct (Reached (· = tools) roots · false)) (others : List Specifier)
    (same : ∀ specifier, specifier ∈ others ↔ specifier ∈ roots) :
    let (report, after) := workspace.compileAll tools roots
    let (report', after') := workspace.compileAll tools others
    ∀ specifier, report'.outcomes.get? specifier = report.outcomes.get? specifier ∧
      (Touches tools roots specifier →
        after'.graph.get? specifier = after.graph.get? specifier ∧
        (after'.artifact specifier).1 = (after.artifact specifier).1) := by
  have first := compileAll_fresh blank apart distinct roots fun _ => Iff.rfl
  have second := compileAll_fresh blank apart distinct others same
  generalize workspace.compileAll tools roots = result at first ⊢
  generalize workspace.compileAll tools others = result' at second ⊢
  obtain ⟨report, after⟩ := result
  obtain ⟨report', after'⟩ := result'
  obtain ⟨touched, errors, compiled, reports, touches⟩ := first
  obtain ⟨touched', errors', compiled', reports', touches'⟩ := second
  have both (specifier : Specifier) : specifier ∈ touched ↔ specifier ∈ touched' :=
    (touches specifier).trans (touches' specifier).symm
  have shape := compiled.sameShape (scope_single apart distinct) compiled' blank.get? blank.get? both
  intro specifier
  by_cases member : specifier ∈ touched
  · have matched := (compiled.fresh blank.get? member).matches
      (compiled'.fresh blank.get? ((both specifier).1 member)) (scope_single apart distinct).apart
    have get? := matched.get?_eq compiled.indexed compiled'.indexed shape
    refine ⟨?_, fun _ => ⟨get?, ?_⟩⟩
    · rw [reports.outcomes, reports'.outcomes, if_pos member, if_pos ((both specifier).1 member),
        outcome?, outcome?, matched.errors_eq, get?]
    · refine matched.artifact_eq compiled.store.inOrder compiled'.store.inOrder shape ?_
      intro image start start' _ _ _ _ source source'
      rw [eq_artifact_of_blobs blank.blobs source, eq_artifact_of_blobs blank.blobs source']
      exact .refl _ _
  · have absent : specifier ∉ touched' := fun there => member ((both specifier).2 there)
    rw [reports.outcomes, reports'.outcomes, if_neg member, if_neg absent]
    exact ⟨rfl, fun isTouched => absurd ((touches specifier).2 isTouched) member⟩

/-- Let everything be compiled from some roots, starting from nothing. Then every specifier that is
touched is settled for good, and what is left of it, record and code, does not depend on the order in which
the roots are given. -/
theorem compileAll_settles (tools : Toolchain) (roots : List Specifier) (workspace : Workspace)
    (blank : workspace.IsBlank) (apart : Unambiguous (· = tools) roots)
    (distinct : DigestsDistinct (Reached (· = tools) roots · false)) :
    let (report, after) := workspace.compileAll tools roots
    (∀ specifier, (∃ outcome, report.outcomes.get? specifier = some outcome) ↔
      Touches tools roots specifier) ∧
    (∀ specifier outcome, report.outcomes.get? specifier = some outcome →
      ∃ record, after.graph.get? specifier = some record ∧ record.state ≠ .pending ∧
        Settlement tools roots after specifier record outcome) ∧
    ∀ others, (∀ specifier, specifier ∈ others ↔ specifier ∈ roots) →
      let (report', after') := workspace.compileAll tools others
      ∀ specifier, report'.outcomes.get? specifier = report.outcomes.get? specifier ∧
        (Touches tools roots specifier →
          after'.graph.get? specifier = after.graph.get? specifier ∧
          (after'.artifact specifier).1 = (after.artifact specifier).1) := by
  have scope := scope_single apart distinct
  have run := compileAll_fresh blank apart distinct roots fun _ => Iff.rfl
  have agrees := compileAll_same blank apart distinct
  generalize workspace.compileAll tools roots = result at run agrees ⊢
  obtain ⟨report, after⟩ := result
  obtain ⟨touched, errors, compiled, reports, touches⟩ := run
  have settles {specifier : Specifier} (member : specifier ∈ touched) :
      ∃ record outcome, after.graph.get? specifier = some record ∧
        report.outcomes.get? specifier = some outcome ∧
        Settlement tools roots after specifier record outcome := by
    obtain ⟨record, outcome, found, told, settlement⟩ := (compiled.fresh blank.get? member).settlement
      blank.blobs compiled.indexed (compiled.sound scope blank.sound rfl).hasTokens
    exact ⟨record, outcome, found, by rw [reports.outcomes, if_pos member, told], settlement⟩
  have told_of {specifier : Specifier} {outcome : Except ModuleError ModuleRecord}
      (told : report.outcomes.get? specifier = some outcome) : specifier ∈ touched := by
    rw [reports.outcomes] at told
    split at told
    · next member => exact member
    · cases told
  refine ⟨fun specifier => ⟨?_, fun isTouched => ?_⟩, fun specifier outcome told => ?_, agrees⟩
  · rintro ⟨outcome, told⟩
    exact (touches specifier).1 (told_of told)
  · obtain ⟨record, outcome, -, told, -⟩ := settles ((touches specifier).2 isTouched)
    exact ⟨outcome, told⟩
  · obtain ⟨record, outcome', found, told', settlement⟩ := settles (told_of told)
    obtain rfl := Option.some.inj (told.symm.trans told')
    refine ⟨record, found, ?_, settlement⟩
    cases settlement with
    | external _ left =>
      obtain ⟨_, rfl⟩ := left
      simp [ModuleRecord.external]
    | errored _ state => simp [state]
    | ready _ state => simp [state]

/-- Two modules that import each other. -/
def ring : Toolchain where
  sources := (OrderedMap.empty.insert ⟨"app:a"⟩ (.source ⟨[], .javaScript⟩)).insert ⟨"app:b"⟩
    (.source ⟨[], .javaScript⟩)
  transpiler := fun specifier code _ => .ok
    { code
      imports := [⟨if specifier = ⟨"app:a"⟩ then "app:b" else "app:a", false, none⟩]
      hasSideEffects := false }

/-- The first module imports the second, and the second the first. -/
def IsRing (tools : Toolchain) : Prop :=
  (tools.resolutions ⟨"app:a"⟩).map Prod.snd = [⟨⟨"app:b"⟩, false⟩] ∧
    (tools.resolutions ⟨"app:b"⟩).map Prod.snd = [⟨⟨"app:a"⟩, false⟩]

theorem isRing_ring : IsRing ring := by
  constructor <;> decide

section Ring

variable {known : Toolchain → Prop} (rings : ∀ tools, known tools → IsRing tools)

include rings

theorem reached_ring {specifier : Specifier} {isExternal : Bool}
    (reached : Reached known [⟨"app:a"⟩] specifier isExternal) :
    isExternal = false ∧ (specifier = ⟨"app:a"⟩ ∨ specifier = ⟨"app:b"⟩) := by
  induction reached with
  | root member => exact ⟨rfl, .inl (List.mem_singleton.1 member)⟩
  | @imported tools importer item used _ member _ ih =>
    obtain ⟨first, second⟩ := rings tools used
    have listed : item.2 ∈ (tools.resolutions importer).map Prod.snd := List.mem_map.2 ⟨item, member, rfl⟩
    rcases ih.2 with rfl | rfl
    · rw [first, List.mem_singleton] at listed
      rw [listed]
      exact ⟨rfl, .inr rfl⟩
    · rw [second, List.mem_singleton] at listed
      rw [listed]
      exact ⟨rfl, .inl rfl⟩

theorem unambiguous_ring : Unambiguous known [⟨"app:a"⟩] := by
  rintro specifier ⟨left, -⟩
  cases (reached_ring rings left).1

set_option maxRecDepth 20000 in
theorem distinct_ring : DigestsDistinct (Reached known [⟨"app:a"⟩] · false) := by
  intro first second one two same
  rcases (reached_ring rings one).2 with rfl | rfl <;> rcases (reached_ring rings two).2 with rfl | rfl
  · rfl
  · exact absurd same (by decide +kernel)
  · exact absurd same (by decide +kernel)
  · rfl

end Ring

/-- The first of two modules that import each other gets ready. -/
theorem compileAll_settles_ring :
    let (report, after) := ({} : Workspace).compileAll ring [⟨"app:a"⟩]
    ∃ record, report.outcomes.get? ⟨"app:a"⟩ = some (.ok record) ∧ record.state = .ready ∧
      after.graph.contentHash? ⟨"app:a"⟩ = some record.contentHash := by
  have rings : ∀ tools, tools = ring → IsRing tools := fun _ same => same ▸ isRing_ring
  obtain ⟨touched, settled, -⟩ :=
    compileAll_settles ring [⟨"app:a"⟩] {} ⟨rfl, rfl, rfl, rfl⟩ (unambiguous_ring rings)
      (distinct_ring rings)
  obtain ⟨outcome, told⟩ := (touched ⟨"app:a"⟩).2 (.inl List.mem_cons_self)
  obtain ⟨record, -, -, settlement⟩ := settled _ _ told
  cases settlement with
  | external reached => cases (reached_ring rings reached).1
  | errored fails =>
    have compiled : (ring.image? ⟨"app:a"⟩).isOk := by decide
    rw [fails] at compiled
    cases compiled
  | ready _ state _ hashed => exact ⟨record, told, state, hashed⟩

end Workspace

end ModuleBuild
