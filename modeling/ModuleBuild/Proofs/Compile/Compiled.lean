import ModuleBuild.Proofs.Compile.Settling
/-!
A whole pass: what becomes of each module that is claimed, and that everything else is left as it was.
-/

namespace ModuleBuild.Pass

open ModuleGraph Workspace ArtifactStore Relation

variable {known : Toolchain → Prop} {modules leaf forced : Specifier → Prop} {tools : Toolchain}
  {base : Workspace}

theorem explored_start (indexed : base.graph.Indexed) :
    Explored modules leaf forced tools base [] { workspace := base } where
  contents := .refl _
  isSpoiled := rfl
  indexed := indexed
  outside _ _ := ⟨.inl rfl, rfl, rfl⟩
  visited := by simp
  adds := .of_get? fun _ record found => ⟨record, found⟩

theorem WasDue.token {specifier : Specifier} {record : ModuleRecord}
    (was : WasDue modules forced base specifier record) (sound : Sound known modules leaf base) :
    record.sourceHash = "" ∨ HasToken record.sourceHash := by
  rcases was.was with found | ⟨-, rfl⟩
  · exact (sound.record found).token
  · exact .inl rfl

namespace Explored

variable {claimed : List Specifier} {pass : Pass}
  (explored : Explored modules leaf forced tools base claimed pass)
  (sound : Sound known modules leaf base)

include explored sound

theorem token {specifier : Specifier} {record : ModuleRecord}
    (found : pass.workspace.graph.get? specifier = some record) :
    record.sourceHash = "" ∨ HasToken record.sourceHash := by
  by_cases member : specifier ∈ claimed
  · cases explored.visited specifier member with
    | kept kept =>
      obtain rfl := Option.some.inj (kept.found.symm.trans found)
      rcases kept.was with ⟨-, _, rfl⟩ | ⟨-, there, -⟩
      · exact .inl rfl
      · exact (sound.record there).token
    | failed failed =>
      obtain ⟨old, was, found'⟩ := failed.found
      obtain rfl := Option.some.inj (found'.symm.trans found)
      exact was.token sound
    | @built image built =>
      obtain ⟨record', found', -, prepared⟩ := built.found
      obtain rfl := Option.some.inj (found'.symm.trans found)
      exact .inr (prepared.describes.source ▸ image.hasToken_source)
  · rcases (explored.outside specifier member).1 with same | ⟨-, record', found', fresh⟩
    · exact (sound.record (same ▸ found)).token
    · obtain rfl := Option.some.inj (found'.symm.trans found)
      rcases fresh with ⟨-, rfl⟩ | ⟨-, rfl⟩ <;> exact .inl rfl

theorem hasTokens : HasTokens pass.workspace.graph := by
  refine hasTokens_of_sources fun specifier record found folds => ?_
  exact (explored.token sound found).resolve_left (loaded_of_folds folds)

theorem settleable (scope : Scope known modules leaf) (used : known tools) {specifier : Specifier}
    (member : specifier ∈ claimed) : Settleable known modules leaf pass specifier := by
  cases explored.visited specifier member with
  | kept kept =>
    rcases kept.was with ⟨isLeaf, left⟩ | ⟨own, there, ready⟩
    · exact .left isLeaf kept.found left kept.staged kept.errors
    · obtain ⟨-, image, compiled, is⟩ := ((sound.record there).left_or_compiled ready).resolve_left
        fun left => scope.apart own left.1
      have named := sound.indexed.keyed there
      obtain ⟨code, stored⟩ := is.code
      obtain ⟨output, hash, output?, key, -⟩ := stored.has
      refine .due ⟨own, kept.found, compiled, is.describes, fun other same => ?_, .inr ⟨kept.staged,
        code, stored.congr fun _ => by rw [explored.contents.blobs]⟩, ?_, kept.errors⟩
      · obtain rfl := Option.some.inj (output?.symm.trans same)
        exact ⟨hash, named ▸ key⟩
      · intro edge inside isLeaf
        obtain ⟨other, there'⟩ := sound.leaves there (is.describes.edges ▸ inside) isLeaf
        exact explored.present there'
  | failed failed => exact .failed failed.errors
  | built built =>
    obtain ⟨record, found, named, prepared⟩ := built.found
    obtain ⟨old, was⟩ := built.due
    subst named
    refine .due ⟨was.own, found, ⟨tools, used, built.compiled⟩, prepared.describes, prepared.owned, ?_,
      fun edge inside _ => built.targets edge inside, built.errors⟩
    refine prepared.code.imp_right ?_
    rintro ⟨unstaged, code, stored⟩
    exact ⟨unstaged, code, stored.congr fun _ => by rw [explored.contents.blobs]⟩

end Explored

inductive Redone (modules forced : Specifier → Prop) (tools : Toolchain) (base : Workspace)
    (errors : OrderedMap Specifier ModuleError) (final : Workspace) (specifier : Specifier) : Prop
  | failed {error : ModuleError} {old : ModuleRecord}
      (was : WasDue modules forced base specifier old)
      (fails : tools.image? specifier = .error error)
      (found : final.graph.get? specifier = some (old.failed error.message))
      (sameOwn : base.store.SameOwn final.store specifier)
      (errors : errors.get? specifier = some error)
  | built {image : Image} {start : Bytes} {old record : ModuleRecord}
      (was : WasDue modules forced base specifier old)
      (compiled : tools.image? specifier = .ok image)
      (source : start = image.artifact ∨ ∃ key, base.store.blobs.get? key = some start)
      (finished : Finished final specifier image start record)
      (targets : ∀ edge ∈ image.edges, ∃ record, final.graph.get? edge.target = some record)
      (clear : errors.get? specifier = none)
      (sidecar : (∃ key, base.store.blobs.get? key = some start) ∨
        ∃ sidecar, final.store.sidecars.get? specifier = some sidecar)

inductive Outcome (known : Toolchain → Prop) (modules leaf forced : Specifier → Prop)
    (tools : Toolchain) (base : Workspace) (errors : OrderedMap Specifier ModuleError)
    (final : Workspace) (specifier : Specifier) : Prop
  | left {record : ModuleRecord} (isLeaf : leaf specifier)
      (found : final.graph.get? specifier = some record) (left : record.IsLeftAlone specifier)
      (entry : record.flags.isDynamicEntryOnly = final.graph.isDynamicEntry specifier)
      (clear : errors.get? specifier = none)
  | kept {record : ModuleRecord} (own : modules specifier)
      (was : base.graph.get? specifier = some record) (ready : record.isReady)
      (found : final.graph.get? specifier =
        some (record.withEntry (final.graph.isDynamicEntry specifier)))
      (sameOwn : base.store.SameOwn final.store specifier) (clear : errors.get? specifier = none)
  /-- It was ready, and what it imports changed. -/
  | restamped {image : Image} {start : Bytes} {old record : ModuleRecord} (own : modules specifier)
      (was : base.graph.get? specifier = some old) (ready : old.isReady)
      (compiled : KnownImage known specifier image) (revises : old.Revises record)
      (finished : Finished final specifier image start record)
      (clear : errors.get? specifier = none)
  | redone (redone : Redone modules forced tools base errors final specifier)

structure Compiled (known : Toolchain → Prop) (modules leaf forced : Specifier → Prop)
    (tools : Toolchain) (base : Workspace) (options : CompileOptions) (touched : List Specifier)
    (errors : OrderedMap Specifier ModuleError) (final : Workspace) : Prop where
  setup : SameSetup base.store final.store
  isSpoiled : final.isSpoiled = base.isSpoiled
  indexed : final.graph.Indexed
  inside : ∀ specifier ∈ touched,
    Outcome known modules leaf forced tools base errors final specifier
  outside : ∀ specifier, specifier ∉ touched →
    GrowsAt leaf base.graph final.graph specifier ∧ errors.get? specifier = none ∧
    (modules specifier → base.store.SameOwn final.store specifier)
  closed : options.ignoreDependencies = false → ∀ specifier ∈ touched,
    base.graph.get? specifier = none →
    ∀ edge ∈ final.graph.dependencies specifier, edge.target ∈ touched
  adds : AddsOnly (fun other => other ∈ touched ∨
    (∃ importer ∈ touched, StraysFrom modules leaf tools importer other) ∨
    options.ignoreDependencies = true ∧ ∃ importer, Cites modules tools importer other)
    base.graph final.graph
  store : SoundStore known modules final.store
  classed : final.graph.Classed leaf

section Whole

variable {options : CompileOptions} {work : List (Specifier × Bool)} {touched : List Specifier}
  {first last : Pass} {report : PassReport}
  (exploration : Exploration modules leaf forced tools base options [] { workspace := base } work
    touched first)
  (settling : Settling known modules leaf first last touched report)

include exploration settling

theorem redone_of_failed (scope : Scope known modules leaf) {specifier : Specifier}
    (member : specifier ∈ touched) {error : ModuleError}
    (failed : FailedBy modules forced tools base first specifier error) :
    Redone modules forced tools base first.errors last.workspace specifier := by
  obtain ⟨old, was, found⟩ := failed.found
  cases settling.inside specifier member with
  | failed errors found' sameOwn =>
    exact .failed was failed.fails (found'.trans found)
      ((exploration.explored.contents.sameOwn specifier).trans (sameOwn was.own)) failed.errors
  | left isLeaf => exact absurd isLeaf (scope.apart was.own)
  | current due => cases due.errors.symm.trans failed.errors
  | finished due => cases due.errors.symm.trans failed.errors

theorem redone_of_built (scope : Scope known modules leaf) (used : known tools)
    {specifier : Specifier} (member : specifier ∈ touched) {image : Image}
    (built : BuiltTo modules forced tools base first specifier image) :
    Redone modules forced tools base first.errors last.workspace specifier := by
  obtain ⟨old, was⟩ := built.due
  obtain ⟨record, found, -, prepared⟩ := built.found
  cases settling.inside specifier member with
  | failed errors => cases errors.symm.trans built.errors
  | left isLeaf => exact absurd isLeaf (scope.apart was.own)
  | current due ready =>
    obtain rfl := Option.some.inj (found.symm.trans due.found)
    simp [ModuleRecord.isReady, prepared.pending] at ready
  | @finished other start _ result due revises source finished sidecar =>
    obtain rfl := Option.some.inj (found.symm.trans due.found)
    have same : other.source = image.source :=
      due.describes.source.symm.trans prepared.describes.source
    obtain rfl := scope.image_eq used was.own built.compiled due.compiled same
    refine .built was built.compiled ?_ finished (fun edge inside => ?_) built.errors ?_
    · rcases prepared.code with staged | ⟨unstaged, -⟩
      · refine .inl ((source.resolve_right fun none => ?_).symm.trans staged |> Option.some.inj)
        cases staged.symm.trans none.1
      · rcases source with staged | ⟨-, key, stored⟩
        · cases unstaged.symm.trans staged
        · exact .inr ⟨key, exploration.explored.contents.blobs ▸ stored⟩
    · obtain ⟨target, there⟩ := built.targets edge inside
      obtain ⟨new, there', -⟩ := settling.revises.get?_of_get? there
      exact ⟨new, there'⟩
    · rcases source with staged | ⟨-, key, stored⟩
      · exact .inr (sidecar (by rw [staged]; rfl))
      · exact .inl ⟨key, exploration.explored.contents.blobs ▸ stored⟩

theorem outcome_ok (scope : Scope known modules leaf) (used : known tools) {specifier : Specifier}
    (member : specifier ∈ touched) :
    Outcome known modules leaf forced tools base first.errors last.workspace specifier := by
  have explored := exploration.explored
  have entry := settling.revises.isDynamicEntry specifier
  cases explored.visited specifier member with
  | failed failed => exact .redone (redone_of_failed exploration settling scope member failed)
  | built built => exact .redone (redone_of_built exploration settling scope used member built)
  | kept kept =>
    cases settling.inside specifier member with
    | failed errors => cases errors.symm.trans kept.errors
    | left isLeaf found left noted => exact .left isLeaf found left (noted.trans entry.symm) kept.errors
    | @current _ record due ready _ found sameOwn =>
      rcases kept.was with ⟨isLeaf, -⟩ | ⟨own, was, ready⟩
      · exact absurd isLeaf (scope.apart due.own)
      · obtain rfl := Option.some.inj (kept.found.symm.trans due.found)
        exact .kept own was ready (entry ▸ found)
          ((explored.contents.sameOwn specifier).trans sameOwn) kept.errors
    | finished due revises _ finished =>
      rcases kept.was with ⟨isLeaf, -⟩ | ⟨own, was, ready⟩
      · exact absurd isLeaf (scope.apart due.own)
      · obtain rfl := Option.some.inj (kept.found.symm.trans due.found)
        exact .restamped own was ready due.compiled revises finished kept.errors

theorem redone_of_unready (scope : Scope known modules leaf) (used : known tools)
    {specifier : Specifier} (member : specifier ∈ touched) (unready : IsUnready first specifier) :
    leaf specifier ∨ Redone modules forced tools base first.errors last.workspace specifier := by
  cases exploration.explored.visited specifier member with
  | failed failed => exact .inr (redone_of_failed exploration settling scope member failed)
  | built built => exact .inr (redone_of_built exploration settling scope used member built)
  | kept kept =>
    rcases kept.was with ⟨isLeaf, -⟩ | ⟨-, -, ready⟩
    · exact .inl isLeaf
    · cases ready.symm.trans (unready _ kept.found)

theorem compiled_of (scope : Scope known modules leaf) (used : known tools) :
    Compiled known modules leaf forced tools base options touched first.errors last.workspace where
  setup := exploration.explored.contents.setup.trans settling.setup
  isSpoiled := settling.isSpoiled.trans exploration.explored.isSpoiled
  indexed := settling.revises.indexed exploration.explored.indexed
  inside specifier member := outcome_ok exploration settling scope used member
  outside specifier absent := by
    obtain ⟨grows, -, clear⟩ := exploration.explored.outside specifier absent
    obtain ⟨same, sameOwn⟩ := settling.outside specifier absent
    exact ⟨grows.trans (.inl same), clear, fun own =>
      (exploration.explored.contents.sameOwn specifier).trans (sameOwn own)⟩
  closed whole specifier member absent := by
    rw [settling.revises.dependencies]
    cases exploration.explored.visited specifier member with
    | kept kept =>
      rcases kept.was with ⟨-, _, rfl⟩ | ⟨-, was, -⟩
      · rw [dependencies_of_get? kept.found]
        exact fun edge inside => absurd inside List.not_mem_nil
      · cases absent.symm.trans was
    | failed failed =>
      obtain ⟨record, -, found⟩ := failed.found
      rw [dependencies_of_get? found]
      exact fun edge inside => absurd inside List.not_mem_nil
    | @built image built =>
      obtain ⟨record, found, -, prepared⟩ := built.found
      rw [dependencies_of_get? found, prepared.describes.edges]
      exact ((exploration.closed whole specifier member).resolve_left List.not_mem_nil) record image
        found prepared.pending built.compiled
  adds := by
    refine (exploration.explored.adds.mono fun other => ?_).trans (.of_get? fun other record found => ?_)
    · rintro (inside | strays | ⟨importer, member, cites, record, found, pending⟩)
      · exact .inl inside
      · exact .inr (.inl strays)
      · by_cases whole : options.ignoreDependencies = true
        · exact .inr (.inr ⟨whole, importer, cites⟩)
        · have within := (exploration.closed (by simpa using whole) importer member).resolve_left
            List.not_mem_nil
          obtain ⟨own, image, compiled, edge, inside, rfl⟩ := cites
          exact .inl (within record image found pending compiled edge inside)
    · obtain ⟨old, there, -⟩ := settling.revises.of_get? found
      exact ⟨old, there⟩
  store := settling.sound
  classed := settling.classed

end Whole

def outcome? (errors : OrderedMap Specifier ModuleError) (graph : ModuleGraph)
    (specifier : Specifier) : Option (Except ModuleError ModuleRecord) :=
  match errors.get? specifier with
  | some error => some (.error error)
  | none => (graph.get? specifier).map .ok

structure ReportsOn (touched : List Specifier) (errors : OrderedMap Specifier ModuleError)
    (graph : ModuleGraph) (report : PassReport) : Prop where
  outcomes : ∀ specifier, report.outcomes.get? specifier =
    if specifier ∈ touched then outcome? errors graph specifier else none
  changed : ∀ specifier ∈ report.changed, errors.get? specifier = none
  missing : (∀ specifier ∈ touched, ∀ edge ∈ graph.dependencies specifier,
    ∃ record, graph.get? edge.target = some record) → report.missing = []

theorem ReportsOn.not_error {touched : List Specifier} {errors : OrderedMap Specifier ModuleError}
    {graph : ModuleGraph} {report : PassReport} (reports : ReportsOn touched errors graph report)
    (clear : ∀ specifier ∈ touched, errors.get? specifier = none) (specifier : Specifier)
    (error : ModuleError) : report.outcomes.get? specifier ≠ some (.error error) := by
  rw [reports.outcomes]
  split
  · next member =>
    rw [outcome?, clear specifier member]
    cases graph.get? specifier <;> simp
  · nofun

def noteOutcome (pass : Pass) (outcomes : OrderedMap Specifier (Except ModuleError ModuleRecord))
    (specifier : Specifier) : OrderedMap Specifier (Except ModuleError ModuleRecord) :=
  match pass.errors.get? specifier, pass.workspace.graph.get? specifier with
  | some error, _ => outcomes.insert specifier (.error error)
  | none, some record => outcomes.insert specifier (.ok record)
  | none, none => outcomes

theorem get?_noteOutcome (pass : Pass)
    (outcomes : OrderedMap Specifier (Except ModuleError ModuleRecord)) (specifier other : Specifier) :
    (pass.noteOutcome outcomes specifier).get? other =
      if specifier = other then
        (outcome? pass.errors pass.workspace.graph other).or (outcomes.get? other)
      else outcomes.get? other := by
  unfold noteOutcome outcome?
  by_cases same : specifier = other
  · subst same
    cases errors : pass.errors.get? specifier with
    | some error => simp [OrderedMap.get?_insert]
    | none =>
      cases found : pass.workspace.graph.get? specifier with
      | some record => simp [OrderedMap.get?_insert]
      | none => simp
  · split <;> simp [OrderedMap.get?_insert, same]

theorem get?_outcomes (pass : Pass) (touched : List Specifier) (specifier : Specifier) :
    (pass.outcomes touched).get? specifier =
      if specifier ∈ touched then outcome? pass.errors pass.workspace.graph specifier else none := by
  have general (start : OrderedMap Specifier (Except ModuleError ModuleRecord)) :
      (touched.foldl pass.noteOutcome start).get? specifier =
        if specifier ∈ touched then
          (outcome? pass.errors pass.workspace.graph specifier).or (start.get? specifier)
        else start.get? specifier := by
    induction touched generalizing start with
    | nil => rfl
    | cons first rest ih =>
      rw [List.foldl_cons, ih, get?_noteOutcome]
      by_cases same : first = specifier
      · subst same
        cases outcome? pass.errors pass.workspace.graph first <;> simp
      · simp [same, Ne.symm same]
  have noted : pass.outcomes touched = touched.foldl pass.noteOutcome .empty := rfl
  rw [noted, general]
  simp

/-- Work for a pass that can be done: modules to compile, or such as are left alone and have their
records. -/
structure Work (modules leaf forced : Specifier → Prop) (base : Workspace)
    (work : List (Specifier × Bool)) : Prop where
  mayClaim : ∀ item ∈ work,
    modules item.1 ∨ leaf item.1 ∧ ∃ record, base.graph.get? item.1 = some record
  forced : ∀ item ∈ work, item.2 = true → forced item.1

theorem Work.of_roots {roots : List Specifier} (rooted : ∀ root ∈ roots, modules root) {refresh : Bool}
    (isForced : ∀ root ∈ roots, refresh = true → forced root) :
    Work modules leaf forced base (roots.map (·, refresh)) := by
  refine ⟨fun item listed => ?_, fun item listed => ?_⟩
  · obtain ⟨root, member, rfl⟩ := List.mem_map.1 listed
    exact .inl (rooted root member)
  · obtain ⟨root, member, rfl⟩ := List.mem_map.1 listed
    exact isForced root member

theorem Work.single {specifier : Specifier}
    (able : modules specifier ∨ leaf specifier ∧ ∃ record, base.graph.get? specifier = some record) :
    Work modules leaf (· = specifier) base [(specifier, true)] := by
  refine ⟨fun item listed => ?_, fun item listed _ => ?_⟩
  · exact List.mem_singleton.1 listed ▸ able
  · rw [List.mem_singleton.1 listed]

/-- What a pass touches: its work, and nothing else but imports. -/
structure Reaches (modules : Specifier → Prop) (tools : Toolchain) (base : Workspace)
    (options : CompileOptions) (work : List (Specifier × Bool)) (touched : List Specifier) : Prop where
  done : ∀ item ∈ work, item.1 ∈ touched
  cited : ∀ specifier ∈ touched, ∃ item ∈ work, ReflTransGen (Cites modules tools) item.1 specifier
  /-- What is compiled anew leads on to its imports. -/
  onward : options.ignoreDependencies = false → ∀ importer ∈ touched,
    ((∀ record, base.graph.get? importer = some record → record.isReady = false) ∨
      ∃ rest, work = (importer, true) :: rest) →
    ∀ target, Cites modules tools importer target → target ∈ touched

theorem Exploration.reaches {options : CompileOptions} {work : List (Specifier × Bool)}
    {touched : List Specifier} {first : Pass} (scope : Scope known modules leaf)
    (exploration : Exploration modules leaf forced tools base options [] { workspace := base } work
      touched first) : Reaches modules tools base options work touched where
  done := exploration.done
  cited specifier member := (exploration.cited specifier member).resolve_left List.not_mem_nil
  onward := by
    rintro whole importer member due target ⟨own, image, is, edge, inside, rfl⟩
    cases exploration.explored.visited importer member with
    | kept kept =>
      rcases kept.was with ⟨isLeaf, -⟩ | ⟨-, was, ready⟩
      · exact absurd isLeaf (scope.apart own)
      · rcases due with unready | ⟨rest, first⟩
        · cases ready.symm.trans (unready _ was)
        · have anew := exploration.anew importer rest first List.not_mem_nil
          cases ready.symm.trans (anew.resolve_left (scope.apart own) _ kept.found)
    | failed failed => cases is.symm.trans failed.fails
    | built built =>
      obtain ⟨record, found, -, prepared⟩ := built.found
      have within := (exploration.closed whole importer member).resolve_left List.not_mem_nil
      exact within record image found prepared.pending is edge inside

/-- What a pass makes of a workspace, and what it reports. -/
theorem compiled_ok (scope : Scope known modules leaf) (sound : Sound known modules leaf base)
    (givesBack : GivesBack modules base.store) (used : known tools) (options : CompileOptions)
    {work : List (Specifier × Bool)} (able : Work modules leaf forced base work) :
    let (pass, touched) := visitAll tools options [] { workspace := base } work
    let (report, final) := pass.settle touched
    Compiled known modules leaf forced tools base options touched pass.errors final ∧
      Reaches modules tools base options work touched ∧
      ReportsOn touched pass.errors final.graph report ∧
      ∀ specifier rest, work = (specifier, true) :: rest →
        leaf specifier ∨ Redone modules forced tools base pass.errors final specifier := by
  have exploration := explored_visitAll sound scope givesBack used options [] { workspace := base } work
    (explored_start sound.indexed) List.nodup_nil able.mayClaim able.forced
  generalize visitAll tools options [] { workspace := base } work = result at exploration
  obtain ⟨first, touched⟩ := result
  have explored := exploration.explored
  have settling := settling_settleAll scope explored.indexed (explored.hasTokens sound) touched
    (fun specifier member => explored.settleable sound scope used member) exploration.nodup first {} []
    (fun _ _ => List.not_mem_nil)
    (.start (sound.store.congr explored.contents) (explored.classed scope (sound.classed scope)))
  simp only [settle_eq]
  generalize settleAll first {} touched = result at settling
  obtain ⟨last, report⟩ := result
  have settling' : Settling known modules leaf first last touched report :=
    { settling with
      outside := fun specifier absent => settling.outside specifier (by simpa using absent)
      inside := fun specifier member => settling.inside specifier (by simpa using member)
      missing := fun present => settling.missing (by simpa using present) }
  refine ⟨compiled_of exploration settling' scope used, exploration.reaches scope,
    ⟨fun specifier => ?_, fun specifier member => settling'.changed specifier member,
      fun present => ?_⟩, fun specifier rest same => ?_⟩
  · rw [← settling'.errors]
    exact get?_outcomes last touched specifier
  · refine settling'.missing fun specifier member edge inside => ?_
    rw [← settling'.revises.dependencies] at inside
    obtain ⟨record, found⟩ := present specifier member edge inside
    obtain ⟨old, there, -⟩ := settling'.revises.of_get? found
    exact ⟨old, there⟩
  · have member : specifier ∈ touched := exploration.done (specifier, true) (same ▸ List.mem_cons_self)
    rcases exploration.anew specifier rest same List.not_mem_nil with isLeaf | unready
    · exact .inl isLeaf
    · exact redone_of_unready exploration settling' scope used member unready

theorem WasDue.hasFailed {specifier : Specifier} {record : ModuleRecord}
    (was : WasDue modules forced base specifier record) (scope : Scope known modules leaf)
    (sound : Sound known modules leaf base) (reason : String) : HasFailed (record.failed reason) := by
  refine ⟨rfl, rfl, rfl, rfl, ?_, was.token sound⟩
  rcases was.was with found | ⟨-, rfl⟩
  · have compiled := (sound.classed scope).isExternal_eq_false (scope.apart was.own) found
    exact compiled
  · rfl

theorem Redone.get? {errors : OrderedMap Specifier ModuleError} {final : Workspace}
    {specifier : Specifier} (redone : Redone modules forced tools base errors final specifier) :
    ∃ record, final.graph.get? specifier = some record := by
  cases redone with
  | failed _ _ found => exact ⟨_, found⟩
  | built _ _ _ finished => exact ⟨_, finished.found⟩

theorem Redone.consistent {errors : OrderedMap Specifier ModuleError} {final : Workspace}
    {specifier : Specifier} (redone : Redone modules forced tools base errors final specifier)
    {record : ModuleRecord} (found : final.graph.get? specifier = some record)
    (ready : record.isReady) : Consistent final.graph final.store record := by
  cases redone with
  | failed _ _ found' =>
    obtain rfl := Option.some.inj (found.symm.trans found')
    cases ready
  | built _ _ _ finished =>
    obtain rfl := Option.some.inj (found.symm.trans finished.found)
    exact finished.consistent

namespace Compiled

variable {options : CompileOptions} {touched : List Specifier}
  {errors : OrderedMap Specifier ModuleError} {final : Workspace}
  (compiled : Compiled known modules leaf forced tools base options touched errors final)

include compiled

theorem get?_of_mem {specifier : Specifier} (member : specifier ∈ touched) :
    ∃ record, final.graph.get? specifier = some record := by
  cases compiled.inside specifier member with
  | left _ found => exact ⟨_, found⟩
  | kept _ _ _ found => exact ⟨_, found⟩
  | restamped _ _ _ _ _ finished => exact ⟨_, finished.found⟩
  | redone redone => exact redone.get?

theorem present {specifier : Specifier} {record : ModuleRecord}
    (found : base.graph.get? specifier = some record) :
    ∃ record, final.graph.get? specifier = some record := by
  by_cases member : specifier ∈ touched
  · exact compiled.get?_of_mem member
  · exact ⟨record, (compiled.outside specifier member).1.get?_of_get? found⟩

/-- An import of a module was there before the pass, or leads to a module that has a record. -/
theorem edge_or_target {specifier : Specifier} {record : ModuleRecord}
    (found : final.graph.get? specifier = some record) {edge : DependencyEdge}
    (inside : edge ∈ record.dependencies) :
    (∃ old, base.graph.get? specifier = some old ∧ edge ∈ old.dependencies) ∨
      ∃ target, final.graph.get? edge.target = some target := by
  by_cases member : specifier ∈ touched
  · cases compiled.inside specifier member with
    | left _ found' left =>
      obtain rfl := Option.some.inj (found.symm.trans found')
      obtain ⟨_, rfl⟩ := left
      cases inside
    | kept _ was _ found' =>
      obtain rfl := Option.some.inj (found.symm.trans found')
      exact .inl ⟨_, was, inside⟩
    | restamped _ was _ _ revises finished =>
      obtain rfl := Option.some.inj (found.symm.trans finished.found)
      exact .inl ⟨_, was, revises.dependencies ▸ inside⟩
    | redone redone =>
      cases redone with
      | failed _ _ found' =>
        obtain rfl := Option.some.inj (found.symm.trans found')
        cases inside
      | built _ _ _ finished targets =>
        obtain rfl := Option.some.inj (found.symm.trans finished.found)
        exact .inr (targets edge (finished.describes.edges ▸ inside))
  · rcases (compiled.outside specifier member).1 with same | ⟨-, record', found', fresh⟩
    · exact .inl ⟨record, same ▸ found, inside⟩
    · obtain rfl := Option.some.inj (found.symm.trans found')
      rw [fresh.dependencies] at inside
      cases inside

/-- A ready module that takes part in content hashes is consistent after the pass, or it was there before and
only its note as an entry may differ. -/
theorem consistent_or_kept {specifier : Specifier} {record : ModuleRecord}
    (found : final.graph.get? specifier = some record) (ready : record.isReady)
    (folds : record.folds) :
    Consistent final.graph final.store record ∨
      ∃ old isEntry, base.graph.get? specifier = some old ∧ record = old.withEntry isEntry ∧
        (modules specifier → base.store.SameOwn final.store specifier) := by
  by_cases member : specifier ∈ touched
  · cases compiled.inside specifier member with
    | left _ found' left =>
      obtain rfl := Option.some.inj (found.symm.trans found')
      obtain ⟨_, rfl⟩ := left
      cases folds
    | kept _ was _ found' sameOwn =>
      exact .inr ⟨_, _, was, Option.some.inj (found.symm.trans found'), fun _ => sameOwn⟩
    | restamped _ _ _ _ _ finished =>
      obtain rfl := Option.some.inj (found.symm.trans finished.found)
      exact .inl finished.consistent
    | redone redone => exact .inl (redone.consistent found ready)
  · obtain ⟨same | ⟨-, record', found', fresh⟩, -, sameOwn⟩ := compiled.outside specifier member
    · exact .inr ⟨record, record.flags.isDynamicEntryOnly, same ▸ found, rfl, sameOwn⟩
    · obtain rfl := Option.some.inj (found.symm.trans found')
      cases folds.symm.trans fresh.folds

section Stays

variable (scope : Scope known modules leaf) (start : Sound known modules leaf base)
  {specifier : Specifier} {record : ModuleRecord} (found : final.graph.get? specifier = some record)

include scope start found

theorem soundRecord (used : known tools) :
    SoundRecord known modules leaf final.store specifier record := by
  by_cases member : specifier ∈ touched
  · cases compiled.inside specifier member with
    | left isLeaf found' left =>
      obtain rfl := Option.some.inj (found.symm.trans found')
      exact .left isLeaf left
    | @kept old own was ready found' sameOwn =>
      obtain rfl := Option.some.inj (found.symm.trans found')
      have sound := SoundRecord.congr (start.record was) (start.indexed.keyed was) fun _ => sameOwn
      obtain ⟨-, image, known, is⟩ := (sound.left_or_compiled ready).resolve_left
        fun left => scope.apart own left.1
      exact .compiled own known (is.withEntry _)
    | restamped own _ _ known _ finished =>
      obtain rfl := Option.some.inj (found.symm.trans finished.found)
      exact .compiled own known finished.isCompiled
    | redone redone =>
      cases redone with
      | failed was _ found' =>
        obtain rfl := Option.some.inj (found.symm.trans found')
        exact .failed was.own (was.hasFailed scope start _)
      | built was known _ finished =>
        obtain rfl := Option.some.inj (found.symm.trans finished.found)
        exact .compiled was.own ⟨tools, used, known⟩ finished.isCompiled
  · obtain ⟨grows, -, sameOwn⟩ := compiled.outside specifier member
    rcases grows with same | ⟨absent, record', found', fresh⟩
    · have there := same ▸ found
      exact SoundRecord.congr (start.record there) (start.indexed.keyed there) sameOwn
    · obtain rfl := Option.some.inj (found.symm.trans found')
      rcases fresh with ⟨isLeaf, rfl⟩ | ⟨notLeaf, blank⟩
      · exact .left isLeaf ⟨false, rfl⟩
      -- a new record of no leaf was added for an import of a module that has an image
      · have added := (compiled.adds specifier record absent found).resolve_left member
        rcases added with ⟨_, _, _, isLeaf, _⟩ | ⟨-, importer, own, image, is, edge, inside, rfl⟩
        · exact absurd isLeaf notLeaf
        · have target := scope.target own ⟨tools, used, is⟩ inside
          exact .awaiting (target.resolve_right fun isLeaf => notLeaf isLeaf.1) blank

omit scope in
theorem leaves {edge : DependencyEdge} (inside : edge ∈ record.dependencies) (isLeaf : leaf edge.target) :
    ∃ record, final.graph.get? edge.target = some record := by
  rcases compiled.edge_or_target found inside with ⟨old, was, inside'⟩ | linked
  · obtain ⟨target, there⟩ := start.leaves was inside' isLeaf
    exact compiled.present there
  · exact linked

end Stays

theorem sound (scope : Scope known modules leaf) (start : Sound known modules leaf base)
    (used : known tools) : Sound known modules leaf final where
  store := compiled.store
  indexed := compiled.indexed
  record found := compiled.soundRecord scope start found used
  leaves found := compiled.leaves start found

end Compiled

end ModuleBuild.Pass
