import ModuleBuild.Proofs.Compile.ServiceBuild
import ModuleBuild.Proofs.Compile.Turns
/-!
The first half of a pass over a serviceable workspace: each module that is claimed has its turn, after which
it failed or can be settled. No noted hash moves meanwhile, but that of a forced module that fails.
-/

namespace ModuleBuild.Pass

open ModuleGraph Workspace ArtifactStore Relation

variable {modules leaf : Specifier → Prop}

def backlog (pass : Pass) (claimed : List Specifier) : Backlog := fun specifier =>
  if specifier ∈ claimed then some (pass.staged.get? specifier) else none

inductive TurnedTo (modules leaf : Specifier → Prop) (pass : Pass) (specifier : Specifier) : Prop
  | failed {error : ModuleError} {record : ModuleRecord} (own : modules specifier)
      (errors : pass.errors.get? specifier = some error)
      (found : pass.workspace.graph.get? specifier = some record) (failed : HasFailed record)
  | served {record : ModuleRecord} (clear : pass.errors.get? specifier = none)
      (found : pass.workspace.graph.get? specifier = some record)
      (serves : Serves modules leaf pass.workspace (pass.staged.get? specifier) specifier record)

/-- A pass that claimed some modules. Noted hashes are as they were, but for those of forced modules that
failed. -/
structure Visiting (modules leaf forced : Specifier → Prop) (base : Workspace) (claimed : List Specifier)
    (pass : Pass) : Prop where
  serviceable : Serviceable modules leaf (pass.backlog claimed) pass.workspace
  setup : SameSetup base.store pass.workspace.store
  unstarted : ∀ specifier, specifier ∉ claimed →
    pass.staged.get? specifier = none ∧ pass.errors.get? specifier = none
  turned : ∀ specifier ∈ claimed, TurnedTo modules leaf pass specifier
  hash : ∀ specifier, (forced specifier → pass.errors.get? specifier = none) →
    pass.workspace.graph.storedHash specifier = base.graph.storedHash specifier

theorem Visiting.start {forced : Specifier → Prop} {base : Workspace}
    (serviceable : Serviceable modules leaf .clear base) :
    Visiting modules leaf forced base [] { workspace := base } where
  serviceable := serviceable.congr fun _ => rfl
  setup := .refl _
  unstarted _ _ := ⟨rfl, rfl⟩
  turned _ member := absurd member List.not_mem_nil
  hash _ _ := rfl

/-- Something is done with one module, as the rest of a pass sees it. -/
structure StepOf (modules leaf : Specifier → Prop) (specifier : Specifier) (before after : Pass) : Prop where
  changes : ChangesOne modules leaf specifier before.workspace after.workspace
  staged : ∀ other, other ≠ specifier → after.staged.get? other = before.staged.get? other
  errors : ∀ other, other ≠ specifier → after.errors.get? other = before.errors.get? other

theorem TurnedTo.later {specifier other : Specifier} {before after : Pass}
    (indexed : before.workspace.graph.Indexed) (step : StepOf modules leaf specifier before after)
    (differ : other ≠ specifier) (turned : TurnedTo modules leaf before other) :
    TurnedTo modules leaf after other := by
  have grows := step.changes.others other differ
  cases turned with
  | failed own errors found failed =>
    exact .failed own ((step.errors other differ).trans errors) (grows.get?_of_get? found) failed
  | served clear found serves =>
    refine .served ((step.errors other differ).trans clear) (grows.get?_of_get? found) ?_
    rw [step.staged other differ]
    exact step.changes.serves serves (indexed.keyed found) differ

structure TurnOf (modules leaf : Specifier → Prop) (specifier : Specifier) (before after : Pass) : Prop
    extends StepOf modules leaf specifier before after where
  contents : SameContents before.workspace.store after.workspace.store

section Turn

variable {forced : Specifier → Prop} {base : Workspace} {claimed : List Specifier} {pass after : Pass}
  {specifier : Specifier} (visiting : Visiting modules leaf forced base claimed pass)

include visiting

theorem Visiting.turn (turn : TurnOf modules leaf specifier pass after)
    (turned : TurnedTo modules leaf after specifier)
    (hash : (forced specifier → after.errors.get? specifier = none) →
      after.workspace.graph.storedHash specifier = base.graph.storedHash specifier) :
    Visiting modules leaf forced base (specifier :: claimed) after where
  serviceable := by
    refine visiting.serviceable.change turn.changes (fun other differ => ?_) (fun record found => ?_)
      fun own sidecar found => ?_
    · simp [backlog, differ, turn.staged other differ]
    · have waits : after.backlog (specifier :: claimed) specifier = some (after.staged.get? specifier) :=
        if_pos List.mem_cons_self
      rw [waits]
      cases turned with
      | failed own _ found' failed =>
        exact .bare own (.inr (Option.some.inj (found'.symm.trans found) ▸ failed))
      | served _ found' serves =>
        exact .serves (Option.some.inj (found'.symm.trans found) ▸ serves) (.inr rfl)
    · rw [turn.contents.sidecars] at found
      exact (visiting.serviceable.sidecar own found).congr fun _ => by rw [turn.contents.blobs]
  setup := visiting.setup.trans turn.changes.setup
  unstarted other absent := by
    obtain ⟨differ, absent'⟩ := not_or.1 (mt List.mem_cons.2 absent)
    rw [turn.staged other differ, turn.errors other differ]
    exact visiting.unstarted other absent'
  turned other member := by
    by_cases same : other = specifier
    · exact same ▸ turned
    · have member' := (List.mem_cons.1 member).resolve_left same
      exact (visiting.turned other member').later visiting.serviceable.indexed turn.toStepOf same
  hash other clear := by
    by_cases same : other = specifier
    · exact same ▸ hash (same ▸ clear)
    · rw [turn.changes.storedHash_other same]
      exact visiting.hash other (turn.errors other same ▸ clear)

theorem Visiting.turnOf_mention (mayClaim : MayClaim modules leaf pass specifier) :
    TurnOf modules leaf specifier pass (pass.setGraph (pass.workspace.graph.mention specifier)) where
  changes :=
    { setup := .refl _
      indexed := visiting.serviceable.indexed.mention specifier
      others := fun _ differ => .inl ((get?_mention _ _ _).trans (if_neg (Ne.symm differ)))
      adds := (addsOnly_mention _ specifier).mono fun _ same => same ▸ mayClaim.imp_right And.left
      sameOwn := fun other _ _ => .refl _ other
      present := fun _ _ => get?_mention_self _ specifier }
  contents := .refl _
  staged _ _ := rfl
  errors _ _ := rfl

end Turn

theorem TurnOf.trans {specifier : Specifier} {first second third : Pass}
    (one : TurnOf modules leaf specifier first second) (two : TurnOf modules leaf specifier second third) :
    TurnOf modules leaf specifier first third where
  changes := one.changes.trans two.changes
  contents := one.contents.trans two.contents
  staged other differ := (two.staged other differ).trans (one.staged other differ)
  errors other differ := (two.errors other differ).trans (one.errors other differ)

theorem TurnOf.mayClaim {specifier other : Specifier} {before after : Pass}
    (turn : TurnOf modules leaf specifier before after) (mayClaim : MayClaim modules leaf before other) :
    MayClaim modules leaf after other :=
  mayClaim.imp_right fun ⟨isLeaf, found⟩ => ⟨isLeaf, turn.changes.present_leaf isLeaf found⟩

structure Compiles (modules leaf : Specifier → Prop) (specifier : Specifier) (before after : Pass)
    (targets : List Specifier) : Prop where
  turn : TurnOf modules leaf specifier before after
  turned : TurnedTo modules leaf after specifier
  mayClaim : ∀ target ∈ targets, MayClaim modules leaf after target
  result : after.errors.get? specifier = none ∧
      after.workspace.graph.storedHash specifier = before.workspace.graph.storedHash specifier ∨
    after.errors.get? specifier ≠ none ∧ targets = [] ∧ after.workspace.graph.storedHash specifier = ""

section CompileOrFail

variable {pass : Pass} {backlog : Backlog} {tools : Toolchain} (scope : Scope (· = tools) modules leaf)
  (serviceable : Serviceable modules leaf backlog pass.workspace) {record : ModuleRecord}
  (found : pass.workspace.graph.get? record.specifier = some record) (own : modules record.specifier)

include scope serviceable found own

theorem compiles_failed {after : Pass} (fails : BuildFails leaf pass after) (error : ModuleError) :
    Compiles modules leaf record.specifier pass (after.fail record.specifier error) [] := by
  have get? (other : Specifier) := get?_modify after.workspace.graph record.specifier other
    (·.failed error.message)
  have failed : (after.fail record.specifier error).workspace.graph.get? record.specifier =
      some (record.failed error.message) := by
    refine (get? record.specifier).trans ((if_pos rfl).trans ?_)
    rw [fails.grows.get?_of_get? found, Option.map_some]
  have noted : (after.fail record.specifier error).errors.get? record.specifier = some error :=
    (OrderedMap.get?_insert _ _ _ _).trans (if_pos rfl)
  refine ⟨⟨⟨?_, fun other _ => congrArg (·.get? other) fails.staged, fun other differ => ?_⟩, fails.keeps.contents⟩,
    .failed own noted failed ((serviceable.record found).hasFailed scope.apart own _), by simp,
    .inr ⟨by simp [noted], rfl, storedHash_of_get? failed⟩⟩
  · exact
      { setup := fails.keeps.contents.setup
        indexed := fails.indexed.modify record.specifier fun _ => rfl
        others := fun other differ =>
          (fails.grows other).trans (.inl ((get? other).trans (if_neg (Ne.symm differ))))
        adds := (fails.adds.mono fun _ => .inr).trans (addsOnly_modify _ _ _)
        sameOwn := fun other _ _ => fails.keeps.contents.sameOwn other
        present := fun _ _ => ⟨_, failed⟩ }
  · refine (OrderedMap.get?_insert _ _ _ _).trans ((if_neg (Ne.symm differ)).trans ?_)
    exact congrArg (·.get? other) fails.errors

theorem compileOrFail_anew (givesBack : GivesBack modules pass.workspace.store)
    (idle : backlog record.specifier = none) (fresh : pass.staged.get? record.specifier = none)
    (clear : pass.errors.get? record.specifier = none) :
    let (after, targets) := pass.compileOrFail tools record.specifier record
    Compiles modules leaf record.specifier pass after targets := by
  have built := build_anew scope serviceable givesBack found own idle fresh
  unfold compileOrFail
  generalize pass.build tools record = outcome at built ⊢
  cases built with
  | fails fails => exact compiles_failed scope serviceable found own fails _
  | builds builds =>
    obtain ⟨new, found', held⟩ := builds.held
    have clear' := (congrArg (·.get? record.specifier) builds.errors).trans clear
    exact ⟨⟨⟨builds.changes, builds.staged, fun other _ => congrArg (·.get? other) builds.errors⟩, builds.contents⟩,
      .served clear' found' (.held own held), builds.targets, .inl ⟨clear', builds.hash⟩⟩

end CompileOrFail

section Visit

variable {forced : Specifier → Prop} {base : Workspace} {claimed : List Specifier} {pass : Pass}
  (visiting : Visiting modules leaf forced base claimed pass) {specifier : Specifier}
  (fresh : specifier ∉ claimed) (mayClaim : MayClaim modules leaf pass specifier)

include visiting mayClaim

theorem Visiting.serviceable_mention :
    Serviceable modules leaf (pass.backlog claimed)
      (pass.setGraph (pass.workspace.graph.mention specifier)).workspace := by
  cases found : pass.workspace.graph.get? specifier with
  | some record =>
    rw [mention_of_get? found]
    exact visiting.serviceable
  | none =>
    refine visiting.serviceable.change (visiting.turnOf_mention mayClaim).changes (fun _ _ => rfl)
      (fun record there => .bare (mayClaim.resolve_right fun left => ?_) (.inl ?_))
      fun own sidecar there => visiting.serviceable.sidecar own there
    · obtain ⟨record, there⟩ := left.2
      cases found.symm.trans there
    · have added := get?_mention pass.workspace.graph specifier specifier
      rw [if_pos rfl, found] at added
      exact Option.some.inj (there.symm.trans added)

include fresh

theorem Visiting.kept {record : ModuleRecord} (found : pass.workspace.graph.get? specifier = some record)
    (done : record.isExternal = true ∨ record.isReady = true) :
    Visiting modules leaf forced base (specifier :: claimed)
      (pass.setGraph (pass.workspace.graph.mention specifier)) := by
  obtain ⟨unstaged, clear⟩ := visiting.unstarted specifier fresh
  have service := visiting.serviceable.record found
  have ready : record.isReady = true := by
    rcases done with isExternal | ready
    · rcases service with ⟨-, rfl | failed⟩ | ⟨⟨-, _, rfl⟩ | ⟨-, held⟩, -⟩
      · cases isExternal
      · cases isExternal.symm.trans failed.compiled
      · rfl
      · cases isExternal.symm.trans held.compiled
    · exact ready
  have idle : pass.backlog claimed specifier = none := if_neg fresh
  have serves := service.serves_of_ready ready
  rw [idle] at serves
  have found' : (pass.workspace.graph.mention specifier).get? specifier = some record := by
    rw [mention_of_get? found, found]
  refine visiting.turn (visiting.turnOf_mention mayClaim) (.served clear found' ?_) fun _ => ?_
  · rw [mention_of_get? found]
    exact unstaged.symm ▸ serves
  · rw [← visiting.hash specifier fun _ => clear]
    exact storedHash_mention _ _ _

variable {tools : Toolchain} (scope : Scope (· = tools) modules leaf)
  (readable : base.store.Readable modules leaf)

include scope readable

theorem Visiting.due {isForced : Bool} (isDue : isForced = true → forced specifier) {record : ModuleRecord}
    (located : record = (pass.workspace.graph.get? specifier).getD (.awaiting specifier))
    (compiledToo : record.isExternal = false) (unready : isForced = false → record.isReady = false) :
    let (after, targets) :=
      (pass.setGraph (pass.workspace.graph.mention specifier)).compileOrFail tools specifier record
    Visiting modules leaf forced base (specifier :: claimed) after ∧
      Compiles modules leaf specifier (pass.setGraph (pass.workspace.graph.mention specifier)) after targets := by
  obtain ⟨unstaged, clear⟩ := visiting.unstarted specifier fresh
  have turn := visiting.turnOf_mention mayClaim
  have serviceable := visiting.serviceable_mention mayClaim
  have idle : pass.backlog claimed specifier = none := if_neg fresh
  have found : (pass.workspace.graph.mention specifier).get? specifier = some record :=
    (get?_mention _ _ _).trans ((if_pos rfl).trans (congrArg some located.symm))
  have own : modules specifier := by
    refine mayClaim.resolve_right fun ⟨isLeaf, _⟩ => ?_
    obtain ⟨_, rfl⟩ := (serviceable.classed scope.apart).isLeftAlone isLeaf found
    cases compiledToo
  obtain rfl := serviceable.indexed.keyed found
  have compiled := compileOrFail_anew scope serviceable found own
    (serviceable.givesBack (readable.congr visiting.setup)) idle unstaged clear
  generalize (pass.setGraph (pass.workspace.graph.mention record.specifier)).compileOrFail tools
    record.specifier record = result at compiled ⊢
  obtain ⟨after, targets⟩ := result
  refine ⟨visiting.turn (turn.trans compiled.turn) compiled.turned fun unfailed => ?_, compiled⟩
  have before := visiting.hash record.specifier fun _ => clear
  rw [← storedHash_mention pass.workspace.graph record.specifier] at before
  rcases compiled.result with ⟨-, same⟩ | ⟨failed, -, blank⟩
  · exact same.trans before
  · -- It was not forced, so there was no hash to lose.
    have notForced : isForced = false := by
      cases isForced with
      | false => rfl
      | true => exact absurd (unfailed (isDue rfl)) failed
    have service := serviceable.record found
    rw [idle] at service
    rw [blank, ← before, storedHash_of_get? found, service.contentHash_of_unready (unready notForced)]

theorem Visiting.visit (options : CompileOptions) {isForced : Bool} (isDue : isForced = true → forced specifier) :
    let (after, targets) := pass.visit tools options specifier isForced
    Visiting modules leaf forced base (specifier :: claimed) after ∧
      (∀ other, MayClaim modules leaf pass other → MayClaim modules leaf after other) ∧
      (∀ target ∈ targets, MayClaim modules leaf after target) ∧
      (after.errors.get? specifier ≠ none → targets = []) := by
  have turn := visiting.turnOf_mention mayClaim
  rw [Pass.visit, claim_eq]
  dsimp only
  split
  · next claim =>
    split at claim
    · next kept =>
      obtain ⟨rfl, -⟩ := Prod.mk.inj claim
      refine ⟨?_, fun other => turn.mayClaim, by simp, fun _ => rfl⟩
      cases found : pass.workspace.graph.get? specifier with
      | none => simp [found, ModuleRecord.awaiting, ModuleRecord.isReady] at kept
      | some record =>
        refine visiting.kept fresh mayClaim found ?_
        rw [found, Option.getD_some, Bool.or_eq_true, Bool.and_eq_true] at kept
        exact kept.imp_right And.left
    · cases (Prod.mk.inj claim).2
  · next record claim =>
    split at claim
    · cases (Prod.mk.inj claim).2
    · next needed =>
      obtain ⟨rfl, same⟩ := Prod.mk.inj claim
      rw [Option.some.inj same, Bool.or_eq_true, not_or, Bool.not_eq_true] at needed
      have compiled := visiting.due fresh mayClaim scope readable isDue (Option.some.inj same).symm needed.1
        fun notForced => by simpa [notForced] using needed.2
      generalize (pass.setGraph (pass.workspace.graph.mention specifier)).compileOrFail tools specifier
        record = result at compiled ⊢
      obtain ⟨after, targets⟩ := result
      obtain ⟨visiting', compiles⟩ := compiled
      refine ⟨visiting', fun other may => (turn.trans compiles.turn).mayClaim may, fun target member => ?_,
        fun failed => ?_⟩
      · split at member
        · cases member
        · exact compiles.mayClaim target member
      · obtain ⟨-, none, -⟩ := compiles.result.resolve_left fun clear => failed clear.1
        rw [none, ite_self]

end Visit

theorem visiting_visitAll {tools : Toolchain} (scope : Scope (· = tools) modules leaf)
    {forced : Specifier → Prop} {base : Workspace} (readable : base.store.Readable modules leaf)
    (options : CompileOptions) (claimed : List Specifier) (pass : Pass) (work : List (Specifier × Bool))
    (visiting : Visiting modules leaf forced base claimed pass) (nodup : claimed.Nodup)
    (mayClaim : ∀ item ∈ work, MayClaim modules leaf pass item.1)
    (isDue : ∀ item ∈ work, item.2 = true → forced item.1) :
    let (after, touched) := visitAll tools options claimed pass work
    Visiting modules leaf forced base touched after ∧ touched.Nodup ∧
      (∀ specifier ∈ claimed, specifier ∈ touched) ∧ ∀ item ∈ work, item.1 ∈ touched := by
  induction claimed, pass, work using visitAll_induction tools options with
  | done claimed pass =>
    rw [visitAll]
    refine ⟨?_, List.nodup_reverse.2 nodup, fun _ => List.mem_reverse.2, by simp⟩
    exact
      { visiting with
        serviceable := visiting.serviceable.congr fun specifier => by simp [backlog]
        unstarted := fun specifier absent => visiting.unstarted specifier (mt List.mem_reverse.2 absent)
        turned := fun specifier member => visiting.turned specifier (List.mem_reverse.1 member) }
  | old claimed pass specifier isForced rest old ih =>
    rw [visitAll_of_mem tools options old]
    obtain ⟨visiting', nodup', earlier, done⟩ := ih visiting nodup
      (fun item member => mayClaim item (List.mem_cons_of_mem _ member))
      fun item member => isDue item (List.mem_cons_of_mem _ member)
    refine ⟨visiting', nodup', earlier, fun item member => ?_⟩
    rcases List.mem_cons.1 member with rfl | later
    · exact earlier _ old
    · exact done item later
  | turn claimed pass specifier isForced rest targets fresh within next ih =>
    have visit := visiting.visit fresh (mayClaim _ List.mem_cons_self) scope readable options
      (isDue _ List.mem_cons_self)
    rw [next]
    generalize pass.visit tools options specifier isForced = result at visit within ih ⊢
    obtain ⟨middle, found⟩ := result
    obtain ⟨visiting', keeps, leads, -⟩ := visit
    -- what the module leads on to is put on the work unforced
    obtain ⟨last, nodup', earlier, done⟩ := ih visiting' (List.nodup_cons.2 ⟨fresh, nodup⟩)
      (fun item member => by
        rcases List.mem_append.1 member with new | old
        · obtain ⟨target, inside, rfl⟩ := List.mem_map.1 new
          exact leads target ((within target).1 inside).2
        · exact keeps _ (mayClaim item (List.mem_cons_of_mem _ old)))
      fun item member given => by
        rcases List.mem_append.1 member with new | old
        · obtain ⟨target, -, rfl⟩ := List.mem_map.1 new
          cases given
        · exact isDue item (List.mem_cons_of_mem _ old) given
    refine ⟨last, nodup', fun other member => earlier other (List.mem_cons_of_mem _ member),
      fun item member => ?_⟩
    rcases List.mem_cons.1 member with rfl | old
    · exact earlier _ List.mem_cons_self
    · exact done item (List.mem_append_right _ old)

end ModuleBuild.Pass
