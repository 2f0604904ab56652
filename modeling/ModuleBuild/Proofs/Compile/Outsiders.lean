import ModuleBuild.Proofs.Compile.Origins
import ModuleBuild.Proofs.Compile.RecordLaws
import ModuleBuild.Proofs.Compile.StockCalls
/-!
Modules that are left alone, where a compiler began with nothing. A record has no imports until its module is
loaded, and of the modules that are left alone only one that leaves itself alone is ever loaded: what sidecars
say does not count, for a module that has one was loaded before.
-/

namespace ModuleBuild

open ModuleGraph Workspace ArtifactStore Pass

/-- A record is that of a module, and has no imports unless the module was loaded. -/
structure ModuleRecord.IsEmptyAtFirst (record : ModuleRecord) (specifier : Specifier) : Prop where
  named : record.specifier = specifier
  dependencies : record.sourceHash = "" → record.dependencies = []

theorem emptyAtFirstLaw (keepsText : Bool) : RecordLaw (fun _ => True) keepsText
    (fun specifier record => record.IsEmptyAtFirst specifier) (fun _ _ => True) where
  named own := own.named
  awaiting _ := ⟨rfl, fun _ => rfl⟩
  external _ := ⟨rfl, fun _ => rfl⟩
  failed _ own _ := ⟨own.named, fun _ => rfl⟩
  lost _ _ _ := ⟨rfl, fun _ => rfl⟩
  entered _ own := ⟨own.named, own.dependencies⟩
  settled _ _ own _ := ⟨own.named, own.dependencies⟩
  built _ own _ builds := by
    obtain ⟨bytes, source⟩ := builds.source
    refine ⟨builds.specifier.trans own.named, fun unloaded => ?_⟩
    exact absurd (source.symm.trans unloaded) (sourceHash_ne bytes)
  filed _ _ _ _ _ _ _ := trivial

/-- If a module is left alone, it was not loaded, unless it leaves itself alone. -/
def ModuleRecord.IsUnloadedOutside (known : Toolchain → Prop) (specifier : Specifier)
    (record : ModuleRecord) : Prop :=
  record.isExternal = true → (∀ tools, known tools → tools.SparesItself specifier) → record.sourceHash = ""

theorem ModuleRecord.IsUnloadedOutside.of_unspared {known : Toolchain → Prop} {tools : Toolchain}
    (used : known tools) {specifier : Specifier} (unspared : ¬ tools.SparesItself specifier)
    (record : ModuleRecord) : record.IsUnloadedOutside known specifier :=
  fun _ spares => absurd (spares tools used) unspared

namespace ModuleGraph

/-- No module that is left alone was loaded, but those that leave themselves alone. -/
def LeavesUnloaded (known : Toolchain → Prop) (graph : ModuleGraph) : Prop :=
  ∀ specifier record, graph.get? specifier = some record → record.IsUnloadedOutside known specifier

variable {known : Toolchain → Prop} {first second : ModuleGraph} (leaves : first.LeavesUnloaded known)

include leaves

theorem LeavesUnloaded.mentioned {specifier : Specifier}
    (mentioned : Mentioned specifier (first.get? specifier) (second.get? specifier)) :
    ∀ record, second.get? specifier = some record → record.IsUnloadedOutside known specifier := by
  intro record found
  cases mentioned with
  | same kept => exact leaves specifier record (kept ▸ found)
  | created _ there =>
    obtain rfl := Option.some.inj (there.symm.trans found)
    exact fun _ _ => rfl
  | external _ there =>
    obtain rfl := Option.some.inj (there.symm.trans found)
    exact fun _ _ => rfl

theorem LeavesUnloaded.keepsOrigins (keeps : first.KeepsOrigins second) : second.LeavesUnloaded known := by
  intro specifier record found left spares
  have same := keeps specifier
  rw [found, Option.map_some] at same
  obtain ⟨old, found', origin⟩ := Option.map_eq_some_iff.1 same.symm
  obtain ⟨source, external⟩ := Prod.mk.inj origin
  exact source ▸ leaves specifier old found' (external.trans left) spares

end ModuleGraph

section

variable {known : Toolchain → Prop} {tools : Toolchain} (used : known tools)

include used

/-- Nothing can be taken over for a module that was never loaded, so only its own imports can make it one that
is left alone. -/
theorem Pass.leavesUnloaded_compileOrFail {pass : Pass} {record : ModuleRecord}
    (found : pass.workspace.graph.get? record.specifier = some record) (compiled : record.isExternal = false)
    (loaded : ∀ sidecar, pass.workspace.store.sidecars.get? record.specifier = some sidecar →
      record.sourceHash ≠ "") (new : ModuleRecord)
    (there : (pass.compileOrFail tools record.specifier record).1.workspace.graph.get? record.specifier =
      some new) : new.IsUnloadedOutside known record.specifier := by
  have builds := buildsOwn_build tools pass found compiled
  unfold Pass.compileOrFail at there
  generalize pass.build tools record = result at builds there
  obtain ⟨result, after⟩ := result
  cases result with
  | error error =>
    have failed := (get?_modify after.workspace.graph record.specifier record.specifier _).symm.trans there
    rw [if_pos rfl] at failed
    rcases builds.error error rfl with kept | ⟨-, unspared⟩
    · rw [kept, Option.map_some] at failed
      obtain rfl := Option.some.inj failed
      exact fun left => by cases compiled.symm.trans left
    · exact .of_unspared used unspared new
  | ok targets =>
    obtain ⟨new', found', built⟩ := builds.ok targets rfl
    obtain rfl := Option.some.inj (found'.symm.trans there)
    intro left spares
    rcases built.spared left with unspared | ⟨unloaded, again, ⟨sidecar, noted, -⟩, -⟩
    · exact absurd (spares tools used) unspared
    · exact absurd unloaded (loaded sidecar noted)

variable {astray : String → Prop} {base : Workspace}

theorem Pass.TakesTurns.leavesUnloaded {claimed : List Specifier} {pass : Pass}
    (turns : TakesTurns astray base claimed pass) (leaves : pass.workspace.graph.LeavesUnloaded known)
    (options : CompileOptions) (specifier : Specifier) (isForced : Bool) :
    (pass.visit tools options specifier isForced).1.workspace.graph.LeavesUnloaded known := by
  have turn := hasTurn_visit tools options turns.stocks.keyed specifier isForced
  intro other
  by_cases differ : other = specifier
  swap
  · exact leaves.mentioned (turn.others other differ).record
  subst differ
  rcases visit_cases tools options pass other isForced with ⟨idle, -⟩ | ⟨due, found, visit⟩
  · exact leaves.mentioned (turn.idle idle).record
  have keyed := keyed_of_mentioned turns.stocks.keyed fun target => (pass.passesBy_mention other target).record
  rw [visit]
  generalize isRecord : (pass.workspace.graph.get? other).getD (.awaiting other) = record at found
  obtain rfl := keyed _ _ found
  refine leavesUnloaded_compileOrFail used found ?_ fun sidecar noted => ?_
  · have compiled := due.1
    cases there : pass.workspace.graph.get? record.specifier with
    | none => rw [← isRecord, there]; rfl
    | some own =>
      rw [there] at isRecord compiled
      exact isRecord ▸ compiled
  · -- a module with a sidecar was loaded, and its record is there
    obtain ⟨own, there, -, loaded, -⟩ := (turns.stocks.sidecar noted).record
    rw [there] at isRecord
    exact isRecord ▸ loaded

theorem Pass.leavesUnloaded_visitAll (options : CompileOptions) (claimed : List Specifier) (pass : Pass)
    (work : List (Specifier × Bool)) (turns : TakesTurns astray base claimed pass)
    (leaves : pass.workspace.graph.LeavesUnloaded known) :
    (visitAll tools options claimed pass work).1.workspace.graph.LeavesUnloaded known := by
  induction claimed, pass, work using visitAll_induction tools options with
  | done claimed pass =>
    rw [visitAll]
    exact leaves
  | old claimed pass other isForced rest old ih =>
    rw [visitAll_of_mem tools options old]
    exact ih turns leaves
  | turn claimed pass other isForced rest targets fresh _ next ih =>
    rw [next]
    exact ih (turns.visit fresh tools options isForced) (turns.leavesUnloaded used leaves options other isForced)

variable (stocks : Stocks astray .clear base) (leaves : base.graph.LeavesUnloaded known)

include stocks leaves

theorem Workspace.leavesUnloaded_compileAll (roots : List Specifier) (options : CompileOptions) :
    (base.compileAll tools roots options).2.graph.LeavesUnloaded known :=
  (leavesUnloaded_visitAll used options [] _ _ (.start stocks) leaves).keepsOrigins
    (base.extends_compileAll tools roots options).2.1

theorem Workspace.leavesUnloaded_perform (call : Call) :
    (base.perform tools call).graph.LeavesUnloaded known := by
  cases call with
  | compile roots options => exact leavesUnloaded_compileAll used stocks leaves roots options
  | notice specifier =>
    show (base.sourceChanged tools specifier).2.graph.LeavesUnloaded known
    have passed := leavesUnloaded_compileAll used stocks leaves [specifier] { forceRefresh := true }
    rw [sourceChanged_eq]
    split
    · exact leaves
    · generalize base.compileAll tools [specifier] { forceRefresh := true } = result at passed ⊢
      obtain ⟨report, after⟩ := result
      dsimp only
      have middle (isRemoved : Bool) :
          (if isRemoved then after.remove specifier else after).graph.LeavesUnloaded known := by
        cases isRemoved with
        | false => exact passed
        | true =>
          intro other record there
          rw [if_pos rfl, get?_remove] at there
          split at there
          · cases there
          · exact passed other record there
      split
      · exact middle _
      · exact (middle _).keepsOrigins (Workspace.extends_repairImporters _ report specifier).2

end

namespace Workspace.IsBlank

variable {workspace : Workspace} (blank : workspace.IsBlank) {calls : List (Toolchain × Call)}
  (distinct : DigestsDistinct (Met workspace calls))

include blank distinct

theorem leavesUnloaded_performAll (earlier : List (Toolchain × Call)) (before : earlier <+: calls) :
    (workspace.performAll earlier).graph.LeavesUnloaded fun tools => ∃ call ∈ calls, call.1 = tools := by
  induction earlier using List.reverseRecOn with
  | nil =>
    intro specifier record found
    exact absurd found blank.not_found
  | append_singleton earlier call ih =>
    have before' : earlier <+: calls := (List.prefix_append _ _).trans before
    rw [performAll_concat]
    refine leavesUnloaded_perform ⟨call, before.subset (by simp), rfl⟩
      (blank.stocks_performAll distinct earlier before') (ih before') call.2

/-- A module that is left alone has no imports, if it was not loaded or does not leave itself alone. -/
theorem dependencies_performAll {specifier : Specifier} {record : ModuleRecord}
    (found : (workspace.performAll calls).graph.get? specifier = some record)
    (left : record.isExternal = true)
    (spares : record.sourceHash ≠ "" → ∀ call ∈ calls, call.1.SparesItself specifier) :
    record.dependencies = [] := by
  have start : workspace.Obeys workspace.store.keepsText
      (fun specifier record => record.IsEmptyAtFirst specifier) (fun _ _ => True) :=
    ⟨fun _ _ there => absurd there blank.not_found, rfl, fun _ _ _ => trivial⟩
  have empty := ((emptyAtFirstLaw _).performAll start calls fun _ _ => trivial).graph specifier record found
  have unloaded : record.sourceHash = "" := by
    by_contra loaded
    refine loaded (blank.leavesUnloaded_performAll distinct calls List.prefix_rfl specifier record found left ?_)
    rintro tools ⟨call, member, rfl⟩
    exact spares loaded call member
  exact empty.dependencies unloaded

end Workspace.IsBlank

end ModuleBuild
