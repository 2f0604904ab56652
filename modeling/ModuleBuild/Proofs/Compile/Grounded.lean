import ModuleBuild.Proofs.Compile.RecordLaws
/-!
Whatever a compiler is asked to do, and whatever its store does, a module that is compiled and ready was
loaded.
-/

namespace ModuleBuild

open ModuleGraph Workspace ArtifactStore

/-- A record is that of a module, which was loaded if it is compiled and ready. -/
def ModuleRecord.IsGrounded (record : ModuleRecord) (specifier : Specifier) : Prop :=
  record.specifier = specifier ∧ (record.isReady → record.isExternal ∨ record.sourceHash ≠ "")

theorem ModuleRecord.IsGrounded.of_unready {record : ModuleRecord} {specifier : Specifier}
    (named : record.specifier = specifier) (unready : record.isReady = false) :
    record.IsGrounded specifier :=
  ⟨named, fun ready => by cases unready.symm.trans ready⟩

/-- Only modules that take part in content hashes, and so were loaded, are made ready. -/
theorem groundedLaw (keepsText : Bool) : RecordLaw (fun _ => True) keepsText
    (fun specifier record => record.IsGrounded specifier) (fun _ _ => True) where
  named own := own.1
  awaiting _ := .of_unready rfl rfl
  external _ := ⟨rfl, fun _ => .inl rfl⟩
  failed _ own _ := .of_unready own.1 rfl
  lost _ _ _ := .of_unready rfl rfl
  entered _ own := own
  settled hash output own folds := ⟨own.1, fun _ => .inr (by simp_all [ModuleRecord.folds, settledRecord])⟩
  built _ own _ builds := .of_unready (builds.specifier.trans own.1)
    (by rw [ModuleRecord.isReady, builds.pending]; rfl)
  filed _ _ _ _ _ _ _ := trivial

namespace ModuleGraph

def Grounded (graph : ModuleGraph) : Prop :=
  ∀ specifier record, graph.get? specifier = some record → record.IsGrounded specifier

theorem Grounded.keyed {graph : ModuleGraph} (grounded : graph.Grounded) : graph.Keyed :=
  (groundedLaw false).keyed grounded

theorem Grounded.updateEntryFlag {graph : ModuleGraph} (grounded : graph.Grounded) (specifier : Specifier) :
    (graph.updateEntryFlag specifier).Grounded :=
  (groundedLaw false).updateEntryFlag grounded specifier

theorem Grounded.obeys {workspace : Workspace} (grounded : workspace.graph.Grounded) :
    workspace.Obeys workspace.store.keepsText (fun specifier record => record.IsGrounded specifier)
      (fun _ _ => True) :=
  ⟨grounded, rfl, fun _ _ _ => trivial⟩

end ModuleGraph

theorem Workspace.Attempts.grounded {workspace : Workspace} {specifier : Specifier}
    {outcome : Except ArtifactError (Option Refreshed) × Workspace}
    (attempts : Attempts workspace specifier outcome) (grounded : workspace.graph.Grounded) :
    outcome.2.graph.Grounded :=
  (groundedLaw _).attempts grounded.obeys attempts

namespace Pass

theorem grounded_visitAll (tools : Toolchain) (options : CompileOptions) (claimed : List Specifier)
    (pass : Pass) (work : List (Specifier × Bool)) (grounded : pass.workspace.graph.Grounded) :
    (visitAll tools options claimed pass work).1.workspace.graph.Grounded :=
  ((groundedLaw _).visitAll trivial grounded.obeys options claimed work).graph

theorem grounded_settleOne {pass : Pass} (grounded : pass.workspace.graph.Grounded) (report : PassReport)
    (specifier : Specifier) : (pass.settleOne report specifier).1.workspace.graph.Grounded :=
  ((groundedLaw _).settleOne grounded.obeys report specifier).graph

end Pass

theorem Workspace.grounded_performAll {workspace : Workspace} (grounded : workspace.graph.Grounded)
    (calls : List (Toolchain × Call)) : (workspace.performAll calls).graph.Grounded :=
  ((groundedLaw _).performAll grounded.obeys calls fun _ _ => trivial).graph

end ModuleBuild
