import ModuleBuild.Compile.Pass
import ModuleBuild.Artifact.Manifest
/-!
What a compiler offers: compiling from roots, following a changed source, and starting on a store
that was filled before.
-/

namespace ModuleBuild

/-- Tells a listener that a module reached a new state. -/
structure Settled where
  specifier : Specifier
  /-- Whether code that runs already has to be replaced. -/
  needsReload : Bool
  error? : Option String := none

/-- What followed from a change of one source. -/
structure ChangeOutcome where
  settled : List Settled := []
  report : PassReport := {}
  isRemoved : Bool := false

namespace PassReport

/-- Adds what came of a propagation. Modules that could not be repaired count as failed. -/
def absorb (report : PassReport) (workspace : Workspace) (propagation : Workspace.Propagation) :
    PassReport × Workspace :=
  let missing :=
    propagation.missing.foldl (fun missing found =>
      if found ∈ missing then missing else missing ++ [found]) report.missing
  let updated := propagation.updated.map (·.specifier)
  let changed :=
    updated.foldl (fun changed specifier =>
      if specifier ∈ changed then changed else changed ++ [specifier]) report.changed
  let graph :=
    propagation.failures.foldl (fun graph (specifier, error) =>
      graph.modify specifier (·.failed error.message)) workspace.graph
  let outcomes :=
    propagation.failures.foldl (fun outcomes (specifier, error) =>
      outcomes.insert specifier (.error (.artifact error))) report.outcomes
  ({ report with
      writes := report.writes + propagation.writes
      missing
      changed
      propagated := report.propagated ++ updated
      outcomes }, { workspace with graph })

end PassReport

namespace Workspace

/-- Repairs the importers of a module and adds the result to a report. -/
def repairImporters (workspace : Workspace) (report : PassReport) (changed : Specifier) :
    PassReport × Workspace :=
  let (propagation, workspace) := workspace.propagate changed
  report.absorb workspace propagation

/-- Compiles roots and what they import. If the roots were to be refreshed, the importers of those
whose content hash changed are repaired. -/
def compileAll (workspace : Workspace) (tools : Toolchain) (roots : List Specifier)
    (options : CompileOptions := {}) : PassReport × Workspace :=
  let work := roots.map (·, options.forceRefresh)
  let (pass, touched) := Pass.visitAll tools options [] { workspace } work
  let (report, workspace) := pass.settle touched
  if options.forceRefresh then
    roots.foldl (fun (report, workspace) root =>
      if root ∈ report.changed then repairImporters workspace report root
      else (report, workspace)) (report, workspace)
  else (report, workspace)

def outcomeOf (workspace : Workspace) (report : PassReport) (specifier : Specifier) :
    Except ModuleError ModuleRecord :=
  match report.outcomes.get? specifier, workspace.graph.get? specifier with
  | some outcome, _ => outcome
  | none, some record => .ok record
  | none, none => .error (.load (.notFound specifier))

/-- Takes out a module with its artifacts; artifacts that the store does not give up are left. -/
def remove (workspace : Workspace) (specifier : Specifier) : Workspace :=
  match workspace.graph.erase specifier with
  | (_, none) => workspace
  | (graph, some record) =>
    let workspace := { workspace with graph }
    match workspace.store.removeSidecar specifier with
    | (.error _, store) => { workspace with store }
    | (.ok (), store) =>
      match record.output? with
      | some output => { workspace with store := (store.remove output.key).2 }
      | none => { workspace with store }

/-- What a listener is told about a module after its source changed. -/
def settledState (workspace : Workspace) (specifier : Specifier) (oldHash : String) : Settled :=
  match workspace.graph.get? specifier with
  | some record =>
    { specifier, needsReload := record.contentHash != oldHash, error? := record.error? }
  | none => { specifier, needsReload := true }

/-- Follows a change of one source: compiles it again, or takes it out if it is gone, and repairs
the modules that import it. Sources that no module is known to use are passed over. -/
def sourceChanged (workspace : Workspace) (tools : Toolchain) (specifier : Specifier) :
    ChangeOutcome × Workspace :=
  let previous? := workspace.graph.get? specifier
  if previous?.isNone && (workspace.graph.dependents specifier).isEmpty then ({}, workspace)
  else
    let oldHash := (previous?.map (·.contentHash)).getD ""
    let (report, workspace) := workspace.compileAll tools [specifier] { forceRefresh := true }
    let isGone :=
      match report.outcomes.get? specifier with
      | some (.error error) => error.isNotFound
      | _ => false
    let isRemoved := previous?.isSome && isGone
    let workspace := if isRemoved then workspace.remove specifier else workspace
    let first :=
      if isRemoved then { specifier, needsReload := true, error? := some "module removed" }
      else workspace.settledState specifier oldHash
    let (report, workspace) :=
      if specifier ∈ report.changed then (report, workspace)
      else workspace.repairImporters report specifier
    let others := (report.changed.filter (· ≠ specifier)).map fun changed =>
      { specifier := changed, needsReload := true }
    ({ settled := first :: others, report, isRemoved }, workspace)

/-- Forgets all modules and artifacts, and notes the manifest of what is to come. -/
def reset (workspace : Workspace) (manifest? : Option BuildManifest) :
    Except StoreError Unit × Workspace :=
  match workspace.store.clear with
  | (.error error, store) => (.error error, { graph := {}, store })
  | (.ok (), store) =>
    match manifest? with
    | none => (.ok (), { graph := {}, store })
    | some manifest =>
      let (written, store) := manifest.write store
      (written, { graph := {}, store })

/-- Makes a store ready for use under a manifest; what was stored under another one is dropped. -/
def prepare (workspace : Workspace) (manifest? : Option BuildManifest) :
    Except FatalError ManifestStatus × Workspace :=
  match manifest? with
  | none => (.ok .fresh, workspace)
  | some manifest =>
    let (status?, store) := manifest.check workspace.store
    let workspace := { workspace with store }
    match status? with
    | .error error => (.error (.store error), workspace)
    | .ok .matching => (.ok .matching, workspace)
    | .ok status =>
      let (cleared, workspace) : Except StoreError Unit × Workspace :=
        if status = .mismatch then workspace.reset manifest? else (.ok (), workspace)
      match cleared with
      | .error error => (.error (.store error), workspace)
      | .ok () =>
        let (written, store) := manifest.write workspace.store
        let workspace := { workspace with store }
        match written with
        | .error error => (.error (.store error), workspace)
        | .ok () => (.ok status, workspace)

end Workspace

/-- What an entry of a configuration names. -/
def Resolver.resolveEntry (resolver : Resolver) (entry : String) :
    Except ResolveError Specifier :=
  (resolver.resolve none entry).map (·.specifier)

end ModuleBuild
