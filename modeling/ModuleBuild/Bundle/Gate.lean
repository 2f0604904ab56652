import ModuleBuild.Bundle.Analysis
import ModuleBuild.Compile.Error
import ModuleBuild.Graph.ContentHash
/-!
The gate before a bundle: everything that can be reached from an entry, by imports of either kind,
has to be compiled and up to date.
-/

namespace ModuleBuild.Bundle

/-- What was met from some modules, in order, with the records. Later modules are walked only where
earlier ones did not lead. -/
def reachedFrom (graph : ModuleGraph) (modules : List Specifier) :
    List (Specifier × Option ModuleRecord) :=
  let visitor : Visitor (List (Specifier × Option ModuleRecord)) :=
    { enter := fun specifier record? _ found => ((specifier, record?) :: found, .continue) }
  let (_, found) :=
    modules.foldl (fun (traced, found) specifier =>
      let result := graph.walk specifier .all traced visitor found
      (result.traced, result.state)) ([], [])
  found.reverse

/-- Why a module that was reached cannot be bundled. A module without a record is the fault of its
importer, unless an entry names it. -/
def fault? (graph : ModuleGraph) (modules : List Specifier) (specifier : Specifier)
    (record? : Option ModuleRecord) : Option FatalError :=
  match record? with
  | none =>
    if specifier ∈ modules then
      some (.erroredModule specifier "entry module has not been compiled")
    else none
  | some record =>
    if record.isExternal then none
    else
      match record.state with
      | .errored reason => some (.erroredModule specifier reason)
      | .pending => some (.erroredModule specifier "module has not been compiled")
      | .ready =>
        if !graph.isCurrent record then
          some (.erroredModule specifier "content hash is stale, its importers were not repaired")
        else
          (record.dependencies.find? fun edge => !graph.contains edge.target).map fun edge =>
            .missingDependency ⟨specifier, edge.target⟩

/-- Passes if all that entries reach can be bundled, and else gives the first fault. -/
def check (graph : ModuleGraph) (entries : List EntryPoint) : Except FatalError Unit :=
  let modules := entries.flatMap (·.modules)
  match (reachedFrom graph modules).findSome? fun (specifier, record?) =>
      fault? graph modules specifier record? with
  | some fault => .error fault
  | none => .ok ()

end ModuleBuild.Bundle
