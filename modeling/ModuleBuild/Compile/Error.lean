import ModuleBuild.Artifact.Store
import ModuleBuild.Compile.Transpile
import ModuleBuild.Resolver
/-!
What can go wrong with one module, and what makes a whole build unusable.
-/

namespace ModuleBuild

inductive LoadError where
  | notFound (specifier : Specifier)
  | fetchFailed (specifier : Specifier) (reason : String)
  | unreadable (specifier : Specifier) (reason : String)
deriving DecidableEq

def LoadError.message : LoadError → String
  | notFound specifier => s!"module not found: {specifier}"
  | fetchFailed specifier reason => s!"failed to fetch {specifier}: {reason}"
  | unreadable specifier reason => s!"failed to read {specifier}: {reason}"

inductive ArtifactError where
  | store (error : StoreError)
  /-- A record refers to output that the store does not have. -/
  | missing (specifier : Specifier) (key : String)
  | slotOutOfRange (specifier : Specifier) (fault : SlotFault)
  /-- The hash of an import cannot be cut into a token. -/
  | withoutToken (specifier dependency : Specifier)
deriving DecidableEq

def ArtifactError.message : ArtifactError → String
  | store error => error.message
  | missing specifier key =>
    s!"compiled output of {specifier} is missing from the store (key {key})"
  | slotOutOfRange specifier fault =>
    s!"hash slot {fault.slot.offset}..{fault.slot.stop} is out of range for {specifier} ({fault.size} bytes)"
  | withoutToken specifier dependency =>
    s!"the hash of {dependency}, imported from {specifier}, has no token"

/-- Why one module could not be compiled. -/
inductive ModuleError where
  | resolve (error : ResolveError)
  | load (error : LoadError)
  | transpile (specifier : Specifier) (error : TranspileError)
  | unsupportedKind (specifier : Specifier) (kind : SourceKind)
  | artifact (error : ArtifactError)
deriving DecidableEq

def ModuleError.message : ModuleError → String
  | resolve error => error.message
  | load error => error.message
  | transpile specifier error => s!"{specifier}: {error.message}"
  | unsupportedKind specifier kind =>
    s!"{specifier}: no transpiler for source kind {kind.description}"
  | artifact error => error.message

def ModuleError.isNotFound : ModuleError → Bool
  | load (.notFound _) => true
  | _ => false

/-- A module imports another that has no record. -/
structure MissingDependency where
  importer : Specifier
  dependency : Specifier
deriving DecidableEq

def MissingDependency.message (missing : MissingDependency) : String :=
  s!"{missing.importer} imports {missing.dependency}, which is not in the module graph"

/-- Why a build as a whole cannot be used. -/
inductive FatalError where
  | erroredModule (specifier : Specifier) (reason : String)
  | missingDependency (missing : MissingDependency)
  | store (error : StoreError)
  /-- A file of the bundle could not be written. -/
  | bundleWrite (path reason : String)
deriving DecidableEq

def FatalError.message : FatalError → String
  | erroredModule specifier reason => s!"module {specifier} failed to compile: {reason}"
  | missingDependency missing => missing.message
  | store error => s!"artifact store: {error.message}"
  | bundleWrite path reason => s!"failed to write bundle {path}: {reason}"

end ModuleBuild
