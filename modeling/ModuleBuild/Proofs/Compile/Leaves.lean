import ModuleBuild.Proofs.Compile.RecordLaws
/-!
Modules that are left alone are leaves of the graph. Their records are made in one way only, but a module that
imports itself as one that is left alone gets such a record while it is built, and what was built is written
into it.
-/

namespace ModuleBuild

open ModuleGraph Workspace ArtifactStore Pass

namespace Workspace

end Workspace

end ModuleBuild
