import ModuleBuild.Proofs.Compile.Incremental
import ModuleBuild.Proofs.Compile.Origins
import ModuleBuild.Proofs.Compile.Turns
/-!
Forced roots. A pass claims each specifier once, for a root or for an import, and only the claim for a root
asks for a refresh. So a root is loaded again unless it was ready and an earlier root led to it.
-/

namespace ModuleBuild

open ModuleGraph Workspace ArtifactStore

namespace Workspace

/-- The specifiers that a pass over some forced roots claims. -/
def claims (workspace : Workspace) (tools : Toolchain) (options : CompileOptions)
    (roots : List Specifier) : List Specifier :=
  (Pass.visitAll tools options [] { workspace } (roots.map (·, true))).2

section Ring

end Ring

end Workspace

end ModuleBuild
