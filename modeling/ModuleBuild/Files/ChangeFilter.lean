import ModuleBuild.Path
import ModuleBuild.Specifier.SourceKind
/-!
Which changes of files matter to a project that is followed.
-/

namespace ModuleBuild

inductive FileChange where
  | source (path : List Char)
  | settings (path : List Char)
deriving DecidableEq

structure ChangeFilter where
  root : List Char
  settingsFile : List Char
  /-- Parts of paths whose changes do not count. -/
  ignored : List String := []
  /-- Directories that a build writes to. -/
  outputs : List (List Char) := []

namespace ChangeFilter

/-- Whether a path is in the project and not among what a build writes or what is ignored. -/
def covers (filter : ChangeFilter) (path : List Char) : Bool :=
  Path.isWithin filter.root path && !filter.outputs.any (Path.isWithin · path) &&
    !filter.ignored.any fun part => Text.occursIn part.toList path

def isSource (path : List Char) : Bool :=
  (Path.extension? path).any fun extension =>
    (SourceKind.ofExtension (String.ofList extension)).isSupported

/-- What a change of a path means: the settings or a source changed, or nothing of interest. -/
def classify? (filter : ChangeFilter) (path : List Char) : Option FileChange :=
  if Path.components path = Path.components filter.settingsFile then some (.settings path)
  else if filter.covers path && isSource path then some (.source path)
  else none

end ChangeFilter

end ModuleBuild
