import ModuleBuild.Compile.Pass
import ModuleBuild.Files.Tree
/-!
Sources of modules from files. A module is loaded from the path in its specifier; queries and
fragments behind the path make modules of their own out of the same file. What a compilation can
come across is therefore known before it starts: its roots, and what the scripts among the files
import.
-/

namespace ModuleBuild

namespace Files

def remoteReason : String := "remote fetching is not supported by the filesystem loader"

def isPath (specifier : Specifier) : Bool := Path.isAbsolute specifier.chars

/-- What a loader finds under a specifier; a path where there is nothing has no entry. -/
def sourceAt? (files : FileTree) (specifier : Specifier) : Option SourceEntry :=
  if specifier.isRemote then some (.fetchFailed remoteReason)
  else if !isPath specifier then none
  else
    match files.read (Specifier.pathPart specifier.chars) with
    | .ok bytes => some (.source { bytes, kind := SourceKind.ofSpecifier specifier })
    | .error .absent => none
    | .error fault => some (.unreadable fault.message)

/-- The specifiers that the imports in some code resolve to. -/
def importsOf (resolver : Resolver) (importer : Specifier) (source : Source) : List Specifier :=
  match source.kind with
  | .javaScript | .typeScript | .jsx | .tsx =>
    match Utf8.decode source.bytes with
    | .error _ => []
    | .ok text =>
      (Imports.scan text).1.filterMap fun found =>
        (resolver.resolve (some importer) found.written).toOption.map (·.specifier)
  | _ => []

def importsAmong (files : FileTree) (resolver : Resolver) : List Specifier :=
  files.files.flatMap fun (path, bytes) =>
    let importer := Specifier.ofChars path
    importsOf resolver importer { bytes, kind := SourceKind.ofSpecifier importer }

/-- The sources that a compilation from some roots can come across. -/
def sources (files : FileTree) (resolver : Resolver) (roots : List Specifier) : SourceTree :=
  .ofList ((roots ++ importsAmong files resolver).filterMap fun specifier =>
    (sourceAt? files specifier).map (specifier, ·))

end Files

end ModuleBuild
