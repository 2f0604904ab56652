import ModuleBuild.Artifact.Archive
import ModuleBuild.Bundle.Chunk
import ModuleBuild.Compile.Queue
import ModuleBuild.Config.Discovery
import ModuleBuild.Project.Sources
/-!
A project: a configuration, the artifact store in its cache directory, and the modules that its
entries resolve to. What a project keeps is in the files around it, so every operation gives the
files as it leaves them, also where it fails.
-/

namespace ModuleBuild

inductive ProjectError where
  | config (error : Config.ConfigError)
  | pattern (error : PatternError)
  | resolve (error : ResolveError)
  /-- The artifact store cannot be opened. -/
  | store (error : StoreError)
  | fatal (error : FatalError)
  | bundle (error : Bundle.BundleError)
  /-- Some modules could not be compiled. -/
  | compileFailed (report : PassReport)
  | file (fault : FileFault)

namespace ProjectError

def message : ProjectError → String
  | config error => s!"Configuration error: {error.message}"
  | pattern error => s!"Cannot resolve entry: '{error.source}' is not a pattern"
  | resolve error => s!"Cannot resolve entry: {error.message}"
  | store error => s!"Artifact cache error: {error.message}"
  | fatal error => s!"Build failed: {error.message}"
  | bundle error => s!"Bundle failed: {error.message}"
  | compileFailed report => s!"{report.errors.length} module(s) failed to compile"
  | file fault => s!"I/O error: {fault.message}"

/-- What can be done about an error that has to do with the build as a whole. -/
def fatalHint? : FatalError → Option String
  | .missingDependency _ => some "A module imports a file that no longer exists"
  | .bundleWrite _ _ => some "Check output directory permissions or pass a different --out-dir"
  | _ => none

def storeHint : String :=
  "Delete the cache directory (.kiln/cache by default) to start over"

def hint? : ProjectError → Option String
  | config .withoutEntries => some "Add [[entries]] to kiln.toml or pass --entry name=path"
  | config (.notFound _) =>
    some "Create kiln.toml in the project root or pass --config <file>"
  | config .malformed | config .cutCharacter => some "Check kiln.toml syntax and field types"
  | config (.entryNotFound _) => some "Entry paths are relative to the project root"
  | config (.invalid _) => none
  | pattern _ | resolve _ => some "Bare specifiers need an import_map alias in kiln.toml"
  | store _ | fatal (.store _) => some storeHint
  | fatal error | bundle (.fatal error) => fatalHint? error
  | bundle _ => none
  | compileFailed _ => some "Fix the errors listed above and run again"
  | file _ => none

end ProjectError

structure Project where
  config : Config
  resolver : Resolver
  entries : List Bundle.EntryPoint
  workspace : Workspace

namespace Project

def storeFile : List Char := "kiln.redb".toList

def storePath (config : Config) : List Char := Path.join config.cachePath storeFile

/-- The store in a cache directory; a file that is absent or empty stands for an empty store. -/
def readStore (config : Config) (files : FileTree) : Except StoreError ArtifactStore :=
  match files.read (storePath config) with
  | .error .absent | .ok [] => .ok { keepsText := true }
  | .error fault => .error (.unreachable fault.message)
  | .ok bytes =>
    match ArtifactStore.ofArchive? bytes with
    | some store => .ok store
    | none => .error (.database "not a database file")

def writeStore (config : Config) (store : ArtifactStore) (files : FileTree) :
    Except StoreError FileTree :=
  (files.write (storePath config) store.archive).mapError fun fault => .unreachable fault.message

/-- Opens the store of a configuration, and makes its directory. -/
def openStore (config : Config) (files : FileTree) : Except StoreError ArtifactStore × FileTree :=
  match files.makeDirectory config.cachePath with
  | (.error fault, files) => (.error (.unreachable fault.message), files)
  | (.ok (), files) => (readStore config files, files)

def resolveEntries (config : Config) (resolver : Resolver) :
    Except ResolveError (List Bundle.EntryPoint) :=
  config.entries.mapM fun entry => do
    let modules ← entry.modules.mapM fun written =>
      resolver.resolveEntry (config.entrySpecifier written)
    return { name := entry.name, modules, isPreloaded := entry.isPreloaded }

/-- Opens the store, drops what another configuration left in it, and resolves the entries. -/
def openAt (config : Config) (files : FileTree) : Except ProjectError Project × FileTree :=
  match config.resolver with
  | .error error => (.error (.pattern error), files)
  | .ok resolver =>
    match openStore config files with
    | (.error error, files) => (.error (.store error), files)
    | (.ok store, files) =>
      let (prepared, workspace) := ({ store } : Workspace).prepare (some config.manifest)
      match writeStore config workspace.store files, prepared with
      | .error error, _ => (.error (.store error), files)
      | .ok files, .error error => (.error (.fatal error), files)
      | .ok files, .ok _ =>
        match resolveEntries config resolver with
        | .error error => (.error (.resolve error), files)
        | .ok entries => (.ok { config, resolver, entries, workspace }, files)

/-- All modules of entries, each once. -/
def roots (project : Project) : List Specifier :=
  (project.entries.flatMap (·.modules)).foldl (fun roots specifier =>
    if specifier ∈ roots then roots else roots ++ [specifier]) []

def tools (project : Project) (files : FileTree) : Toolchain :=
  { sources := Files.sources files project.resolver project.roots, resolver := project.resolver }

/-- Writes the store of a project; where that cannot be done, files stay as they are. -/
def save (project : Project) (files : FileTree) : FileTree :=
  (writeStore project.config project.workspace.store files).toOption.getD files

/-- Compiles all entries with what they import. Sources from files have to be waited for. -/
def compile (project : Project) (files : FileTree) : PassReport × Project × FileTree :=
  let (report, workspace) :=
    project.workspace.compileInTurn (project.tools files) Files.isPath project.roots
  let project := { project with workspace }
  (report, project, project.save files)

def chunkMetadata (project : Project) : String :=
  let manifest := project.config.manifest
  BuildManifest.digest
    [manifest.compilerVersion, manifest.importMapDigest, manifest.pluginListDigest]

/-- Writes the chunks of all entries. -/
def bundle (project : Project) (directory : List Char) (files : FileTree) :
    Except Bundle.BundleError Bundle.BundleOutput × FileTree :=
  let options : Bundle.BundleOptions := { directory, metadata := project.chunkMetadata }
  let (result, desk) :=
    Bundle.bundle options project.workspace.graph project.entries
      { store := project.workspace.store, files }
  (result, desk.files)

end Project

end ModuleBuild
