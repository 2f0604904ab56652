import ModuleBuild.Artifact.Manifest
import ModuleBuild.OrderedMap
import ModuleBuild.Path
import ModuleBuild.Resolver
/-!
The configuration of a project, and what follows from it alone: where its files are, what its
entries name, how imports are resolved, and the manifest of a store that was filled under it.
-/

namespace ModuleBuild

/-- A chunk to be built, as it is configured. -/
structure Config.Entry where
  name : String
  /-- Paths, addresses or aliases. -/
  modules : List String
  isPreloaded : Bool := false
deriving DecidableEq

/-- How changes of files are followed. -/
structure Config.Watching where
  /-- How long files have to be quiet before a change is taken up. -/
  debounceMillis : Nat := 50
  /-- Parts of paths whose changes do not count. -/
  ignored : List String := ["/.git/", "/node_modules/", "/.kiln/"]
deriving DecidableEq

/-- Paths that are not absolute are taken from the root. -/
structure Config where
  root : List Char := ['.']
  entries : List Config.Entry := []
  outputDirectory : List Char := "dist".toList
  cacheDirectory : List Char := ".kiln/cache".toList
  /-- What the aliases of bare imports stand for. -/
  importMap : OrderedMap String String := .empty
  /-- What the addresses of remote modules begin with that are compiled. -/
  compileRemote : List String := []
  /-- Patterns of modules that are left alone. -/
  external : List String := []
  watching : Config.Watching := {}
  logLevel? : Option String := none

namespace Config

def Watching.ignores (watching : Watching) (path : List Char) : Bool :=
  watching.ignored.any fun part => Text.occursIn part.toList path

/-- Where a path leads from the root. -/
def resolve (config : Config) (path : List Char) : List Char :=
  Path.clean (Path.join config.root path)

def outputPath (config : Config) : List Char := config.resolve config.outputDirectory

def cachePath (config : Config) : List Char := config.resolve config.cacheDirectory

/-- What a module of an entry is known as to the resolver: addresses and aliases as they stand, and
paths from the root. -/
def entrySpecifier (config : Config) (written : String) : String :=
  if Specifier.isRemoteText written.toList || config.importMap.contains written then written
  else String.ofList (config.resolve written.toList)

def entryNamed? (config : Config) (name : String) : Option Entry :=
  config.entries.find? (·.name = name)

def importMapDigest (config : Config) : String :=
  BuildManifest.digest (config.importMap.entries.flatMap fun (name, target) => [name, target])

/-- A digest of what else decides how imports are resolved. -/
def resolutionDigest (config : Config) : String :=
  BuildManifest.digest
    (config.external.flatMap (["external", ·]) ++
      config.compileRemote.flatMap (["compile_remote", ·]))

def manifest (config : Config) : BuildManifest :=
  .ofDigests config.importMapDigest config.resolutionDigest

def resolver (config : Config) : Except PatternError Resolver :=
  Resolver.ofImportMap config.importMap.entries config.external config.compileRemote

end Config

end ModuleBuild
