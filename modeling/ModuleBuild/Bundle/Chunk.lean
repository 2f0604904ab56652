import ModuleBuild.Bundle.Gate
import ModuleBuild.Bundle.Partition
import ModuleBuild.Compile.Repair
import ModuleBuild.Files.Tree
/-!
Writing a bundle: one file for the shared modules and one for each entry, named by a hash of the
code, and a manifest that lists them. Chunks without modules are not written.
-/

namespace ModuleBuild.Bundle

inductive BundleError where
  | fatal (error : FatalError)
  | artifact (error : ArtifactError)
  /-- The code of a chunk could not be made. -/
  | emit (chunk reason : String)
  /-- A chunk would be written outside of the output directory. -/
  | invalidChunkName (file : String)
deriving DecidableEq

def BundleError.message : BundleError → String
  | fatal error => error.message
  | artifact error => error.message
  | emit chunk reason => s!"failed to emit chunk '{chunk}': {reason}"
  | invalidChunkName file => s!"invalid chunk name '{file}'"

structure ChunkModule where
  specifier : Specifier
  code : Bytes

/-- What a chunk is made of, imports before importers. -/
structure ChunkInput where
  name : String
  kind : EntryKind
  modules : List ChunkModule

/-- A way to make the code of a chunk; it may refuse with a reason. -/
abbrev Emitter := ChunkInput → Except String (List Char)

/-- The text of a module below a line that names it; it ends with a line break. -/
def section? (chunkModule : ChunkModule) : Except String (List Char) :=
  match Utf8.decode chunkModule.code with
  | .error fault => .error s!"{chunkModule.specifier} is not valid UTF-8: {fault.message}"
  | .ok text =>
    let ending := if text.getLast? = some '\n' then [] else ['\n']
    .ok ("// ".toList ++ chunkModule.specifier.chars ++ '\n' :: text ++ ending)

/-- Puts the modules of a chunk one after another. -/
def concatenate : Emitter := fun input => (input.modules.mapM section?).map List.flatten

/-- A chunk that was written. -/
structure Chunk where
  name : String
  /-- The file name below the output directory. -/
  file : String
  kind : EntryKind
  modules : List Specifier
deriving DecidableEq

structure BundleManifest where
  chunks : List Chunk := []
deriving DecidableEq

def BundleManifest.chunk? (manifest : BundleManifest) (name : String) : Option Chunk :=
  manifest.chunks.find? (·.name = name)

def Chunk.toJson (chunk : Chunk) : Json :=
  .ofMembers
    [("name", .ofString chunk.name), ("file", .ofString chunk.file),
      ("kind", .ofString chunk.kind.name), ("modules", Analysis.modulesJson chunk.modules)]

def BundleManifest.render (manifest : BundleManifest) : String :=
  (Json.ofMembers [("chunks", .array (manifest.chunks.map Chunk.toJson))]).render

def sharedName : String := "shared"

def manifestFile : List Char := "bundle-manifest.json".toList

def chunkHashLength : Nat := 8

def chunkHash (code : List Char) (metadata : String) : String :=
  let hash := Blake3.hash (Utf8.encode code ++ Text.bytes metadata)
  String.ofList ((Blake3.hexDigits hash).take chunkHashLength)

def isPlainStep : Path.Component → Bool
  | .name _ | .current => true
  | .root | .parent => false

/-- Where a file name leads below a directory, unless it leads out of it. -/
def outputPath? (directory file : List Char) : Option (List Char) :=
  if Path.isAbsolute file || !(Path.components file).all isPlainStep then none
  else
    let path := Path.clean (Path.join directory file)
    if Path.isWithin (Path.clean directory) path then some path else none

structure BundleOptions where
  directory : List Char
  /-- A text that every chunk hash covers too. -/
  metadata : String := ""
  emitter : Emitter := concatenate

structure BundleOutput where
  manifest : BundleManifest
  manifestPath : List Char
  analysis : Analysis

/-- What a bundle reads from and writes to. -/
structure Desk where
  store : ArtifactStore
  files : FileTree

namespace Desk

/-- What went wrong at the path of a file or directory that was to be written. -/
def writeError (path : List Char) (fault : FileFault) : BundleError :=
  .fatal (.bundleWrite (String.ofList path) fault.message)

/-- Adds a directory and those above it, as far as this can be done. -/
def makeDirectory (desk : Desk) (path : List Char) : Except BundleError Unit × Desk :=
  let (result, files) := desk.files.makeDirectory path
  (result.mapError (writeError path), { desk with files })

def write (desk : Desk) (path : List Char) (bytes : Bytes) : Except BundleError Unit × Desk :=
  match desk.makeDirectory ((Path.parent? path).getD []) with
  | (.error error, desk) => (.error error, desk)
  | (.ok (), desk) =>
    match desk.files.write path bytes with
    | .error fault => (.error (writeError path fault), desk)
    | .ok files => (.ok (), { desk with files })

def gather (graph : ModuleGraph) (desk : Desk) :
    List Specifier → Except BundleError (List ChunkModule) × Desk
  | [] => (.ok [], desk)
  | specifier :: rest =>
    let key := ((graph.get? specifier).bind (·.output?)).elim "" (·.key)
    match desk.store.get key with
    | (.error error, store) => (.error (.artifact (.store error)), { desk with store })
    | (.ok none, store) => (.error (.artifact (.missing specifier key)), { desk with store })
    | (.ok (some code), store) =>
      match gather graph { desk with store } rest with
      | (.error error, desk) => (.error error, desk)
      | (.ok modules, desk) => (.ok (⟨specifier, code⟩ :: modules), desk)

end Desk

/-- A chunk that is to be written. -/
structure ChunkPlan where
  name : String
  kind : EntryKind
  modules : List Specifier

/-- The shared chunk and the entries in order, without those that would be empty. -/
def plans (analysis : Analysis) : List ChunkPlan :=
  let shared : ChunkPlan := { name := sharedName, kind := .sync, modules := analysis.sharedModules }
  let entries := analysis.entries.map fun entry : EntryTree =>
    { name := entry.name, kind := entry.kind, modules := analysis.entryModules entry.name }
  (shared :: entries).filter fun plan => !plan.modules.isEmpty

def writeChunk (options : BundleOptions) (graph : ModuleGraph) (desk : Desk) (plan : ChunkPlan) :
    Except BundleError Chunk × Desk :=
  match desk.gather graph plan.modules with
  | (.error error, desk) => (.error error, desk)
  | (.ok modules, desk) =>
    match options.emitter { name := plan.name, kind := plan.kind, modules } with
    | .error reason => (.error (.emit plan.name reason), desk)
    | .ok code =>
      let file := s!"{plan.name}.{chunkHash code options.metadata}.js"
      match outputPath? options.directory file.toList with
      | none => (.error (.invalidChunkName file), desk)
      | some path =>
        match desk.write path (Utf8.encode code) with
        | (.error error, desk) => (.error error, desk)
        | (.ok (), desk) =>
          (.ok { name := plan.name, file, kind := plan.kind, modules := plan.modules }, desk)

def writeChunks (options : BundleOptions) (graph : ModuleGraph) (desk : Desk) :
    List ChunkPlan → Except BundleError (List Chunk) × Desk
  | [] => (.ok [], desk)
  | plan :: rest =>
    match writeChunk options graph desk plan with
    | (.error error, desk) => (.error error, desk)
    | (.ok chunk, desk) =>
      match writeChunks options graph desk rest with
      | (.error error, desk) => (.error error, desk)
      | (.ok chunks, desk) => (.ok (chunk :: chunks), desk)

/-- Checks what entries reach, splits it over chunks and writes these with their manifest. A failure
leaves what was written before it. -/
def bundle (options : BundleOptions) (graph : ModuleGraph) (entries : List EntryPoint)
    (desk : Desk) : Except BundleError BundleOutput × Desk :=
  match check graph entries with
  | .error error => (.error (.fatal error), desk)
  | .ok () =>
    let analysis := analyze graph entries
    let directory := options.directory
    match desk.makeDirectory directory with
    | (.error error, desk) => (.error error, desk)
    | (.ok (), desk) =>
      match writeChunks options graph desk (plans analysis) with
      | (.error error, desk) => (.error error, desk)
      | (.ok chunks, desk) =>
        let manifest : BundleManifest := ⟨chunks⟩
        let manifestPath := Path.join directory manifestFile
        match desk.write manifestPath (Text.bytes manifest.render) with
        | (.error error, desk) => (.error error, desk)
        | (.ok (), desk) => (.ok { manifest, manifestPath, analysis }, desk)

end ModuleBuild.Bundle
