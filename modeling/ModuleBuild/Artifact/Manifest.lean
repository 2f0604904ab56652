import ModuleBuild.Artifact.Store
import ModuleBuild.Json.Reader
/-!
The build manifest: what a store was filled with. A store that was filled under another manifest is
cleared before it is used.
-/

namespace ModuleBuild

structure BuildManifest where
  compilerVersion : String
  importMapDigest : String
  pluginListDigest : String
deriving DecidableEq

/-- How the manifest found in a store compares with the one wanted. -/
inductive ManifestStatus where
  /-- The store has no manifest. -/
  | fresh
  | matching
  | mismatch
deriving DecidableEq

namespace BuildManifest

def currentVersion : String := "0.1.0"

def ofDigests (importMapDigest pluginListDigest : String) : BuildManifest :=
  { compilerVersion := currentVersion, importMapDigest, pluginListDigest }

def lengthBytes (length : Nat) : Bytes :=
  (List.range 8).map fun i => (length >>> (8 * i)).toUInt8

/-- The hash of a list of texts, each with its length before it. -/
def digest (parts : List String) : String :=
  Blake3.hex (parts.flatMap fun part =>
    let bytes := Text.bytes part
    lengthBytes bytes.length ++ bytes)

def metadataKey : String := "build-manifest"

def versionKey : String := "compiler_version"

def importMapKey : String := "import_map_digest"

def pluginListKey : String := "plugin_list_digest"

def keys : List String := [versionKey, importMapKey, pluginListKey]

def encode (manifest : BuildManifest) : String :=
  let member (key value : String) := Json.quoted key ++ ":" ++ Json.quoted value
  "\x7b" ++
    ",".intercalate
      [member versionKey manifest.compilerVersion,
        member importMapKey manifest.importMapDigest,
        member pluginListKey manifest.pluginListDigest] ++
    "\x7d"

/-- The value of a key that occurs once, if that is a text. -/
def textUnder? (members : List (Option String × Json)) (key : String) : Option String :=
  match members.filter fun member => member.1 == some key with
  | [(_, .string text?)] => text?
  | _ => none

/-- Reads a manifest: an object with the three texts among its members, or a list of them. -/
def decode? (text : String) : Option BuildManifest :=
  match Json.readLoosely (Text.bytes text) with
  | .ok (.object members) =>
    if members.any (·.1.isNone) then none
    else
      match keys.map (textUnder? members) with
      | [some version, some importMap, some plugins] => some ⟨version, importMap, plugins⟩
      | _ => none
  | .ok (.array [.string (some version), .string (some importMap), .string (some plugins)]) =>
    some ⟨version, importMap, plugins⟩
  | _ => none

/-- The manifest in a store, and `none` inside if what is there cannot be read. -/
def load (store : ArtifactStore) : ArtifactStore.Outcome (Option (Option BuildManifest)) :=
  match store.getMetadata metadataKey with
  | (.ok text?, store) => (.ok (text?.map decode?), store)
  | (.error error, store) => (.error error, store)

def write (manifest : BuildManifest) (store : ArtifactStore) : ArtifactStore.Outcome Unit :=
  store.setMetadata metadataKey manifest.encode

def check (manifest : BuildManifest) (store : ArtifactStore) :
    ArtifactStore.Outcome ManifestStatus :=
  match load store with
  | (.error error, store) => (.error error, store)
  | (.ok none, store) => (.ok .fresh, store)
  | (.ok (some found?), store) =>
    (.ok (if found? = some manifest then .matching else .mismatch), store)

end BuildManifest

end ModuleBuild
