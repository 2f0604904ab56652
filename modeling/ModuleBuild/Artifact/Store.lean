import ModuleBuild.ModuleRecord
import ModuleBuild.OrderedMap
import ModuleBuild.Graph.ContentHash
/-!
The artifact store: compiled code under keys, a sidecar for each module that tells how its code came
about, and texts of metadata. Any operation may be out of order; it then fails with a reason and
changes nothing. The store counts writes and reads. A store may keep sidecars as text; their
specifiers are then read again when a sidecar is asked for.
-/

namespace ModuleBuild

inductive StoreError where
  | database (reason : String)
  /-- The file of the store could not be reached. -/
  | unreachable (reason : String)
  /-- A specifier in a sidecar that is kept as text cannot be read. -/
  | unreadableSidecar (error : Specifier.Error)
deriving DecidableEq

def StoreError.message : StoreError → String
  | database reason => s!"artifact store database error: {reason}"
  | unreachable reason => s!"io error: {reason}"
  | unreadableSidecar error => s!"sidecar serialization error: {error.message}"

/-- The key of compiled output: the content hash, and the start of the hash of the specifier, since
modules with equal content have paths of their own. -/
def artifactKey (specifier : Specifier) (contentHash : String) : String :=
  let owner := (Blake3.hexDigits (Blake3.hash (Text.bytes specifier.text))).take 16
  contentHash ++ "-" ++ String.ofList owner

/-- What is kept of a module beside its code, so that it need not be compiled again. -/
structure Sidecar where
  specifier : Specifier
  sourceHash : String
  contentHash : String
  kind? : Option SourceKind
  dependencies : List DependencyEdge
  flags : ModuleFlags
  output? : Option OutputReference
  /-- The imported modules that are left alone. -/
  externals : List Specifier
deriving DecidableEq

def Sidecar.ofRecord (record : ModuleRecord) (externals : List Specifier) : Sidecar :=
  { specifier := record.specifier
    sourceHash := record.sourceHash
    contentHash := record.contentHash
    kind? := record.kind?
    dependencies := record.dependencies
    flags := record.flags
    output? := record.output?
    externals }

def Sidecar.reread (sidecar : Sidecar) : Except Specifier.Error Sidecar := do
  let specifier ← Specifier.parse sidecar.specifier.text
  let dependencies ← sidecar.dependencies.mapM fun edge => do
    return { edge with target := ← Specifier.parse edge.target.text }
  let externals ← sidecar.externals.mapM fun specifier => Specifier.parse specifier.text
  return { sidecar with specifier, dependencies, externals }

/-- The operations of a store. -/
inductive StoreOperation where
  | put
  | get
  | contains
  | remove
  | putSidecar
  | getSidecar
  | removeSidecar
  | setMetadata
  | getMetadata
  | clear
deriving DecidableEq

structure ArtifactStore where
  blobs : OrderedMap String Bytes := .empty
  sidecars : OrderedMap Specifier Sidecar := .empty
  metadata : OrderedMap String String := .empty
  blobWrites : Nat := 0
  blobReads : Nat := 0
  sidecarWrites : Nat := 0
  /-- The operations that are out of order, with the reason they give. -/
  faults : OrderedMap StoreOperation String := .empty
  /-- Whether sidecars are kept as text. -/
  keepsText : Bool := false

namespace ArtifactStore

abbrev Outcome (α : Type) := Except StoreError α × ArtifactStore

def attempt {α : Type} (store : ArtifactStore) (operation : StoreOperation)
    (result : α) (after : ArtifactStore) : Outcome α :=
  match store.faults.get? operation with
  | some reason => (.error (.database reason), store)
  | none => (.ok result, after)

def put (store : ArtifactStore) (key : String) (bytes : Bytes) : Outcome Unit :=
  store.attempt .put ()
    { store with blobs := store.blobs.insert key bytes, blobWrites := store.blobWrites + 1 }

def get (store : ArtifactStore) (key : String) : Outcome (Option Bytes) :=
  store.attempt .get (store.blobs.get? key) { store with blobReads := store.blobReads + 1 }

def contains (store : ArtifactStore) (key : String) : Outcome Bool :=
  store.attempt .contains (store.blobs.contains key)
    { store with blobReads := store.blobReads + 1 }

def remove (store : ArtifactStore) (key : String) : Outcome Unit :=
  store.attempt .remove () { store with blobs := store.blobs.erase key }

def putSidecar (store : ArtifactStore) (sidecar : Sidecar) : Outcome Unit :=
  store.attempt .putSidecar ()
    { store with
      sidecars := store.sidecars.insert sidecar.specifier sidecar
      sidecarWrites := store.sidecarWrites + 1 }

def getSidecar (store : ArtifactStore) (specifier : Specifier) : Outcome (Option Sidecar) :=
  match store.attempt .getSidecar (store.sidecars.get? specifier) store with
  | (.ok (some sidecar), store) =>
    if store.keepsText then
      ((sidecar.reread.mapError StoreError.unreadableSidecar).map some, store)
    else (.ok (some sidecar), store)
  | outcome => outcome

def removeSidecar (store : ArtifactStore) (specifier : Specifier) : Outcome Unit :=
  store.attempt .removeSidecar () { store with sidecars := store.sidecars.erase specifier }

def setMetadata (store : ArtifactStore) (key value : String) : Outcome Unit :=
  store.attempt .setMetadata () { store with metadata := store.metadata.insert key value }

def getMetadata (store : ArtifactStore) (key : String) : Outcome (Option String) :=
  store.attempt .getMetadata (store.metadata.get? key) store

def clear (store : ArtifactStore) : Outcome Unit :=
  store.attempt .clear () { store with blobs := .empty, sidecars := .empty, metadata := .empty }

/-- The store as another session finds it: everything kept, and all operations in order. -/
def reopened (store : ArtifactStore) : ArtifactStore := { store with faults := .empty }

end ArtifactStore

end ModuleBuild
