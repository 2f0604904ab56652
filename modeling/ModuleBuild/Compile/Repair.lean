import ModuleBuild.Compile.Error
/-!
Bringing compiled modules up to date with the graph, without compiling them again.

Refreshing a module derives its content hash from the graph, writes the hash tokens of its imports
into its code, and files the code under the key that belongs to the hash. After a change, all ready
modules that import the changed one, directly or through others, are refreshed.
-/

namespace ModuleBuild

/-- The records of the modules and what is stored of them. -/
structure Workspace where
  graph : ModuleGraph := {}
  store : ArtifactStore := {}
  /-- Whether an import was met whose hash cannot be cut into a token; nothing that was done since
  counts. -/
  isSpoiled : Bool := false

structure Refreshed where
  record : ModuleRecord
  hashChanged : Bool
  /-- How many blobs were written. -/
  writes : Nat
  missing : List MissingDependency

/-- Code with the tokens of imports written into it, and what was met on the way. -/
structure Patched where
  code : Bytes
  isChanged : Bool := false
  missing : List MissingDependency := []
  externals : List Specifier := []

namespace Workspace

/-- Writes the token of one import into code. Only static imports of modules that are compiled and
were loaded have tokens. -/
def patchEdge (graph : ModuleGraph) (specifier : Specifier) (patched : Patched)
    (edge : DependencyEdge) : Except ArtifactError Patched :=
  match graph.get? edge.target with
  | none => .ok { patched with missing := patched.missing ++ [⟨specifier, edge.target⟩] }
  | some target =>
    if target.isExternal then
      .ok { patched with externals := patched.externals ++ [edge.target] }
    else if edge.isDynamic then .ok patched
    else
      match edge.slot?, graph.contentHash? edge.target with
      | some slot, some hash =>
        match hashToken? hash with
        | none => .error (.withoutToken specifier edge.target)
        | some token =>
          match slot.patch patched.code (Text.bytes token) with
          | .ok code =>
            .ok { patched with code, isChanged := patched.isChanged || code != patched.code }
          | .error fault => .error (.slotOutOfRange specifier fault)
      | _, _ => .ok patched

/-- Writes the tokens of imports into the code of a module. -/
def patchEdges (graph : ModuleGraph) (record : ModuleRecord) (code : Bytes) :
    Except ArtifactError Patched :=
  record.dependencies.foldlM (patchEdge graph record.specifier) { code }

/-- The key of the output that a record refers to, or the empty key. -/
def outputKey (record : ModuleRecord) : String := (record.output?.map (·.key)).getD ""

def storedCode (store : ArtifactStore) (record : ModuleRecord) :
    Except ArtifactError Bytes × ArtifactStore :=
  match store.get (outputKey record) with
  | (.ok (some code), store) => (.ok code, store)
  | (.ok none, store) => (.error (.missing record.specifier (outputKey record)), store)
  | (.error error, store) => (.error (.store error), store)

/-- Puts code under a key and takes away what was there under an older key. -/
def file (store : ArtifactStore) (key : String) (code : Bytes) (oldKey? : Option String) :
    ArtifactStore.Outcome Unit :=
  match store.put key code with
  | (.error error, store) => (.error error, store)
  | (.ok (), store) =>
    match oldKey? with
    | some oldKey => if oldKey = key then (.ok (), store) else store.remove oldKey
    | none => (.ok (), store)

/-- What a refresh makes of a record whose code was patched. -/
def settle (workspace : Workspace) (record : ModuleRecord) (isFresh : Bool) (patched : Patched) :
    Except ArtifactError (Option Refreshed) × Workspace :=
  let specifier := record.specifier
  let contentHash := (workspace.graph.contentHash? specifier).getD record.sourceHash
  let key := artifactKey specifier contentHash
  let oldKey? := record.output?.map (·.key)
  let mustWrite := isFresh || patched.isChanged || oldKey? != some key
  let (filed, store) :=
    if mustWrite then file workspace.store key patched.code oldKey? else (.ok (), workspace.store)
  let workspace := { workspace with store }
  match filed with
  | .error error => (.error (.store error), workspace)
  | .ok () =>
    let writes := if mustWrite then 1 else 0
    let hashChanged := record.contentHash != contentHash
    if writes = 0 ∧ !hashChanged ∧ record.isReady then
      (.ok (some { record, hashChanged, writes, missing := patched.missing }), workspace)
    else
      let change (record : ModuleRecord) : ModuleRecord :=
        { record with
          contentHash
          output? := some ⟨key, patched.code.length⟩
          state := .ready }
      match workspace.graph.update specifier change with
      | .error _ => (.ok none, workspace)
      | .ok (graph, updated) =>
        let workspace := { workspace with graph }
        let refreshed : Refreshed :=
          { record := updated, hashChanged, writes, missing := patched.missing }
        if 0 < writes ∨ hashChanged then
          match workspace.store.putSidecar (Sidecar.ofRecord updated patched.externals) with
          | (.ok (), store) => (.ok (some refreshed), { workspace with store })
          | (.error error, store) => (.error (.store error), { workspace with store })
        else (.ok (some refreshed), workspace)

/-- Brings a module up to date; new code, if there is any, takes the place of what is stored.
Modules without a record, external ones and those never loaded are left alone. -/
def refresh (workspace : Workspace) (specifier : Specifier) (staged? : Option Bytes) :
    Except ArtifactError (Option Refreshed) × Workspace :=
  match workspace.graph.get? specifier with
  | none => (.ok none, workspace)
  | some record =>
    if !record.folds then (.ok none, workspace)
    else
      let (code?, store) : Except ArtifactError Bytes × ArtifactStore :=
        match staged? with
        | some code => (.ok code, workspace.store)
        | none => storedCode workspace.store record
      let workspace := { workspace with store }
      match code? with
      | .error error => (.error error, workspace)
      | .ok code =>
        match patchEdges workspace.graph record code with
        | .error (.withoutToken specifier dependency) =>
          (.error (.withoutToken specifier dependency), { workspace with isSpoiled := true })
        | .error error => (.error error, workspace)
        | .ok patched => workspace.settle record staged?.isSome patched

/-- The imports of a module that have no record. -/
def missing (workspace : Workspace) (specifier : Specifier) : List MissingDependency :=
  ((workspace.graph.dependencies specifier).filter
    fun edge => !workspace.graph.contains edge.target).map fun edge => ⟨specifier, edge.target⟩

/-- What came of repairing the importers of a module. -/
structure Propagation where
  /-- The modules whose content hash changed, as they are now. -/
  updated : List ModuleRecord := []
  writes : Nat := 0
  missing : List MissingDependency := []
  failures : List (Specifier × ArtifactError) := []

def Propagation.isNoop (propagation : Propagation) : Bool :=
  propagation.updated.isEmpty && propagation.writes == 0

/-- The ready modules that import a module, directly or through others. -/
def affected (graph : ModuleGraph) (changed : Specifier) : List Specifier :=
  let visitor : Visitor (List Specifier) :=
    { enter := fun met record? depth found =>
        (if 0 < depth ∧ record?.any (·.isReady) then met :: found else found, .continue) }
  (graph.walk changed .dependents [] visitor []).state.reverse

/-- Refreshes one module after another. A failure is noted and the rest goes on. -/
def refreshAll (workspace : Workspace) (propagation : Propagation) :
    List Specifier → Propagation × Workspace
  | [] => (propagation, workspace)
  | specifier :: rest =>
    match workspace.refresh specifier none with
    | (.error error, workspace) =>
      refreshAll workspace
        { propagation with failures := propagation.failures ++ [(specifier, error)] } rest
    | (.ok none, workspace) => refreshAll workspace propagation rest
    | (.ok (some refreshed), workspace) =>
      refreshAll workspace
        { propagation with
          writes := propagation.writes + refreshed.writes
          missing := propagation.missing ++ refreshed.missing
          updated :=
            if refreshed.hashChanged then propagation.updated ++ [refreshed.record]
            else propagation.updated } rest

/-- Repairs all ready modules that import a changed one. -/
def propagate (workspace : Workspace) (changed : Specifier) : Propagation × Workspace :=
  refreshAll workspace {} (affected workspace.graph changed)

/-- The compiled output of a module, if it has any. -/
def artifact (workspace : Workspace) (specifier : Specifier) :
    Except ArtifactError (Option Bytes) × Workspace :=
  match (workspace.graph.get? specifier).bind (·.output?) with
  | none => (.ok none, workspace)
  | some output =>
    match workspace.store.get output.key with
    | (.ok (some code), store) => (.ok (some code), { workspace with store })
    | (.ok none, store) => (.error (.missing specifier output.key), { workspace with store })
    | (.error error, store) => (.error (.store error), { workspace with store })

end Workspace

end ModuleBuild
