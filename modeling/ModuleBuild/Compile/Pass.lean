import ModuleBuild.Compile.Repair
import ModuleBuild.Fresh
/-!
A compile pass. It first goes from the roots to everything they import, claiming each specifier
once: a module that is new, not ready or to be refreshed is loaded and compiled, or taken from the
store if its source is unchanged. Then every module it touched is settled: its content hash is
derived, the tokens of its imports are written, and its artifact is stored. A module that fails is
marked and the pass goes on.
-/

namespace ModuleBuild

/-- The source of a module as its loader gives it. -/
structure Source where
  bytes : Bytes
  kind : SourceKind

/-- What a loader finds under a specifier. -/
inductive SourceEntry where
  | source (source : Source)
  | fetchFailed (reason : String)
  | unreadable (reason : String)

abbrev SourceTree := OrderedMap Specifier SourceEntry

def SourceTree.load (sources : SourceTree) (specifier : Specifier) : Except LoadError Source :=
  match sources.get? specifier with
  | none => .error (.notFound specifier)
  | some (.source source) => .ok source
  | some (.fetchFailed reason) => .error (.fetchFailed specifier reason)
  | some (.unreadable reason) => .error (.unreadable specifier reason)

/-- What a compiler works with. -/
structure Toolchain where
  sources : SourceTree := .empty
  resolver : Resolver := {}
  transpiler : Transpiler := transpile

structure CompileOptions where
  /-- Roots are loaded again even if they are ready. -/
  forceRefresh : Bool := false
  /-- Only the roots are compiled. -/
  ignoreDependencies : Bool := false

/-- The state of a pass. -/
structure Pass where
  workspace : Workspace
  /-- Code that was written in this pass and is not yet stored. -/
  staged : OrderedMap Specifier Bytes := .empty
  errors : OrderedMap Specifier ModuleError := .empty
  transpiled : Nat := 0
  reused : Nat := 0
  /-- The specifiers that were loaded, and those handed to the transpiler, the latest first. -/
  loads : List Specifier := []
  transpilerCalls : List Specifier := []

/-- What came of a pass. -/
structure PassReport where
  /-- Every specifier the pass touched, with its record or its error. -/
  outcomes : OrderedMap Specifier (Except ModuleError ModuleRecord) := .empty
  missing : List MissingDependency := []
  transpiled : Nat := 0
  reused : Nat := 0
  writes : Nat := 0
  /-- The modules whose content hash changed. -/
  changed : List Specifier := []
  /-- Those of them that were repaired after the pass. -/
  propagated : List Specifier := []
  loads : List Specifier := []
  transpilerCalls : List Specifier := []

namespace PassReport

def errors (report : PassReport) : List (Specifier × ModuleError) :=
  report.outcomes.entries.filterMap fun (specifier, outcome) =>
    match outcome with
    | .error error => some (specifier, error)
    | .ok _ => none

def modules (report : PassReport) : List ModuleRecord :=
  report.outcomes.values.filterMap fun
    | .ok record => some record
    | .error _ => none

def isClean (report : PassReport) : Bool := report.errors.isEmpty && report.missing.isEmpty

/-- Refuses a report with errors or missing imports, errors first. -/
def ensureClean (report : PassReport) : Except FatalError Unit :=
  match report.errors, report.missing with
  | (specifier, error) :: _, _ => .error (.erroredModule specifier error.message)
  | [], missing :: _ => .error (.missingDependency missing)
  | [], [] => .ok ()

end PassReport

/-- Stored output that is still valid for a source. -/
structure Restored where
  kind? : Option SourceKind
  dependencies : List DependencyEdge
  flags : ModuleFlags
  output? : Option OutputReference
  externals : List Specifier := []

/-- The targets of edges, each once, by their first occurrence. -/
def distinctTargets (edges : List DependencyEdge) : List Specifier :=
  edges.foldl (fun targets edge =>
    if edge.target ∈ targets then targets else targets ++ [edge.target]) []

namespace ModuleGraph

/-- Makes sure that a module left alone has a record that says so, unless it was compiled. -/
def mentionExternal (graph : ModuleGraph) (specifier : Specifier) : ModuleGraph :=
  let (graph, record, isNew) := graph.getOrCreate specifier
  if isNew || (record.isPending && record.sourceHash == "") then
    graph.insert (.external specifier)
  else graph

def mentionAll (graph : ModuleGraph) (targets : List Specifier) : ModuleGraph :=
  targets.foldl mention graph

/-- Whether a module has importers, all of them by dynamic imports only. -/
def isDynamicEntry (graph : ModuleGraph) (specifier : Specifier) : Bool :=
  let importers := graph.dependents specifier
  !importers.isEmpty && importers.all fun importer =>
    ((graph.dependencies importer).filter (·.target = specifier)).all (·.isDynamic)

/-- Notes in the record of a module whether it is a dynamic entry. -/
def updateEntryFlag (graph : ModuleGraph) (specifier : Specifier) : ModuleGraph :=
  let isDynamicEntryOnly := graph.isDynamicEntry specifier
  match graph.get? specifier with
  | some record =>
    if record.flags.isDynamicEntryOnly = isDynamicEntryOnly then graph
    else
      graph.modify specifier fun record =>
        { record with flags := { record.flags with isDynamicEntryOnly } }
  | none => graph

/-- Whether a module is ready and its content hash up to date. -/
def isSettled (graph : ModuleGraph) (specifier : Specifier) : Bool :=
  match graph.get? specifier with
  | some record => record.isReady && graph.isCurrent record
  | none => false

end ModuleGraph

namespace Pass

def setGraph (pass : Pass) (graph : ModuleGraph) : Pass :=
  { pass with workspace := { pass.workspace with graph } }

def setStore (pass : Pass) (store : ArtifactStore) : Pass :=
  { pass with workspace := { pass.workspace with store } }

def fail (pass : Pass) (specifier : Specifier) (error : ModuleError) : Pass :=
  let graph := pass.workspace.graph.modify specifier (·.failed error.message)
  { pass.setGraph graph with errors := pass.errors.insert specifier error }

/-- What the sidecar of a module allows to take over for a source hash. -/
def restoreSidecar? (store : ArtifactStore) (specifier : Specifier) (source : String) :
    ArtifactStore.Outcome (Option Restored) :=
  match store.getSidecar specifier with
  | (.error error, store) => (.error error, store)
  | (.ok none, store) => (.ok none, store)
  | (.ok (some sidecar), store) =>
    match sidecar.output? with
    | none => (.ok none, store)
    | some output =>
      if sidecar.sourceHash != source then (.ok none, store)
      else
        match store.contains output.key with
        | (.error error, store) => (.error error, store)
        | (.ok false, store) => (.ok none, store)
        | (.ok true, store) =>
          (.ok (some
            { kind? := sidecar.kind?
              dependencies := sidecar.dependencies
              flags := sidecar.flags
              output? := sidecar.output?
              externals := sidecar.externals }), store)

/-- Earlier output that is still valid for a source hash: what the record refers to, or else what the
sidecar does. -/
def restore? (store : ArtifactStore) (record : ModuleRecord) (source : String) :
    ArtifactStore.Outcome (Option Restored) :=
  let isUnchanged := record.sourceHash == source && record.error?.isNone
  match record.output? with
  | some output =>
    if !isUnchanged then restoreSidecar? store record.specifier source
    else
      match store.contains output.key with
      | (.error error, store) => (.error error, store)
      | (.ok true, store) =>
        (.ok (some
          { kind? := record.kind?
            dependencies := record.dependencies
            flags := record.flags
            output? := record.output? }), store)
      | (.ok false, store) => restoreSidecar? store record.specifier source
  | none => restoreSidecar? store record.specifier source

def reuse (pass : Pass) (specifier : Specifier) (source : String) (restored : Restored) :
    Pass × List Specifier :=
  let targets := distinctTargets restored.dependencies
  let graph := restored.externals.foldl ModuleGraph.mentionExternal pass.workspace.graph
  let graph := graph.modify specifier fun record =>
    { record with
      kind? := restored.kind?
      sourceHash := source
      dependencies := restored.dependencies
      flags := restored.flags
      output? := restored.output?
      state := .pending }
  ({ pass.setGraph (graph.mentionAll targets) with reused := pass.reused + 1 }, targets)

/-- The imports of a module after resolution, with the edits of those that have a span. -/
structure Linked where
  graph : ModuleGraph
  edges : List DependencyEdge := []
  edits : List Edit := []

def targetOf (resolved : Resolved) (isDynamic : Bool) : ImportTarget :=
  if resolved.isExternal then .address resolved.specifier.text
  else .compiled resolved.specifier.servingPath (!isDynamic)

/-- Resolves imports in order, up to the first that has no meaning. Modules to be left alone get
their records on the way. -/
def link (resolver : Resolver) (specifier : Specifier) (linked : Linked) :
    List FoundImport → Except ResolveError Linked × ModuleGraph
  | [] => (.ok linked, linked.graph)
  | found :: rest =>
    match resolver.resolve (some specifier) found.written with
    | .error error => (.error error, linked.graph)
    | .ok resolved =>
      let graph :=
        if resolved.isExternal then linked.graph.mentionExternal resolved.specifier
        else linked.graph
      let edits :=
        match found.span? with
        | some span => [{ span, target := targetOf resolved found.isDynamic }]
        | none => []
      link resolver specifier
        { graph
          edges :=
            linked.edges ++ [{ target := resolved.specifier, isDynamic := found.isDynamic }]
          edits := linked.edits ++ edits } rest

/-- Hands the slots of edits to the edges whose imports they write. -/
def assignSlots : List FoundImport → List DependencyEdge → List (Option HashSlot) →
    List DependencyEdge
  | found :: imports, edge :: edges, slots =>
    match found.span?, slots with
    | some _, slot? :: slots => { edge with slot? } :: assignSlots imports edges slots
    | _, _ => edge :: assignSlots imports edges slots
  | _, edges, _ => edges

/-- Compiles a source that was transpiled: resolves its imports, writes its code and updates its
record. -/
def compileOutput (resolver : Resolver) (pass : Pass) (specifier : Specifier) (source : String)
    (kind : SourceKind) (output : Transpiled) : Except ModuleError (List Specifier) × Pass :=
  match link resolver specifier { graph := pass.workspace.graph } output.imports with
  | (.error error, graph) => (.error (.resolve error), pass.setGraph graph)
  | (.ok linked, _) =>
    let emission := Emission.ofEdits output.code linked.edits
    let edges := assignSlots output.imports linked.edges emission.slots
    let targets := distinctTargets edges
    let graph := linked.graph.modify specifier fun record =>
      { record with
        flags :=
          { isStyle := kind.isStyle
            hasSideEffects := output.hasSideEffects
            isDynamicEntryOnly := record.flags.isDynamicEntryOnly }
        kind? := some kind
        sourceHash := source
        dependencies := edges
        state := .pending }
    (.ok targets,
      { pass.setGraph (graph.mentionAll targets) with
        staged := pass.staged.insert specifier emission.bytes
        transpiled := pass.transpiled + 1 })

/-- Loads a module and compiles it, unless earlier output can be taken over. Gives the modules it
imports. -/
def build (tools : Toolchain) (pass : Pass) (record : ModuleRecord) :
    Except ModuleError (List Specifier) × Pass :=
  let specifier := record.specifier
  let pass := { pass with loads := specifier :: pass.loads }
  match tools.sources.load specifier with
  | .error error => (.error (.load error), pass)
  | .ok loaded =>
    if !loaded.kind.isSupported then (.error (.unsupportedKind specifier loaded.kind), pass)
    else
      let source := sourceHash loaded.bytes
      let (restored?, store) := restore? pass.workspace.store record source
      let pass := pass.setStore store
      match restored? with
      | .error error => (.error (.artifact (.store error)), pass)
      | .ok (some restored) =>
        let (pass, targets) := pass.reuse specifier source restored
        (.ok targets, pass)
      | .ok none =>
        match Utf8.decode loaded.bytes with
        | .error fault =>
          let reason := s!"source is not valid UTF-8: {fault.message}"
          (.error (.transpile specifier (.failed reason none)), pass)
        | .ok text =>
          let pass := { pass with transpilerCalls := specifier :: pass.transpilerCalls }
          match tools.transpiler specifier text loaded.kind with
          | .error error => (.error (.transpile specifier error), pass)
          | .ok output => pass.compileOutput tools.resolver specifier source loaded.kind output

/-- Makes sure that a module which was just claimed has a record. Gives the record if the module needs
to be compiled. -/
def claim (pass : Pass) (specifier : Specifier) (isForced : Bool) : Pass × Option ModuleRecord :=
  let (graph, record, _) := pass.workspace.graph.getOrCreate specifier
  let pass := pass.setGraph graph
  if record.isExternal || (record.isReady && !isForced) then (pass, none) else (pass, some record)

/-- Compiles a module, or marks it as failed. Gives the modules that it imports. -/
def compileOrFail (tools : Toolchain) (pass : Pass) (specifier : Specifier)
    (record : ModuleRecord) : Pass × List Specifier :=
  match pass.build tools record with
  | (.error error, pass) => (pass.fail specifier error, [])
  | (.ok targets, pass) => (pass, targets)

/-- Compiles a module that was just claimed, if it needs to be. Gives the modules to go on with. -/
def visit (tools : Toolchain) (options : CompileOptions) (pass : Pass) (specifier : Specifier)
    (isForced : Bool) : Pass × List Specifier :=
  match pass.claim specifier isForced with
  | (pass, none) => (pass, [])
  | (pass, some record) =>
    let (pass, targets) := pass.compileOrFail tools specifier record
    (pass, if options.ignoreDependencies then [] else targets)

/-- Visits specifiers in order, each followed by what it imports; `claimed` holds those visited
before, the latest first. Also gives all that were visited, first ones first. It ends because only a
module that has a source leads on to others. -/
def visitAll (tools : Toolchain) (options : CompileOptions) (claimed : List Specifier) (pass : Pass)
    (work : List (Specifier × Bool)) : Pass × List Specifier :=
  match work with
  | [] => (pass, claimed.reverse)
  | (specifier, isForced) :: rest =>
    if _fresh : specifier ∈ claimed then visitAll tools options claimed pass rest
    else
      let (pass, targets) := pass.visit tools options specifier isForced
      match _found : tools.sources.get? specifier with
      | none => visitAll tools options (specifier :: claimed) pass rest
      | some _ =>
        visitAll tools options (specifier :: claimed) pass (targets.map (·, false) ++ rest)
termination_by (freshCount tools.sources.keys claimed, work.length)
decreasing_by
  · exact Prod.Lex.right _ (by simp)
  · rcases Nat.lt_or_eq_of_le (freshCount_cons_le tools.sources.keys claimed specifier) with less | same
    · exact Prod.Lex.left _ _ less
    · rw [same]
      exact Prod.Lex.right _ (by simp)
  · exact Prod.Lex.left _ _ (freshCount_cons_lt (OrderedMap.mem_keys_of_get? _found) _fresh)

/-- Settles one module: with its staged code if there is some, and not at all if it is up to date. -/
def settleOne (pass : Pass) (report : PassReport) (specifier : Specifier) : Pass × PassReport :=
  if pass.errors.contains specifier then (pass, report)
  else
    let pass := pass.setGraph (pass.workspace.graph.updateEntryFlag specifier)
    let staged? := pass.staged.get? specifier
    if staged?.isNone && pass.workspace.graph.isSettled specifier then
      (pass, { report with missing := report.missing ++ pass.workspace.missing specifier })
    else
      let (refreshed?, workspace) := pass.workspace.refresh specifier staged?
      let pass := { pass with workspace }
      match refreshed? with
      | .error error => (pass.fail specifier (.artifact error), report)
      | .ok none => (pass, report)
      | .ok (some refreshed) =>
        (pass,
          { report with
            writes := report.writes + refreshed.writes
            missing := report.missing ++ refreshed.missing
            changed :=
              if refreshed.hashChanged then report.changed ++ [specifier] else report.changed })

/-- The outcome of each touched module: its error, or else its record if it has one. -/
def outcomes (pass : Pass) (touched : List Specifier) :
    OrderedMap Specifier (Except ModuleError ModuleRecord) :=
  touched.foldl (fun outcomes specifier =>
    match pass.errors.get? specifier, pass.workspace.graph.get? specifier with
    | some error, _ => outcomes.insert specifier (.error error)
    | none, some record => outcomes.insert specifier (.ok record)
    | none, none => outcomes) .empty

/-- Settles all touched modules in the order in which they were claimed. -/
def settle (pass : Pass) (touched : List Specifier) : PassReport × Workspace :=
  let (pass, report) :=
    touched.foldl (fun (pass, report) specifier => pass.settleOne report specifier) (pass, {})
  ({ report with
      outcomes := pass.outcomes touched
      transpiled := pass.transpiled
      reused := pass.reused
      loads := pass.loads.reverse
      transpilerCalls := pass.transpilerCalls.reverse }, pass.workspace)

end Pass

end ModuleBuild
