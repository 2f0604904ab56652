import ModuleBuild.Proofs.Artifact.PlainSlots
/-!
What the compilation of one module comes to, apart from all others: its source, transpiled, with its
imports resolved. Nothing but the module's own source, the transpiler and the resolver has a part in it.
-/

namespace ModuleBuild

structure Image where
  bytes : Bytes
  kind : SourceKind
  /-- The transpiled code, before imports are written. -/
  code : List Char
  hasSideEffects : Bool
  /-- The imports with what they resolve to, in source order. -/
  imports : List (FoundImport × Resolved)

def edgeOf (item : FoundImport × Resolved) : DependencyEdge :=
  { target := item.2.specifier, isDynamic := item.1.isDynamic }

def editOf? (item : FoundImport × Resolved) : Option Edit :=
  item.1.span?.map fun span => { span, target := Pass.targetOf item.2 item.1.isDynamic }

def externalsOf (items : List (FoundImport × Resolved)) : List Specifier :=
  (items.filter (·.2.isExternal)).map (·.2.specifier)

/-- An edge with a slot comes from an import whose string is replaced by a hashed path. -/
theorem mem_assignSlots {items : List (FoundImport × Resolved)} {slots : List (Option HashSlot)}
    (hashed : Emission.Hashed (items.filterMap editOf?) slots) {edge : DependencyEdge}
    (member : edge ∈ Pass.assignSlots (items.map Prod.fst) (items.map edgeOf) slots)
    {slot : HashSlot} (own : edge.slot? = some slot) :
    ∃ item ∈ items, edge.target = item.2.specifier ∧ edge.isDynamic = item.1.isDynamic ∧
      ∃ path, Pass.targetOf item.2 item.1.isDynamic = .compiled path true := by
  induction items generalizing slots with
  | nil => simp [Pass.assignSlots] at member
  | cons item rest ih =>
    have later {slots : List (Option HashSlot)}
        (hashed : Emission.Hashed (rest.filterMap editOf?) slots)
        (member : edge ∈ Pass.assignSlots (rest.map Prod.fst) (rest.map edgeOf) slots) :
        ∃ other ∈ item :: rest, edge.target = other.2.specifier ∧
          edge.isDynamic = other.1.isDynamic ∧
          ∃ path, Pass.targetOf other.2 other.1.isDynamic = .compiled path true := by
      obtain ⟨other, inside, same⟩ := ih hashed member
      exact ⟨other, List.mem_cons_of_mem _ inside, same⟩
    -- only an import with a span uses up a slot
    cases span : item.1.span? with
    | none =>
      simp only [List.map_cons, Pass.assignSlots, span, List.mem_cons] at member
      have edit : editOf? item = none := by simp [editOf?, span]
      rw [List.filterMap_cons_none edit] at hashed
      rcases member with rfl | member
      · cases own
      · exact later hashed member
    | some range =>
      have edit : editOf? item =
          some { span := range, target := Pass.targetOf item.2 item.1.isDynamic } := by
        simp [editOf?, span]
      rw [List.filterMap_cons_some edit] at hashed
      cases slots with
      | nil =>
        simp only [List.map_cons, Pass.assignSlots, span, List.mem_cons] at member
        rcases member with rfl | member
        · cases own
        · exact later (fun i slot found => by simp at found) member
      | cons slot? slots =>
        simp only [List.map_cons, Pass.assignSlots, span, List.mem_cons] at member
        rcases member with rfl | member
        · obtain ⟨first, path, listed, target⟩ := hashed 0 slot (congrArg some own)
          obtain rfl := Option.some.inj listed
          exact ⟨item, List.mem_cons_self, rfl, rfl, path, target⟩
        · exact later (fun i slot found => hashed (i + 1) slot found) member

namespace Image

variable (image : Image)

def source : String := sourceHash image.bytes

def emission : Emission := Emission.ofEdits image.code (image.imports.filterMap editOf?)

def edges : List DependencyEdge :=
  Pass.assignSlots (image.imports.map Prod.fst) (image.imports.map edgeOf) image.emission.slots

/-- The emitted code, with placeholders in the slots. -/
def artifact : Bytes := image.emission.bytes

def externals : List Specifier := externalsOf image.imports

theorem slotsOf_edges : (slotsOf image.edges).Sublist (image.emission.slots.filterMap id) :=
  Pass.slotsOf_assignSlots (image.imports.map Prod.fst) (image.imports.map edgeOf) image.emission.slots
    fun edge member => by
      obtain ⟨item, -, rfl⟩ := List.mem_map.1 member
      rfl

theorem mem_slots {slot : HashSlot} (member : slot ∈ slotsOf image.edges) :
    some slot ∈ image.emission.slots := by
  simpa using image.slotsOf_edges.subset member

theorem fit : SlotsFit image.edges image.artifact.length := by
  have placed := Emission.placed_ofEdits image.code (image.imports.filterMap editOf?)
  exact ⟨fun slot member => placed.width slot (image.mem_slots member),
    fun slot member => placed.inside slot (image.mem_slots member),
    placed.pairwise.sublist image.slotsOf_edges⟩

theorem slotsInText : SlotsInText image.edges image.artifact := by
  refine ⟨image.fit, ⟨_, rfl⟩, fun slot member byte inside => ?_⟩
  have held := Emission.hold_ofEdits image.code (image.imports.filterMap editOf?) slot (image.mem_slots member)
  rw [artifact, emission, held.2] at inside
  exact Utf8.lt_of_mem_encode Emission.plain_placeholder inside

theorem targets_edges : image.edges.map (·.target) = image.imports.map (·.2.specifier) := by
  rw [edges, Pass.map_assignSlots _ fun _ _ => rfl, List.map_map]
  rfl

theorem mem_edges {edge : DependencyEdge} (member : edge ∈ image.edges) :
    ∃ item ∈ image.imports, item.2.specifier = edge.target := by
  have target : edge.target ∈ image.edges.map (·.target) := List.mem_map.2 ⟨edge, member, rfl⟩
  rw [targets_edges] at target
  exact List.mem_map.1 target

theorem mem_targets {item : FoundImport × Resolved} (member : item ∈ image.imports) :
    ∃ edge ∈ image.edges, edge.target = item.2.specifier := by
  have target : item.2.specifier ∈ image.edges.map (·.target) := by
    rw [targets_edges]
    exact List.mem_map.2 ⟨item, member, rfl⟩
  exact List.mem_map.1 target

theorem mem_edges_of_mem_externals {target : Specifier} (member : target ∈ image.externals) :
    ∃ edge ∈ image.edges, edge.target = target := by
  obtain ⟨item, listed, rfl⟩ := List.mem_map.1 member
  exact image.mem_targets (List.mem_filter.1 listed).1

theorem of_slot {edge : DependencyEdge} (member : edge ∈ image.edges) {slot : HashSlot}
    (own : edge.slot? = some slot) :
    edge.isDynamic = false ∧
      ∃ item ∈ image.imports, item.2.specifier = edge.target ∧ item.2.isExternal = false := by
  obtain ⟨item, inside, target, dynamic, path, hashed⟩ :=
    mem_assignSlots (Emission.hashed_ofEdits image.code _) member own
  unfold Pass.targetOf at hashed
  split at hashed
  · cases hashed
  · next compiled =>
    obtain ⟨-, static⟩ := ImportTarget.compiled.inj hashed
    refine ⟨?_, item, inside, target.symm, by simpa using compiled⟩
    rw [dynamic]
    simpa using static

theorem isHex_source : IsHex image.source := ⟨image.bytes, rfl⟩

theorem hasToken_source : HasToken image.source := image.isHex_source.hasToken

theorem source_ne : image.source ≠ "" := by
  intro empty
  have long := tokenLength_le_hex image.bytes
  rw [show Blake3.hex image.bytes = "" from empty] at long
  exact absurd long (by decide)

end Image

/-- Resolves imports in order, up to the first that has no meaning. -/
def resolveImports (resolver : Resolver) (importer : Specifier) :
    List FoundImport → List (FoundImport × Resolved) × Option ResolveError
  | [] => ([], none)
  | found :: rest =>
    match resolver.resolve (some importer) found.written with
    | .error error => ([], some error)
    | .ok resolved =>
      let (items, error?) := resolveImports resolver importer rest
      ((found, resolved) :: items, error?)

namespace Toolchain

def transpiled? (tools : Toolchain) (specifier : Specifier) :
    Except ModuleError (Source × Transpiled) :=
  match tools.sources.load specifier with
  | .error error => .error (.load error)
  | .ok loaded =>
    if !loaded.kind.isSupported then .error (.unsupportedKind specifier loaded.kind)
    else
      match Utf8.decode loaded.bytes with
      | .error fault =>
        .error (.transpile specifier (.failed s!"source is not valid UTF-8: {fault.message}" none))
      | .ok text =>
        match tools.transpiler specifier text loaded.kind with
        | .error error => .error (.transpile specifier error)
        | .ok output => .ok (loaded, output)

/-- The imports of a module that are resolved when it is compiled; none after one that fails. -/
def resolutions (tools : Toolchain) (specifier : Specifier) : List (FoundImport × Resolved) :=
  match tools.transpiled? specifier with
  | .error _ => []
  | .ok (_, output) => (resolveImports tools.resolver specifier output.imports).1

/-- The image of a module, or why it has none. -/
def image? (tools : Toolchain) (specifier : Specifier) : Except ModuleError Image :=
  match tools.transpiled? specifier with
  | .error error => .error error
  | .ok (loaded, output) =>
    match resolveImports tools.resolver specifier output.imports with
    | (_, some error) => .error (.resolve error)
    | (items, none) =>
      .ok
        { bytes := loaded.bytes
          kind := loaded.kind
          code := output.code
          hasSideEffects := output.hasSideEffects
          imports := items }

end Toolchain

theorem resolveImports_fst {resolver : Resolver} {importer : Specifier}
    {imports : List FoundImport} {items : List (FoundImport × Resolved)}
    (resolved : resolveImports resolver importer imports = (items, none)) :
    items.map Prod.fst = imports := by
  induction imports generalizing items with
  | nil =>
    obtain ⟨rfl, -⟩ := Prod.mk.inj resolved
    rfl
  | cons found rest ih =>
    rw [resolveImports] at resolved
    cases step : resolver.resolve (some importer) found.written with
    | error error => simp [step] at resolved
    | ok target =>
      simp only [step, Prod.mk.injEq] at resolved
      obtain ⟨rfl, none⟩ := resolved
      rw [List.map_cons, ih (Prod.ext rfl none)]

theorem filterMap_editOf? (found : FoundImport) (target : Resolved) :
    [(found, target)].filterMap editOf? =
      match found.span? with
      | some span => [{ span, target := Pass.targetOf target found.isDynamic }]
      | none => [] := by
  cases span : found.span? <;> simp [editOf?, span]

/-- Linking resolves the imports of a module; those that are left alone get their records on the way.
-/
theorem link_eq (resolver : Resolver) (importer : Specifier) (linked : Pass.Linked)
    (imports : List FoundImport) :
    let (items, error?) := resolveImports resolver importer imports
    let graph := (externalsOf items).foldl ModuleGraph.mentionExternal linked.graph
    Pass.link resolver importer linked imports =
      match error? with
      | some error => (.error error, graph)
      | none =>
        (.ok
          { graph
            edges := linked.edges ++ items.map edgeOf
            edits := linked.edits ++ items.filterMap editOf? }, graph) := by
  induction imports generalizing linked with
  | nil => simp [resolveImports, Pass.link, externalsOf]
  | cons found rest ih =>
    cases step : resolver.resolve (some importer) found.written with
    | error error => simp [resolveImports, Pass.link, externalsOf, step]
    | ok target =>
      have later := ih
        { graph :=
            if target.isExternal then linked.graph.mentionExternal target.specifier
            else linked.graph
          edges := linked.edges ++ [edgeOf (found, target)]
          edits := linked.edits ++ [(found, target)].filterMap editOf? }
      rw [filterMap_editOf?] at later
      simp only [resolveImports, Pass.link, step]
      revert later
      generalize resolveImports resolver importer rest = result
      obtain ⟨items, error?⟩ := result
      intro later
      refine later.trans ?_
      have graph : (externalsOf ((found, target) :: items)).foldl ModuleGraph.mentionExternal
            linked.graph =
          (externalsOf items).foldl ModuleGraph.mentionExternal
            (if target.isExternal then linked.graph.mentionExternal target.specifier
              else linked.graph) := by
        cases left : target.isExternal <;> simp [externalsOf, left]
      cases error? with
      | some error => simp only [graph]
      | none =>
        simp only [graph, ← filterMap_editOf?, List.append_assoc, ← List.filterMap_append,
          List.singleton_append, List.map_cons]

theorem link_ok {resolver : Resolver} {importer : Specifier} {imports : List FoundImport}
    {items : List (FoundImport × Resolved)}
    (resolved : resolveImports resolver importer imports = (items, none)) (graph : ModuleGraph) :
    Pass.link resolver importer { graph } imports =
      (.ok
        { graph := (externalsOf items).foldl ModuleGraph.mentionExternal graph
          edges := items.map edgeOf
          edits := items.filterMap editOf? },
        (externalsOf items).foldl ModuleGraph.mentionExternal graph) := by
  have linked := link_eq resolver importer { graph } imports
  rw [resolved] at linked
  simpa using linked

theorem link_error {resolver : Resolver} {importer : Specifier} {imports : List FoundImport}
    {items : List (FoundImport × Resolved)} {error : ResolveError}
    (resolved : resolveImports resolver importer imports = (items, some error))
    (graph : ModuleGraph) :
    Pass.link resolver importer { graph } imports =
      (.error error, (externalsOf items).foldl ModuleGraph.mentionExternal graph) := by
  have linked := link_eq resolver importer { graph } imports
  rw [resolved] at linked
  exact linked

end ModuleBuild
