import ModuleBuild.Compile.Repair
import ModuleBuild.Proofs.Artifact.PlainSlots
import ModuleBuild.Proofs.Graph.HashLocality
/-!
Writing the tokens of imports into code: which slots are written, and that each holds its token in the
end, since no slot reaches into another.
-/

namespace ModuleBuild.Workspace

/-- All content hashes of a graph can be cut into tokens that fill a slot. -/
def HasTokens (graph : ModuleGraph) : Prop :=
  ∀ specifier hash, graph.contentHash? specifier = some hash → HasToken hash

def CutsTokens (graph : ModuleGraph) : Prop :=
  ∀ specifier hash, graph.contentHash? specifier = some hash → (hashToken? hash).isSome

theorem HasTokens.cuts {graph : ModuleGraph} (tokens : HasTokens graph) : CutsTokens graph := by
  intro specifier hash hashed
  obtain ⟨token, cut, -⟩ := tokens specifier hash hashed
  rw [cut, Option.isSome_some]

theorem loaded_of_folds {record : ModuleRecord} (folds : record.folds) : record.sourceHash ≠ "" := by
  simp only [ModuleRecord.folds, Bool.and_eq_true, bne_iff_ne] at folds
  exact folds.2

/-- What holds of the hashes of sources, and of hashes made from such, holds of all content hashes. -/
theorem contentHash?_of_sources {graph : ModuleGraph} {holds : String → Prop}
    (folded : ∀ source imports, holds source → holds (foldHashes source imports))
    (sources : ∀ specifier record, graph.get? specifier = some record → record.folds →
      holds record.sourceHash) :
    ∀ specifier hash, graph.contentHash? specifier = some hash → holds hash := by
  intro specifier hash hashed
  cases view : graph.foldView? specifier with
  | none =>
    rw [ModuleGraph.contentHash?_eq_none view] at hashed
    cases hashed
  | some seen =>
    obtain ⟨record, found, folds, source, -⟩ := ModuleGraph.foldView?_eq_some view
    obtain ⟨imports, result⟩ := ModuleGraph.contentHash?_eq_some view
    rw [result, Option.some.injEq] at hashed
    exact hashed ▸ folded _ imports (source ▸ sources _ _ found folds)

theorem hasTokens_of_sources {graph : ModuleGraph}
    (sources : ∀ specifier record, graph.get? specifier = some record → record.folds →
      HasToken record.sourceHash) : HasTokens graph :=
  contentHash?_of_sources (fun _ imports token => hasToken_foldHashes token imports) sources

theorem cutsTokens_of_ascii {graph : ModuleGraph}
    (ascii : ∀ specifier record, graph.get? specifier = some record → record.folds →
      ∀ c ∈ record.sourceHash.toList, c.utf8Size = 1) : CutsTokens graph := fun specifier hash hashed =>
  hashToken?_isSome_of_ascii (@contentHash?_of_sources _ (fun hash => ∀ c ∈ hash.toList, c.utf8Size = 1)
    (fun _ imports ascii => ascii_foldHashes ascii imports) ascii specifier hash hashed)

/-- The slot that an edge has in the code of its importer, with the token that belongs there. Only
static imports of modules that take part in content hashes have one. -/
def stamp? (graph : ModuleGraph) (edge : DependencyEdge) : Option (HashSlot × Bytes) :=
  if edge.isDynamic then none
  else
    match edge.slot?, graph.contentHash? edge.target with
    | some slot, some hash => (hashToken? hash).map fun token => (slot, Text.bytes token)
    | _, _ => none

/-- The slots that are written for the edges of a module. -/
def stampSlots (graph : ModuleGraph) (edges : List DependencyEdge) : List HashSlot :=
  edges.filterMap fun edge => (stamp? graph edge).map Prod.fst

/-- Each slot that is written for an edge holds its token. -/
def Stamped (graph : ModuleGraph) (edges : List DependencyEdge) (code : Bytes) : Prop :=
  ∀ edge ∈ edges, ∀ slot token, stamp? graph edge = some (slot, token) → slot.content code = token

def missingFrom (graph : ModuleGraph) (importer : Specifier) (edges : List DependencyEdge) :
    List MissingDependency :=
  (edges.filter fun edge => (graph.get? edge.target).isNone).map fun edge => ⟨importer, edge.target⟩

def externalsFrom (graph : ModuleGraph) (edges : List DependencyEdge) : List Specifier :=
  (edges.filter fun edge => (graph.get? edge.target).any (·.isExternal)).map (·.target)

variable {graph : ModuleGraph}

theorem stamp?_congr {other : ModuleGraph} (edge : DependencyEdge)
    (same : graph.contentHash? edge.target = other.contentHash? edge.target) :
    stamp? graph edge = stamp? other edge := by
  simp only [stamp?, same]

theorem Stamped.congr {other : ModuleGraph} {edges : List DependencyEdge} {code : Bytes}
    (stamped : Stamped graph edges code)
    (same : ∀ edge ∈ edges, edge.isDynamic = false →
      other.contentHash? edge.target = graph.contentHash? edge.target) :
    Stamped other edges code := by
  intro edge member slot token stamp
  cases dynamic : edge.isDynamic with
  | true => simp [stamp?, dynamic] at stamp
  | false =>
    exact stamped edge member slot token (stamp?_congr edge (same edge member dynamic) ▸ stamp)

theorem stampSlots_congr {other : ModuleGraph} (edges : List DependencyEdge)
    (same : ∀ specifier, graph.contentHash? specifier = other.contentHash? specifier) :
    stampSlots graph edges = stampSlots other edges := by
  simp only [stampSlots, stamp?_congr _ (same _)]

theorem stamp?_eq_some {edge : DependencyEdge} {slot : HashSlot} {token : Bytes}
    (stamp : stamp? graph edge = some (slot, token)) :
    edge.isDynamic = false ∧ edge.slot? = some slot ∧
      ∃ hash text, graph.contentHash? edge.target = some hash ∧ hashToken? hash = some text ∧
        token = Text.bytes text := by
  unfold stamp? at stamp
  split at stamp
  · cases stamp
  · next static =>
    split at stamp
    · next slot' hash own target =>
      obtain ⟨text, cut, same⟩ := Option.map_eq_some_iff.1 stamp
      obtain ⟨rfl, rfl⟩ := Prod.mk.inj same
      exact ⟨by simpa using static, own, hash, text, target, cut, rfl⟩
    · cases stamp

theorem stampSlots_subset (graph : ModuleGraph) (edges : List DependencyEdge) :
    ∀ slot ∈ stampSlots graph edges, slot ∈ slotsOf edges := by
  intro slot member
  obtain ⟨edge, inside, own⟩ := List.mem_filterMap.1 member
  obtain ⟨⟨slot', token⟩, stamp, rfl⟩ := Option.map_eq_some_iff.1 own
  exact mem_slotsOf inside (stamp?_eq_some stamp).2.1

theorem token_fills (tokens : HasTokens graph) {edge : DependencyEdge} {slot : HashSlot}
    {token : Bytes} (stamp : stamp? graph edge = some (slot, token)) :
    token.length = tokenLength := by
  obtain ⟨-, -, hash, text, target, cut, rfl⟩ := stamp?_eq_some stamp
  obtain ⟨text', cut', fills⟩ := tokens _ _ target
  rw [cut, Option.some.injEq] at cut'
  rw [cut', fills]

/-- The tokens for some edges fill their slots, which lie inside code of a size. -/
def StampsFit (graph : ModuleGraph) (edges : List DependencyEdge) (size : Nat) : Prop :=
  ∀ edge ∈ edges, ∀ slot token, stamp? graph edge = some (slot, token) →
    slot.stop ≤ size ∧ token.length = slot.length

theorem StampsFit.tail {edge : DependencyEdge} {edges : List DependencyEdge} {size : Nat}
    (fit : StampsFit graph (edge :: edges) size) : StampsFit graph edges size :=
  fun other member => fit other (List.mem_cons_of_mem _ member)

theorem StampsFit.of_slotsFit {edges : List DependencyEdge} {size : Nat} (tokens : HasTokens graph)
    (fit : SlotsFit edges size) : StampsFit graph edges size := by
  intro edge member slot token stamp
  have own := mem_slotsOf member (stamp?_eq_some stamp).2.1
  exact ⟨fit.inside slot own, (token_fills tokens stamp).trans (fit.width slot own).symm⟩

def stampEdge (graph : ModuleGraph) (code : Bytes) (edge : DependencyEdge) : Bytes :=
  match stamp? graph edge with
  | some (slot, token) => slot.write code token
  | none => code

theorem contentHash?_of_external {specifier : Specifier} {record : ModuleRecord}
    (found : graph.get? specifier = some record) (left : record.isExternal) :
    graph.contentHash? specifier = none :=
  ModuleGraph.contentHash?_eq_none (by simp [ModuleGraph.foldView?, found, ModuleRecord.folds, left])

theorem contentHash?_of_absent {specifier : Specifier} (absent : graph.get? specifier = none) :
    graph.contentHash? specifier = none :=
  ModuleGraph.contentHash?_eq_none (by simp [ModuleGraph.foldView?, absent])

theorem patchEdge_eq (cuts : CutsTokens graph) (importer : Specifier) {patched : Patched}
    {edge : DependencyEdge}
    (fits : ∀ slot token, stamp? graph edge = some (slot, token) →
      slot.stop ≤ patched.code.length ∧ token.length = slot.length) :
    patchEdge graph importer patched edge = .ok
      { code := stampEdge graph patched.code edge
        isChanged := patched.isChanged || stampEdge graph patched.code edge != patched.code
        missing := patched.missing ++ missingFrom graph importer [edge]
        externals := patched.externals ++ externalsFrom graph [edge] } := by
  cases found : graph.get? edge.target with
  | none =>
    have unstamped : stamp? graph edge = none := by simp [stamp?, contentHash?_of_absent found]
    simp [patchEdge, found, stampEdge, unstamped, missingFrom, externalsFrom]
  | some target =>
    by_cases left : target.isExternal
    · have unstamped : stamp? graph edge = none := by
        simp [stamp?, contentHash?_of_external found left]
      simp [patchEdge, found, left, stampEdge, unstamped, missingFrom, externalsFrom]
    · cases dynamic : edge.isDynamic with
      | true =>
        simp [patchEdge, found, left, dynamic, stampEdge, stamp?, missingFrom, externalsFrom]
      | false =>
        cases own : edge.slot? with
        | none =>
          simp [patchEdge, found, left, dynamic, own, stampEdge, stamp?, missingFrom, externalsFrom]
        | some slot =>
          cases target' : graph.contentHash? edge.target with
          | none =>
            simp [patchEdge, found, left, dynamic, own, target', stampEdge, stamp?, missingFrom,
              externalsFrom]
          | some hash =>
            obtain ⟨token, cut⟩ := Option.isSome_iff_exists.1 (cuts _ _ target')
            have stamp : stamp? graph edge = some (slot, Text.bytes token) := by
              simp [stamp?, dynamic, own, target', cut]
            obtain ⟨inside, fills⟩ := fits slot _ stamp
            simp [patchEdge, found, left, dynamic, own, target', cut, HashSlot.patch_eq inside fills,
              stampEdge, stamp, missingFrom, externalsFrom]

theorem fits_of_patchEdge {importer : Specifier} {patched after : Patched} {edge : DependencyEdge}
    (done : patchEdge graph importer patched edge = .ok after) {slot : HashSlot} {token : Bytes}
    (stamp : stamp? graph edge = some (slot, token)) :
    slot.stop ≤ patched.code.length ∧ token.length = slot.length := by
  obtain ⟨static, own, hash, text, hashed, cut, rfl⟩ := stamp?_eq_some stamp
  cases found : graph.get? edge.target with
  | none =>
    rw [contentHash?_of_absent found] at hashed
    cases hashed
  | some target =>
    cases left : target.isExternal with
    | true =>
      rw [contentHash?_of_external found left] at hashed
      cases hashed
    | false =>
      by_contra unfit
      simp [patchEdge, found, left, static, own, hashed, cut, HashSlot.patch, unfit] at done

theorem stampEdge_of_stamp? {edge : DependencyEdge} {slot : HashSlot} {token : Bytes}
    (stamp : stamp? graph edge = some (slot, token)) (code : Bytes) :
    stampEdge graph code edge = slot.write code token := by simp [stampEdge, stamp]

theorem stampEdge_of_stamp?_eq_none {edge : DependencyEdge} (unstamped : stamp? graph edge = none)
    (code : Bytes) : stampEdge graph code edge = code := by simp [stampEdge, unstamped]

theorem length_stampEdge {edge : DependencyEdge} {code : Bytes}
    (fits : ∀ slot token, stamp? graph edge = some (slot, token) →
      slot.stop ≤ code.length ∧ token.length = slot.length) :
    (stampEdge graph code edge).length = code.length := by
  cases stamp : stamp? graph edge with
  | none => rw [stampEdge_of_stamp?_eq_none stamp]
  | some found =>
    obtain ⟨inside, fills⟩ := fits found.1 found.2 stamp
    rw [stampEdge_of_stamp? stamp]
    exact HashSlot.length_write inside fills

theorem foldlM_patchEdge (cuts : CutsTokens graph) (importer : Specifier)
    (edges : List DependencyEdge) (patched : Patched) (fit : StampsFit graph edges patched.code.length) :
    ∃ isChanged, edges.foldlM (patchEdge graph importer) patched = .ok
        { code := edges.foldl (stampEdge graph) patched.code
          isChanged
          missing := patched.missing ++ missingFrom graph importer edges
          externals := patched.externals ++ externalsFrom graph edges } ∧
      (isChanged = false →
        patched.isChanged = false ∧ edges.foldl (stampEdge graph) patched.code = patched.code) := by
  induction edges generalizing patched with
  | nil =>
    refine ⟨patched.isChanged, ?_, fun same => ⟨same, rfl⟩⟩
    simp [missingFrom, externalsFrom]
    rfl
  | cons edge edges ih =>
    have fits := fit edge List.mem_cons_self
    have length := length_stampEdge fits
    obtain ⟨isChanged, rest, kept⟩ := ih
      { code := stampEdge graph patched.code edge
        isChanged := patched.isChanged || stampEdge graph patched.code edge != patched.code
        missing := patched.missing ++ missingFrom graph importer [edge]
        externals := patched.externals ++ externalsFrom graph [edge] } (length ▸ fit.tail)
    refine ⟨isChanged, ?_, fun same => ?_⟩
    · rw [List.foldlM_cons, patchEdge_eq cuts importer fits]
      refine rest.trans ?_
      simp only [missingFrom, externalsFrom, List.append_assoc, ← List.map_append,
        ← List.filter_append, List.singleton_append, List.foldl_cons]
    · obtain ⟨unchanged, later⟩ := kept same
      simp only [Bool.or_eq_false_iff, bne_eq_false_iff_eq] at unchanged
      exact ⟨unchanged.1, by rw [List.foldl_cons, later, unchanged.2]⟩

/-- Stamping edges one after another leaves a token in each of their slots, and changes nothing else.
-/
theorem foldl_stampEdge (edges : List DependencyEdge) (code : Bytes)
    (fit : StampsFit graph edges code.length) (apart : SlotsApart edges) :
    AgreeOutside (stampSlots graph edges) code (edges.foldl (stampEdge graph) code) ∧
      Stamped graph edges (edges.foldl (stampEdge graph) code) := by
  induction edges generalizing code with
  | nil => exact ⟨.refl _ _, by simp [Stamped]⟩
  | cons edge edges ih =>
    have fits := fit edge List.mem_cons_self
    have length := length_stampEdge fits
    obtain ⟨agree, stamped⟩ := ih (stampEdge graph code edge) (length ▸ fit.tail) apart.tail
    rw [List.foldl_cons]
    cases stamp : stamp? graph edge with
    | none =>
      rw [stampEdge_of_stamp?_eq_none stamp] at agree stamped ⊢
      refine ⟨agree.mono ?_, ?_⟩
      · simp [stampSlots, stamp]
      · intro other member slot token own
        rcases List.mem_cons.1 member with rfl | later
        · rw [stamp] at own
          cases own
        · exact stamped other later slot token own
    | some found =>
      obtain ⟨slot, token⟩ := found
      obtain ⟨inside, fills⟩ := fits slot token stamp
      rw [stampEdge_of_stamp? stamp] at agree stamped ⊢
      refine ⟨⟨(HashSlot.length_write inside fills).symm.trans agree.length, ?_⟩, ?_⟩
      · intro index outside
        simp only [stampSlots, List.filterMap_cons, stamp, Option.map_some, List.forall_mem_cons]
          at outside
        rw [← agree.bytes index outside.2, HashSlot.getElem?_write inside fills, if_neg outside.1]
      · intro other member slot' token' own
        by_cases later : other ∈ edges
        · exact stamped other later slot' token' own
        obtain rfl := (List.mem_cons.1 member).resolve_right later
        obtain ⟨rfl, rfl⟩ : slot = slot' ∧ token = token' := by simpa [stamp] using own
        -- The slots of later edges, all different from this one, do not reach into its slot.
        have kept : slot.content (slot.write code token) =
            slot.content (edges.foldl (stampEdge graph) (slot.write code token)) := by
          refine HashSlot.content_congr fun index covers => agree.bytes index ?_
          intro slot' member reaches
          obtain ⟨next, inside, own⟩ := List.mem_filterMap.1 member
          obtain ⟨⟨_, token'⟩, stamp', rfl⟩ := Option.map_eq_some_iff.1 own
          refine apart other List.mem_cons_self next (List.mem_cons_of_mem _ inside) ?_ _
            (stamp?_eq_some stamp).2.1 _ (stamp?_eq_some stamp').2.1 index covers reaches
          exact fun same => later (same ▸ inside)
        rw [← kept, HashSlot.content_write inside fills]

theorem Stamped.slotsInText
    (hex : ∀ specifier hash, graph.contentHash? specifier = some hash → IsHex hash)
    {edges : List DependencyEdge} {code written : Bytes} (stamped : Stamped graph edges written)
    (fits : SlotsInText edges code) (agree : AgreeOutside (stampSlots graph edges) code written) :
    SlotsInText edges written := by
  refine fits.overwrite (stampSlots_subset graph edges) agree fun slot member byte inside => ?_
  obtain ⟨edge, listed, own⟩ := List.mem_filterMap.1 member
  obtain ⟨⟨slot', token⟩, stamp, rfl⟩ := Option.map_eq_some_iff.1 own
  obtain ⟨-, -, hash, text, target, cut, same⟩ := stamp?_eq_some stamp
  rw [stamped edge listed _ _ stamp, same] at inside
  exact (hex _ _ target).plain cut inside

/-- Patching succeeds on code that the stamps of the edges fit. -/
theorem patchEdges_ok (cuts : CutsTokens graph) {record : ModuleRecord} {code : Bytes}
    (fit : StampsFit graph record.dependencies code.length) (apart : SlotsApart record.dependencies) :
    ∃ patched, patchEdges graph record code = .ok patched ∧
      AgreeOutside (stampSlots graph record.dependencies) code patched.code ∧
      Stamped graph record.dependencies patched.code ∧
      patched.missing = missingFrom graph record.specifier record.dependencies ∧
      patched.externals = externalsFrom graph record.dependencies ∧
      (patched.isChanged = false → patched.code = code) := by
  obtain ⟨isChanged, patched, kept⟩ :=
    foldlM_patchEdge cuts record.specifier record.dependencies { code } fit
  obtain ⟨agree, stamped⟩ := foldl_stampEdge record.dependencies code fit apart
  exact ⟨_, patched, agree, stamped, List.nil_append _, List.nil_append _,
    fun same => (kept same).2⟩

theorem stampsFit_of_patchEdges (cuts : CutsTokens graph) {record : ModuleRecord} {code : Bytes}
    {patched : Patched} (done : patchEdges graph record code = .ok patched) :
    StampsFit graph record.dependencies code.length := by
  have general (edges : List DependencyEdge) (start : Patched)
      (done : edges.foldlM (patchEdge graph record.specifier) start = .ok patched) :
      StampsFit graph edges start.code.length := by
    induction edges generalizing start with
    | nil => simp [StampsFit]
    | cons edge rest ih =>
      rw [List.foldlM_cons] at done
      cases first : patchEdge graph record.specifier start edge with
      | error error =>
        rw [first] at done
        cases done
      | ok middle =>
        have fits (slot : HashSlot) (token : Bytes) (stamp : stamp? graph edge = some (slot, token)) :=
          fits_of_patchEdge first stamp
        rw [first] at done
        have later := ih middle done
        rw [patchEdge_eq cuts _ fits, Except.ok.injEq] at first
        rw [← first, length_stampEdge fits] at later
        intro other member
        rcases List.mem_cons.1 member with rfl | inside
        · exact fits
        · exact later other inside
  exact general record.dependencies { code } done

theorem patchEdge_error (cuts : CutsTokens graph) {importer : Specifier} {patched : Patched}
    {edge : DependencyEdge} {error : ArtifactError}
    (failed : patchEdge graph importer patched edge = .error error) :
    ∃ fault, error = .slotOutOfRange importer fault := by
  unfold patchEdge at failed
  split at failed
  · cases failed
  split at failed
  · cases failed
  split at failed
  · cases failed
  split at failed
  · next slot hash own hashed =>
    split at failed
    · next uncut =>
      have cut := cuts _ _ hashed
      rw [uncut] at cut
      cases cut
    · split at failed
      · cases failed
      · next fault _ => exact ⟨fault, (Except.error.inj failed).symm⟩
  · cases failed

theorem patchEdges_error (cuts : CutsTokens graph) {record : ModuleRecord} {code : Bytes}
    {error : ArtifactError} (failed : patchEdges graph record code = .error error) :
    ∃ fault, error = .slotOutOfRange record.specifier fault := by
  have general (edges : List DependencyEdge) (start : Patched)
      (failed : edges.foldlM (patchEdge graph record.specifier) start = .error error) :
      ∃ fault, error = .slotOutOfRange record.specifier fault := by
    induction edges generalizing start with
    | nil => cases failed
    | cons edge rest ih =>
      rw [List.foldlM_cons] at failed
      cases first : patchEdge graph record.specifier start edge with
      | ok middle =>
        rw [first] at failed
        exact ih middle failed
      | error error' =>
        rw [first] at failed
        exact Except.error.inj failed ▸ patchEdge_error cuts first
  exact general record.dependencies { code } failed

theorem patchEdges_of_stamped (cuts : CutsTokens graph) {record : ModuleRecord} {code : Bytes}
    (fit : StampsFit graph record.dependencies code.length)
    (stamped : Stamped graph record.dependencies code) :
    ∃ patched, patchEdges graph record code = .ok patched ∧ patched.code = code ∧
      patched.isChanged = false := by
  have steps (edges : List DependencyEdge) (patched : Patched) (same : patched.code = code)
      (unchanged : patched.isChanged = false) (fit : StampsFit graph edges code.length)
      (stamped : Stamped graph edges code) :
      ∃ result, edges.foldlM (patchEdge graph record.specifier) patched = .ok result ∧ result.code = code ∧
        result.isChanged = false := by
    induction edges generalizing patched with
    | nil => exact ⟨patched, rfl, same, unchanged⟩
    | cons edge rest ih =>
      have held : stampEdge graph code edge = code := by
        cases stamp : stamp? graph edge with
        | none => exact stampEdge_of_stamp?_eq_none stamp code
        | some found =>
          have token := stamped edge List.mem_cons_self found.1 found.2 stamp
          rw [stampEdge_of_stamp? stamp, ← token, HashSlot.write_content]
      have patch := patchEdge_eq cuts record.specifier (same ▸ fit edge List.mem_cons_self)
      rw [List.foldlM_cons, patch]
      refine ih _ (same ▸ held) ?_ fit.tail fun other member => stamped other (List.mem_cons_of_mem _ member)
      simp [unchanged, same, held]
  exact steps record.dependencies { code } rfl rfl fit stamped

end ModuleBuild.Workspace
