import ModuleBuild.Proofs.Compile.FreshBuild
import ModuleBuild.Proofs.Compile.Leftovers
import ModuleBuild.Proofs.Compile.Provenance
import ModuleBuild.Proofs.Graph.Fingerprint
/-!
When content hashes address code. Code carries tokens of the modules that it imports. Where all of them are
loaded, the content hash of a module stands for its code, in whatever way a compiler came to it. Where one is
not loaded, its token is left over from earlier times, while the content hash does not see it.
-/

namespace ModuleBuild

open ModuleGraph Workspace ArtifactStore Pass Relation ContentHash

/-- What was folded for the content hash of a module after any of some calls. -/
def FoldedOver (start : Workspace) (calls : List (Toolchain × Call)) (specifier : Specifier)
    (input : Bytes) : Prop :=
  ∃ earlier, earlier <+: calls ∧ input ∈ (start.performAll earlier).graph.hashInputs specifier

/-- Hashes tell apart all that is hashed, and no source is what is folded for a content hash. -/
structure HashedApart (sources inputs : Bytes → Prop) : Prop where
  collisionFree : ∀ one two, sources one ∨ inputs one → sources two ∨ inputs two →
    Blake3.hex one = Blake3.hex two → one = two
  unforged : ∀ bytes, sources bytes → ¬ inputs bytes

theorem HashedApart.unconfused {sources inputs : Bytes → Prop} (apart : HashedApart sources inputs) :
    Unconfused (fun hash => ∃ bytes, sources bytes ∧ hash = sourceHash bytes) inputs where
  collisionFree one two noted noted' := apart.collisionFree one two (.inr noted) (.inr noted')
  apart := by
    rintro _ input ⟨bytes, source, rfl⟩ noted same
    obtain rfl := apart.collisionFree bytes input (.inl source) (.inr noted) same
    exact apart.unforged bytes source noted

variable {known : Toolchain → Prop} {modules leaf : Specifier → Prop}
  {past present : Workspace} {specifier : Specifier} {record : ModuleRecord}

theorem FromSources.sourced {graph : ModuleGraph} (from? : FromSources known modules graph) :
    Walk.Sourced (fun hash => ∃ bytes, IsSource known modules bytes ∧ hash = sourceHash bytes) graph := by
  intro specifier source targets view
  obtain ⟨record, found, folds, rfl, -⟩ := foldView?_eq_some view
  obtain ⟨bytes, source, same⟩ := from? specifier record found folds
  exact ⟨⟨bytes, source, same⟩, same ▸ Blake3.length_hex bytes⟩

theorem Sound.folds_or_leaf (sound : Sound known modules leaf present)
    (ready : present.graph.IsReady specifier) :
    (present.graph.foldView? specifier).isSome = true ∨ leaf specifier := by
  obtain ⟨record, found, ready⟩ := ready
  refine (sound.folds_or_left found ready).imp (fun folds => ?_) And.left
  rw [foldView?_of_get? found folds]
  rfl

theorem Sound.foldView?_of_leaf (scope : Scope known modules leaf) (sound : Sound known modules leaf past)
    (isLeaf : leaf specifier) : past.graph.foldView? specifier = none := by
  cases found : past.graph.get? specifier with
  | none => simp [foldView?, found]
  | some record =>
    obtain ⟨_, rfl⟩ := (sound.record found).leftAlone scope isLeaf
    simp [foldView?, found, ModuleRecord.folds, ModuleRecord.external]

/-- Everything that a module leads to is ready. -/
def LoadedBelow (graph : ModuleGraph) (specifier : Specifier) : Prop :=
  ∀ other, ReflTransGen graph.FoldsInto specifier other → graph.IsReady other

/-- Where all that a module leads to is loaded, no other workspace folds more of it. -/
theorem folded_sublist (scope : Scope known modules leaf) (sound : Sound known modules leaf present)
    (sound' : Sound known modules leaf past)
    (loaded : LoadedBelow present.graph specifier)
    {other : Specifier} {source : String} {targets targets' : List Specifier}
    (reached : ReflTransGen present.graph.FoldsInto specifier other)
    (view : present.graph.foldView? other = some (source, targets))
    (view' : past.graph.foldView? other = some (source, targets')) :
    (past.graph.folded targets').Sublist (present.graph.folded targets) := by
  obtain ⟨record, found, folds, own, same⟩ := foldView?_eq_some view
  obtain ⟨record', found', folds', own', same'⟩ := foldView?_eq_some view'
  obtain ⟨_, there, ready⟩ := loaded other reached
  obtain rfl := Option.some.inj (found.symm.trans there)
  obtain ⟨member, image, ⟨tools, used, is⟩, compiled⟩ := sound.compiled_of_folds found ready folds
  cases sound'.record found' with
  | left _ left =>
    obtain ⟨_, rfl⟩ := left
    cases folds'
  | awaiting _ blank =>
    rw [blank] at folds'
    cases folds'
  | failed _ failed =>
    rw [ModuleRecord.staticDependencies, failed.edges] at same'
    rw [← same']
    exact List.nil_sublist _
  | @compiled image' _ known' compiled' =>
    have sources : image'.source = image.source := by
      rw [← compiled.describes.source, ← compiled'.describes.source, own, own']
    obtain rfl := scope.image_eq used member is known' sources
    have all : targets' = targets := by
      rw [← same, ← same', ModuleRecord.staticDependencies, ModuleRecord.staticDependencies,
        compiled.describes.edges, compiled'.describes.edges]
    subst all
    have fewer : past.graph.folded targets' =
        (present.graph.folded targets').filter fun target => (past.graph.foldView? target).isSome := by
      rw [folded, folded, List.filter_filter]
      refine List.filter_congr fun target inside => ?_
      have ready := loaded target (reached.tail ⟨_, _, view, inside⟩)
      rcases sound.folds_or_leaf ready with folds | isLeaf
      · simp [folds]
      · simp [sound'.foldView?_of_leaf scope isLeaf]
    rw [fewer]
    exact List.filter_sublist

theorem DatesFrom.artifact (dates : DatesFrom past present specifier record)
    (found : present.graph.get? specifier = some record) (indexed : past.graph.Indexed)
    (inOrder : past.store.faults = .empty) (inOrder' : present.store.faults = .empty) :
    ∃ code, (past.artifact specifier).1 = .ok (some code) ∧
      (present.artifact specifier).1 = .ok (some code) := by
  obtain ⟨old, isEntry, was, rfl, blobs⟩ := dates.keeps
  obtain ⟨code, has, -⟩ := (dates.consistent old was).hasCode
  obtain rfl := indexed.keyed was
  have has' : HasCode present.store (old.withEntry isEntry) code := has.congr blobs
  exact ⟨code, has.artifact inOrder was, has'.artifact inOrder' found⟩

theorem folds_of_isSome {graph : ModuleGraph} (found : graph.get? specifier = some record)
    (folds : (graph.foldView? specifier).isSome = true) : record.folds := by
  obtain ⟨_, view⟩ := Option.isSome_iff_exists.1 folds
  obtain ⟨_, there, folds, -⟩ := foldView?_eq_some view
  exact Option.some.inj (found.symm.trans there) ▸ folds

theorem contentHash?_of_isCurrent {graph : ModuleGraph} (indexed : graph.Indexed)
    (found : graph.get? specifier = some record) (folds : (graph.foldView? specifier).isSome = true)
    (current : graph.isCurrent record = true) :
    graph.contentHash? specifier = some record.contentHash := by
  obtain ⟨_, view⟩ := Option.isSome_iff_exists.1 folds
  obtain ⟨imports, hashed⟩ := contentHash?_eq_some view
  rw [isCurrent, indexed.keyed found, hashed, Option.getD_some, beq_iff_eq] at current
  rw [hashed, current]

/-- A module is as it was when it was consistent, and content hashes see it. -/
theorem DatesFrom.compiled (dates : DatesFrom past present specifier record)
    (sound : Sound known modules leaf past) (ready : record.isReady) (folds : record.folds) :
    ∃ old image, past.graph.get? specifier = some old ∧ Consistent past.graph past.store old ∧
      past.graph.contentHash? specifier = some record.contentHash ∧ record.output? = old.output? ∧
      modules specifier ∧ KnownImage known specifier image ∧ IsCompiled past.store image old ∧
      Describes image record := by
  obtain ⟨old, isEntry, was, rfl, -⟩ := dates.keeps
  have consistent := dates.consistent old was
  obtain ⟨own, image, is, compiled⟩ := sound.compiled_of_folds was ready folds
  have hashed := consistent.hashed
  rw [sound.indexed.keyed was] at hashed
  exact ⟨old, image, was, consistent, hashed, rfl, own, is, compiled,
    (old.revises_withEntry isEntry).describes compiled.describes⟩

theorem FoldedOver.mono {start : Workspace} {earlier calls : List (Toolchain × Call)} {input : Bytes}
    (folded : FoldedOver start earlier specifier input) (first : earlier <+: calls) :
    FoldedOver start calls specifier input := by
  obtain ⟨most, initial, member⟩ := folded
  exact ⟨most, initial.trans first, member⟩

/-- Two workspaces agree on the source hashes and the content hashes of all that a module leads to. -/
def AgreesBelow (present past : Workspace) (specifier : Specifier) : Prop :=
  ∀ other, ReflTransGen present.graph.FoldsInto specifier other →
    (present.graph.foldView? other).isSome = true →
    (past.graph.foldView? other).map Prod.fst = (present.graph.foldView? other).map Prod.fst ∧
      past.graph.contentHash? other = present.graph.contentHash? other

section Below

variable {roots : List Specifier} (coherent : Coherent known roots) {first second : Workspace}
  {calls calls' : List (Toolchain × Call)} (history : IsHistory known roots first calls)
  (history' : IsHistory known roots second calls')
  (loaded : LoadedBelow (first.performAll calls).graph specifier) {inputs : Bytes → Prop}
  (apart : HashedApart (IsSource known (Reached known roots · false)) inputs)
  (noted : ∀ input, FoldedOver first calls specifier input → inputs input)
  (noted' : ∀ input, FoldedOver second calls' specifier input → inputs input)

include coherent history history' loaded apart noted noted'

/-- Where all that a module leads to is loaded, its content hash stands for the source hashes and the content
hashes of all of it. -/
theorem agreesBelow {hash : String}
    (hashed : (first.performAll calls).graph.contentHash? specifier = some hash)
    (hashed' : (second.performAll calls').graph.contentHash? specifier = some hash) :
    AgreesBelow (first.performAll calls) (second.performAll calls') specifier := by
  obtain ⟨sound, -⟩ := history.sound coherent
  obtain ⟨sound', -⟩ := history'.sound coherent
  obtain ⟨from?, -⟩ := history.provenance coherent
  obtain ⟨from?', -⟩ := history'.provenance coherent
  exact fun other reached folds => contentHash?_eq_below apart.unconfused
    (fun _ _ _ _ => folded_sublist coherent.scope sound sound' loaded) from?.sourced from?'.sourced
    (fun input member => noted input ⟨calls, List.prefix_rfl, member⟩)
    (fun input member => noted' input ⟨calls', List.prefix_rfl, member⟩) hashed hashed' reached folds

end Below

/-- If two workspaces agree with a third one on all that a module leads to, then they agree on its code. -/
theorem agree_of_agreesBelow (scope : Scope known modules leaf) (sound : Sound known modules leaf present)
    {first second : Workspace} (sound' : Sound known modules leaf first)
    (sound'' : Sound known modules leaf second) (loaded : LoadedBelow present.graph specifier)
    (below : AgreesBelow present first specifier) (below' : AgreesBelow present second specifier)
    (own : modules specifier) {image : Image} (is : KnownImage known specifier image)
    (found : present.graph.get? specifier = some record) (describes : Describes image record)
    {one two : ModuleRecord} (there : first.graph.get? specifier = some one)
    (there' : second.graph.get? specifier = some two) (compiled : IsCompiled first.store image one)
    (compiled' : IsCompiled second.store image two) (consistent : Consistent first.graph first.store one)
    (consistent' : Consistent second.graph second.store two) : Agree first second specifier := by
  have view := describes.foldView? found
  have reached {edge : DependencyEdge} (inside : edge ∈ image.edges) (static : edge.isDynamic = false) :
      ReflTransGen present.graph.FoldsInto specifier edge.target :=
    .single ⟨_, _, view, List.mem_map.2 ⟨edge, List.mem_filter.2 ⟨inside, by simp [static]⟩, rfl⟩⟩
  have hash := (below' _ .refl (by simp [view])).2.trans (below _ .refl (by simp [view])).2.symm
  refine agree_of_compiled sound'.store.inOrder sound''.store.inOrder there there'
    (sound'.indexed.keyed there) (sound''.indexed.keyed there') compiled compiled' consistent consistent' hash
    (fun edge inside static => ?_) (image.stamped_slots sound'.hasTokens fun edge inside slot holds => ?_)
  · rcases sound.folds_or_leaf (loaded _ (reached inside static)) with folds | isLeaf
    · exact (below' _ (reached inside static) folds).2.trans (below _ (reached inside static) folds).2.symm
    · rw [contentHash?_eq_none (sound'.foldView?_of_leaf scope isLeaf),
        contentHash?_eq_none (sound''.foldView?_of_leaf scope isLeaf)]
  · obtain ⟨static, item, listed, target, compiledToo⟩ := image.of_slot inside holds
    obtain ⟨tools, used, is⟩ := is
    have member : modules edge.target := target ▸ scope.imports used own is listed compiledToo
    have folds := (sound.folds_or_leaf (loaded _ (reached inside static))).resolve_right (scope.apart member)
    have seen := (below _ (reached inside static) folds).1
    intro absent
    rw [absent, Option.map_none, eq_comm, Option.map_eq_none_iff] at seen
    rw [seen] at folds
    cases folds

/-- Let two histories of one compiler, whatever was edited, leave a module ready under one content hash. If in
one of them the hash is current and all modules that the static imports of the module lead to are ready, then
both have the same code of it. -/
theorem artifact_eq_of_contentHash {known : Toolchain → Prop} {roots : List Specifier}
    (coherent : Coherent known roots) {first second : Workspace} {calls calls' : List (Toolchain × Call)}
    (history : IsHistory known roots first calls) (history' : IsHistory known roots second calls')
    {specifier : Specifier}
    (apart : HashedApart (IsSource known (Reached known roots · false))
      fun input => FoldedOver first calls specifier input ∨ FoldedOver second calls' specifier input)
    {one two : ModuleRecord} (found : (first.performAll calls).graph.get? specifier = some one)
    (found' : (second.performAll calls').graph.get? specifier = some two) (ready : one.isReady)
    (ready' : two.isReady) (same : two.contentHash = one.contentHash)
    (current : (first.performAll calls).graph.isCurrent one = true)
    (loaded : LoadedBelow (first.performAll calls).graph specifier) :
    two.output? = one.output? ∧ ∃ code?, ((first.performAll calls).artifact specifier).1 = .ok code? ∧
      ((second.performAll calls').artifact specifier).1 = .ok code? ∧
      (one.isExternal = false → code? ≠ none) := by
  have scope := coherent.scope
  obtain ⟨sound, setup⟩ := history.sound coherent
  obtain ⟨sound', setup'⟩ := history'.sound coherent
  rcases sound.folds_or_leaf ⟨one, found, ready⟩ with folds | isLeaf
  · have hashed := contentHash?_of_isCurrent sound.indexed found folds current
    have folds := folds_of_isSome found folds
    obtain ⟨own, -⟩ := sound.compiled_of_folds found ready folds
    have folds' := folds_of_isSome found'
      ((sound'.folds_or_leaf ⟨two, found', ready'⟩).resolve_right (scope.apart own))
    -- what is there now dates from earlier times in both histories
    obtain ⟨earlier, initial, dates⟩ := (history.provenance coherent).2 specifier one found ready folds
    obtain ⟨earlier', initial', dates'⟩ := (history'.provenance coherent).2 specifier two found' ready' folds'
    have past := history.of_prefix initial
    have past' := history'.of_prefix initial'
    obtain ⟨sound₁, -⟩ := past.sound coherent
    obtain ⟨sound₂, -⟩ := past'.sound coherent
    obtain ⟨old, image, was, consistent, hashed₁, output, -, is, compiled, describes⟩ :=
      dates.compiled sound₁ ready folds
    obtain ⟨old', image', was', consistent', hashed₂, output', -, is', compiled', -⟩ :=
      dates'.compiled sound₂ ready' folds'
    have below := agreesBelow coherent history past loaded apart (fun _ => .inl)
      (fun _ folded => .inl (folded.mono initial)) hashed hashed₁
    have below' := agreesBelow coherent history past' loaded apart (fun _ => .inl)
      (fun _ folded => .inr (folded.mono initial')) hashed (same ▸ hashed₂)
    have view := describes.foldView? found
    have sources : image'.source = image.source := by
      have seen := (below' _ .refl (by simp [view])).1
      rw [view, compiled'.describes.foldView? was'] at seen
      exact Option.some.inj seen
    -- one source hash means one image, even across the two histories
    obtain ⟨tools, used, image?⟩ := id is
    obtain rfl := scope.image_eq used own image? is' sources
    have agree := agree_of_agreesBelow scope sound sound₁ sound₂ loaded below below' own is found describes
      was was' compiled compiled' consistent consistent'
    obtain ⟨code, before, after⟩ :=
      dates.artifact found sound₁.indexed sound₁.store.inOrder sound.store.inOrder
    obtain ⟨code', before', after'⟩ :=
      dates'.artifact found' sound₂.indexed sound₂.store.inOrder sound'.store.inOrder
    obtain rfl : code' = code := by simpa [before, before'] using agree.artifact
    obtain ⟨_, _, there, there', -, -, -, -, outputs⟩ := agree.record
    obtain rfl := Option.some.inj (was.symm.trans there)
    obtain rfl := Option.some.inj (was'.symm.trans there')
    exact ⟨output'.trans (outputs.trans output.symm), some code', after, after', fun _ => nofun⟩
  · have left := (sound.record found).leftAlone scope isLeaf
    have left' := (sound'.record found').leftAlone scope isLeaf
    have none := left.artifact found
    have none' := left'.artifact found'
    obtain ⟨_, rfl⟩ := left
    obtain ⟨_, rfl⟩ := left'
    exact ⟨rfl, _, none, none', nofun⟩

/-- Following a source that is gone takes its module out. Of the code of others only tokens of imports that
still have hashes change. -/
theorem Sound.sourceChanged_gone {known : Toolchain → Prop} {modules leaf : Specifier → Prop}
    (scope : Scope known modules leaf) {before : Workspace} (sound : Sound known modules leaf before)
    (readable : before.store.Readable modules leaf) {tools : Toolchain} (used : known tools)
    {changed : Specifier} (own : modules changed) {gone : ModuleRecord}
    (was : before.graph.get? changed = some gone) (absent : tools.sources.get? changed = none) :
    let after := (before.sourceChanged tools changed).2
    after.graph.get? changed = none ∧
      ∀ specifier record code, modules specifier → specifier ≠ changed →
        before.graph.get? specifier = some record → HasCode before.store record code →
        ∃ result written, after.graph.get? specifier = some result ∧ HasCode after.store result written ∧
          AgreeOutside (stampSlots after.graph record.dependencies) code written := by
  -- a module that has a record and no source is not passed over but taken out
  rcases sourceChanged_ok scope sound readable used changed with
    ⟨none, -⟩ | ⟨touched, errors, passed, middle, compiled, reaches, -, ⟨-, stays⟩ | ⟨removed, -, -, record,
      found, failed⟩, same⟩
  · cases none.symm.trans was
  · cases (stays own absent).symm.trans was
  have start := compiled.sound scope sound used
  have sound' := (start.remove scope own found failed.output).1
  rw [← removed] at sound'
  rw [remove_eq start.store.inOrder found failed.output] at removed
  have repair := propagate_ok scope sound' changed
  have within := fun other => @Sound.module_of_affected _ _ _ _ sound' changed other
  have alone {specifier : Specifier} (differ : specifier ≠ changed) : specifier ∉ touched := by
    intro member
    obtain ⟨item, listed, leads⟩ := reaches.cited specifier member
    obtain rfl := List.mem_singleton.1 listed
    rcases ReflTransGen.cases_head leads with same | ⟨_, ⟨-, image, is, -⟩, -⟩
    · exact differ same.symm
    · exact Toolchain.sources_of_image? is absent
  rw [same]
  generalize middle.propagate changed = result at repair ⊢
  obtain ⟨propagation, after⟩ := result
  obtain ⟨-, steps, -⟩ := repair
  refine ⟨?_, fun specifier record code ownToo differ there has => ?_⟩
  · rw [steps.get?_other fun member => ((mem_affected sound'.indexed).1 member).1 rfl, removed]
    exact (get?_erase _ _ _).trans (if_pos rfl)
  · obtain ⟨grows, -, sameOwn⟩ := compiled.outside specifier (alone differ)
    obtain rfl := sound.indexed.keyed there
    have kept : middle.graph.get? record.specifier = some record := by
      rw [removed]
      exact (get?_erase _ _ _).trans ((if_neg (Ne.symm differ)).trans (grows.get?_of_get? there))
    have has' : HasCode middle.store record code := by
      rw [removed]
      exact has.congr (sameOwn ownToo).blobs
    obtain ⟨result, written, located, -, -, held, agree⟩ :=
      steps.hasCode_stamped scope.distinct within ownToo kept rfl has'
    refine ⟨result, written, located, held, ?_⟩
    rw [stampSlots_congr _ steps.contentHash?]
    exact agree

section Dangling

/-- A module that imports another one, which has no source. -/
def dangling : Toolchain where
  sources := OrderedMap.empty.insert ⟨"app:a"⟩ (.source ⟨[], .javaScript⟩)
  transpiler := fun specifier code _ => .ok
    { code
      imports := if specifier = ⟨"app:d"⟩ then [] else [⟨"app:d", false, some ⟨0, 0⟩⟩]
      hasSideEffects := false }

def attached : Toolchain := dangling.edited ⟨"app:d"⟩ (some (.source ⟨[], .javaScript⟩))

def IsDangling (version : Toolchain) : Prop := version = dangling ∨ version = attached

def danglingRoots : List Specifier := [⟨"app:a"⟩]

def danglingModules : List Specifier := [⟨"app:a"⟩, ⟨"app:d"⟩]

def importerImage : Image where
  bytes := []
  kind := .javaScript
  code := []
  hasSideEffects := false
  imports := [(⟨"app:d", false, some ⟨0, 0⟩⟩, ⟨⟨"app:d"⟩, false⟩)]

def importedImage : Image := { importerImage with imports := [] }

theorem image?_importer {tools : Toolchain} (is : IsDangling tools) :
    tools.image? ⟨"app:a"⟩ = .ok importerImage := by
  rcases is with rfl | rfl <;> rfl

theorem image?_imported : attached.image? ⟨"app:d"⟩ = .ok importedImage := rfl

theorem emission_importerImage :
    importerImage.emission = ⟨"/_kiln/-/app/d.js?v=0000000000000000".toList, [some ⟨20, 16⟩]⟩ := by
  simp only [Image.emission, Emission.ofEdits, Emission.inOrder, importerImage, editOf?,
    List.filterMap_cons, Option.map_some, List.filterMap_nil, List.zipIdx_cons, List.zipIdx_nil,
    List.mergeSort_singleton]
  rfl

theorem edges_importerImage : importerImage.edges = [⟨⟨"app:d"⟩, false, some ⟨20, 16⟩⟩] := by
  rw [Image.edges, emission_importerImage]
  rfl

/-- Nothing is written into the code of the importer while its import has no hash. -/
theorem stampSlots_importerImage {graph : ModuleGraph} (absent : graph.foldView? ⟨"app:d"⟩ = none) :
    stampSlots graph importerImage.edges = [] := by
  simp [stampSlots, stamp?, edges_importerImage, contentHash?_eq_none absent]

theorem closed_dangling (tools : Toolchain) (is : IsDangling tools) : ∀ importer ∈ danglingModules,
    ∀ item ∈ tools.resolutions importer,
      item.2.isExternal = false ∧ item.2.specifier ∈ danglingModules := by
  rcases is with rfl | rfl <;> decide

theorem load_dangling (tools : Toolchain) (specifier : Specifier) (loaded : Source)
    (is : IsDangling tools) (load : tools.sources.load specifier = .ok loaded) :
    loaded = ⟨[], .javaScript⟩ := by
  refine SourceTree.eq_of_load (fun entry there => ?_) load
  rcases is with rfl | rfl <;>
    simp only [attached, dangling, Toolchain.edited, OrderedMap.get?_insert, OrderedMap.get?_empty]
      at there <;>
    grind

theorem coherent_dangling : Coherent IsDangling danglingRoots := by
  refine coherent_listed danglingModules (by decide) closed_dangling (by decide +kernel) load_dangling ?_
  rintro one two (rfl | rfl) (rfl | rfl) <;> exact ⟨rfl, rfl⟩

theorem reached_imported : Reached IsDangling danglingRoots ⟨"app:d"⟩ false := by
  have member : (⟨⟨"app:d", false, some ⟨0, 0⟩⟩, ⟨⟨"app:d"⟩, false⟩⟩ : FoundImport × Resolved) ∈
      dangling.resolutions ⟨"app:a"⟩ := by decide
  exact .imported (.inl rfl) (.root List.mem_cons_self) member (.inr ⟨_, image?_importer (.inl rfl)⟩)

structure FollowedDangling (tools : Toolchain) (workspace : Workspace) : Prop where
  tracks : ∃ dirty, Tracks IsDangling (Reached IsDangling danglingRoots · false)
    (Reached IsDangling danglingRoots · true) dirty tools workspace ∧ ∀ other, ¬ dirty other
  present : ∃ record, workspace.graph.get? ⟨"app:a"⟩ = some record
  keepsText : workspace.store.keepsText = false

theorem compiled_dangling {tools : Toolchain} (is : IsDangling tools) :
    ∃ touched errors, Compiled IsDangling (Reached IsDangling danglingRoots · false)
        (Reached IsDangling danglingRoots · true) (fun _ => False) tools {} {} touched errors
        (({} : Workspace).perform tools (.compile danglingRoots {})) ∧ ⟨"app:a"⟩ ∈ touched := by
  have blank : ({} : Workspace).IsBlank := ⟨rfl, rfl, rfl, rfl⟩
  have run := compileAll_ok coherent_dangling.scope blank.sound is blank.givesBack fun root member =>
    .root member
  rw [Workspace.perform]
  generalize ({} : Workspace).compileAll tools danglingRoots = result at run ⊢
  obtain ⟨report, after⟩ := result
  obtain ⟨touched, errors, compiled, reaches, -⟩ := run
  exact ⟨touched, errors, compiled, reaches.done (⟨"app:a"⟩, false) List.mem_cons_self⟩

theorem followed_compile {tools : Toolchain} (is : IsDangling tools) :
    FollowedDangling tools (({} : Workspace).perform tools (.compile danglingRoots {})) := by
  have blank : ({} : Workspace).IsBlank := ⟨rfl, rfl, rfl, rfl⟩
  obtain ⟨touched, errors, compiled, member⟩ := compiled_dangling is
  exact
    { tracks := ⟨_, .of_fresh blank.get? compiled coherent_dangling.scope blank.sound is, fun _ => id⟩
      present := compiled.get?_of_mem member
      keepsText := compiled.setup.keepsText }

/-- Compiled while its import has no source, a module has a placeholder where the token would be. -/
theorem hasCode_dangling :
    let before := ({} : Workspace).perform dangling (.compile danglingRoots {})
    before.graph.foldView? ⟨"app:d"⟩ = none ∧ ∃ record,
      before.graph.get? ⟨"app:a"⟩ = some record ∧ HasCode before.store record importerImage.artifact := by
  have blank : ({} : Workspace).IsBlank := ⟨rfl, rfl, rfl, rfl⟩
  obtain ⟨touched, errors, compiled, member⟩ := compiled_dangling (.inl rfl)
  generalize ({} : Workspace).perform dangling (.compile danglingRoots {}) = before at compiled ⊢
  have external {specifier : Specifier} (left : Reached IsDangling danglingRoots specifier true) : False := by
    cases (reached_listed danglingModules (by decide) closed_dangling left).1
  have absent : before.graph.foldView? ⟨"app:d"⟩ = none := by
    cases found : before.graph.get? ⟨"app:d"⟩ with
    | none => simp [ModuleGraph.foldView?, found]
    | some record =>
      rcases Tracks.kinds_of_fresh blank.get? compiled found with
        ⟨left, -⟩ | ⟨error, -, rfl⟩ | ⟨image, start, is, -⟩
      · exact (external left).elim
      · simp [ModuleGraph.foldView?, found, ModuleRecord.failed, ModuleRecord.awaiting, ModuleRecord.folds]
      · cases is
  refine ⟨absent, ?_⟩
  cases compiled.fresh blank.get? member with
  | left left => exact (external left).elim
  | failed _ fails => cases fails
  | @built image start record _ is source finished =>
    obtain rfl := Except.ok.inj (is.symm.trans (image?_importer (.inl rfl)))
    obtain rfl := eq_artifact_of_blobs blank.blobs source
    obtain ⟨code, output, agree⟩ := finished.code
    rw [finished.describes.edges, stampSlots_importerImage absent] at agree
    obtain rfl := agree.eq_of_nil
    exact ⟨record, finished.found, output.has⟩

namespace FollowedDangling

variable {tools : Toolchain} {workspace : Workspace}

theorem notice (followed : FollowedDangling tools workspace) (is : IsDangling tools)
    ( entry? : Option SourceEntry) (is' : IsDangling (tools.edited ⟨"app:d"⟩ entry?)) :
    FollowedDangling (tools.edited ⟨"app:d"⟩ entry?)
      (workspace.perform (tools.edited ⟨"app:d"⟩ entry?) (.notice ⟨"app:d"⟩)) := by
  obtain ⟨dirty, tracks, clean⟩ := followed.tracks
  have scope := coherent_dangling.scope
  have readable : workspace.store.Readable (Reached IsDangling danglingRoots · false)
      (Reached IsDangling danglingRoots · true) := fun kept => by simp [followed.keepsText] at kept
  have used : ∀ version ∈ tools.versions [.edit ⟨"app:d"⟩ entry?, .notice ⟨"app:d"⟩],
      IsDangling version := by
    simp [Toolchain.versions, is, is']
  obtain ⟨tracks', rooted, -⟩ := tracks_follow scope [.edit ⟨"app:d"⟩ entry?, .notice ⟨"app:d"⟩] used
    (by simp [HistoryStep.RootsPresent]) readable tracks fun root member =>
      List.mem_singleton.1 member ▸ followed.present
  obtain ⟨-, setup⟩ := sound_sourceChanged scope tracks.sound readable is' ⟨"app:d"⟩
  refine ⟨⟨_, tracks', ?_⟩, rooted _ List.mem_cons_self, setup.keepsText.trans followed.keepsText⟩
  rintro other ⟨edited | rfl, differ⟩
  · exact clean other edited
  · exact differ rfl

theorem importer (followed : FollowedDangling tools workspace) (is : IsDangling tools) :
    ∃ record, workspace.graph.get? ⟨"app:a"⟩ = some record ∧ record.isReady ∧
      IsCompiled workspace.store importerImage record ∧
      Consistent workspace.graph workspace.store record ∧
      workspace.graph.foldView? ⟨"app:a"⟩ = some (sourceHash [], [⟨"app:d"⟩]) := by
  obtain ⟨dirty, tracks, clean⟩ := followed.tracks
  obtain ⟨record, found⟩ := followed.present
  obtain ⟨compiled, ready, consistent⟩ := tracks.settled coherent_dangling.scope is clean
    (.root List.mem_cons_self) found (image?_importer is)
  have view := compiled.describes.foldView? found
  rw [edges_importerImage] at view
  exact ⟨record, found, ready, compiled, consistent, view⟩

theorem imported (followed : FollowedDangling attached workspace) :
    ∃ record, workspace.graph.get? ⟨"app:d"⟩ = some record ∧ record.isReady ∧
      workspace.graph.foldView? ⟨"app:d"⟩ = some (sourceHash [], []) := by
  obtain ⟨dirty, tracks, clean⟩ := followed.tracks
  obtain ⟨importer, found, -, compiled, -⟩ := followed.importer (.inr rfl)
  have imports : workspace.graph.Imports ⟨"app:a"⟩ ⟨"app:d"⟩ := by
    refine ⟨⟨⟨"app:d"⟩, false, some ⟨20, 16⟩⟩, ?_, rfl⟩
    rw [dependencies_of_get? found, compiled.describes.edges, edges_importerImage]
    exact List.mem_cons_self
  rcases tracks.linked _ _ imports with ⟨record, there⟩ | edited | missing
  · obtain ⟨compiled, ready, -⟩ := tracks.settled coherent_dangling.scope (.inr rfl) clean reached_imported
      there image?_imported
    exact ⟨record, there, ready, compiled.describes.foldView? there⟩
  · exact absurd edited (clean _)
  · exact absurd missing (by decide)

end FollowedDangling

def bothHashed : Bytes := Text.bytes (sourceHash []) ++ Text.bytes (sourceHash [])

theorem isSource_dangling {bytes : Bytes}
    (source : IsSource IsDangling (Reached IsDangling danglingRoots · false) bytes) : bytes = [] := by
  obtain ⟨specifier, tools, loaded, -, is, load, rfl⟩ := source
  rw [load_dangling tools specifier loaded is load]

theorem foldView?_dangling {workspace : Workspace}
    (sound : Sound IsDangling (Reached IsDangling danglingRoots · false)
      (Reached IsDangling danglingRoots · true) workspace)
    (from? : FromSources IsDangling (Reached IsDangling danglingRoots · false) workspace.graph)
    {specifier : Specifier} {source : String} {targets : List Specifier}
    (view : workspace.graph.foldView? specifier = some (source, targets)) :
    source = sourceHash [] ∧ (targets = [] ∨ specifier = ⟨"app:a"⟩ ∧ targets = [⟨"app:d"⟩]) := by
  obtain ⟨record, found, folds, own, rfl⟩ := foldView?_eq_some view
  obtain ⟨bytes, isSource, same⟩ := from? specifier record found folds
  obtain rfl := isSource_dangling isSource
  refine ⟨own.symm.trans same, ?_⟩
  cases sound.record found with
  | left _ left =>
    obtain ⟨_, rfl⟩ := left
    cases folds
  | awaiting _ blank =>
    rw [blank] at folds
    cases folds
  | failed _ failed => exact .inl (by rw [ModuleRecord.staticDependencies, failed.edges]; rfl)
  | @compiled image reached known done =>
    obtain ⟨version, is, compiled⟩ := known
    have listed := (reached_listed danglingModules (by decide) closed_dangling reached).2
    simp only [danglingModules, List.mem_cons, List.not_mem_nil, or_false] at listed
    rw [ModuleRecord.staticDependencies, done.describes.edges]
    rcases listed with rfl | rfl
    · obtain rfl := Except.ok.inj (compiled.symm.trans (image?_importer is))
      exact .inr ⟨rfl, by rw [edges_importerImage]; rfl⟩
    · rcases is with rfl | rfl
      · cases compiled
      · obtain rfl := Except.ok.inj (compiled.symm.trans image?_imported)
        exact .inl rfl

theorem foldedOver_dangling {start : Workspace} {calls : List (Toolchain × Call)}
    (history : IsHistory IsDangling danglingRoots start calls) {input : Bytes}
    (folded : FoldedOver start calls ⟨"app:a"⟩ input) : input = bothHashed := by
  obtain ⟨earlier, initial, member⟩ := folded
  have past := history.of_prefix initial
  obtain ⟨sound, -⟩ := past.sound coherent_dangling
  obtain ⟨from?, -⟩ := past.provenance coherent_dangling
  generalize start.performAll earlier = workspace at sound from? member
  cases view : workspace.graph.foldView? ⟨"app:a"⟩ with
  | none => simp [hashInputs_of_foldView?_eq_none view] at member
  | some seen =>
    obtain ⟨source, targets⟩ := seen
    obtain ⟨rfl, rfl | ⟨-, rfl⟩⟩ := foldView?_dangling sound from? view
    · simp [hashInputs_of_folded_eq_nil view rfl] at member
    · cases view' : workspace.graph.foldView? ⟨"app:d"⟩ with
      | none => simp [hashInputs_of_folded_eq_nil view (by simp [ModuleGraph.folded, view'])] at member
      | some seen =>
        obtain ⟨source, targets⟩ := seen
        obtain ⟨rfl, rfl | ⟨differ, -⟩⟩ := foldView?_dangling sound from? view'
        · rw [hashInputs_over_leaf view view' (by decide)] at member
          exact List.mem_singleton.1 member
        · exact absurd differ (by decide)

set_option maxRecDepth 20000 in
theorem hashedApart_dangling {first second : Workspace} {calls calls' : List (Toolchain × Call)}
    (history : IsHistory IsDangling danglingRoots first calls)
    (history' : IsHistory IsDangling danglingRoots second calls') :
    HashedApart (IsSource IsDangling (Reached IsDangling danglingRoots · false)) fun input =>
      FoldedOver first calls ⟨"app:a"⟩ input ∨ FoldedOver second calls' ⟨"app:a"⟩ input := by
  have differ : Blake3.hex bothHashed ≠ Blake3.hex [] := by decide +kernel
  have noted {input : Bytes}
      (folded : FoldedOver first calls ⟨"app:a"⟩ input ∨ FoldedOver second calls' ⟨"app:a"⟩ input) :
      input = bothHashed :=
    folded.elim (foldedOver_dangling history) (foldedOver_dangling history')
  refine ⟨fun one two hashed hashed' same => ?_, fun bytes source folded => ?_⟩
  · rcases hashed.imp isSource_dangling noted with rfl | rfl <;>
      rcases hashed'.imp isSource_dangling noted with rfl | rfl
    · rfl
    · exact absurd same.symm differ
    · exact absurd same differ
    · rfl
  · rw [isSource_dangling source] at folded
    rw [← noted folded] at differ
    exact differ rfl

theorem FollowedDangling.both {workspace : Workspace} (followed : FollowedDangling attached workspace) :
    ∃ record, workspace.graph.get? ⟨"app:a"⟩ = some record ∧ record.isReady ∧
      record.contentHash = foldHashes (sourceHash []) [sourceHash []] ∧
      workspace.graph.isCurrent record = true ∧ LoadedBelow workspace.graph ⟨"app:a"⟩ := by
  obtain ⟨dirty, tracks, -⟩ := followed.tracks
  obtain ⟨record, found, ready, -, consistent, view⟩ := followed.importer (.inr rfl)
  obtain ⟨imported, found', ready', view'⟩ := followed.imported
  have hashed := consistent.hashed
  rw [tracks.sound.indexed.keyed found, contentHash?_over_leaf view view' (by decide),
    Option.some.injEq] at hashed
  refine ⟨record, found, ready, hashed.symm, consistent.isCurrent, fun other leads => ?_⟩
  rcases ReflTransGen.cases_head leads with rfl | ⟨next, ⟨_, _, seen, member⟩, rest⟩
  · exact ⟨record, found, ready⟩
  obtain ⟨rfl, rfl⟩ := Prod.mk.inj (Option.some.inj (view.symm.trans seen))
  obtain rfl := List.mem_singleton.1 member
  rcases ReflTransGen.cases_head rest with rfl | ⟨next, ⟨_, _, seen', member'⟩, -⟩
  · exact ⟨imported, found', ready'⟩
  · obtain ⟨rfl, rfl⟩ := Prod.mk.inj (Option.some.inj (view'.symm.trans seen'))
    cases member'

theorem isHistory_dangling {calls : List (Toolchain × Call)} (used : ∀ call ∈ calls, IsDangling call.1)
    (rooted : ∀ call ∈ calls, ∀ root ∈ call.2.roots, root ∈ danglingRoots) :
    IsHistory IsDangling danglingRoots {} calls :=
  ⟨⟨rfl, rfl, rfl, rfl⟩, nofun, used, rooted⟩

/-- Compiling two modules at once and compiling one before the other has a source come to the same. -/
theorem artifact_eq_of_contentHash_dangling :
    let first := ({} : Workspace).performAll [(attached, .compile danglingRoots {})]
    let second := ({} : Workspace).performAll
      [(dangling, .compile danglingRoots {}), (attached, .notice ⟨"app:d"⟩)]
    ∃ one two, first.graph.get? ⟨"app:a"⟩ = some one ∧ second.graph.get? ⟨"app:a"⟩ = some two ∧
      one.isReady ∧ two.isReady ∧ two.contentHash = one.contentHash ∧
      first.graph.isCurrent one = true ∧ LoadedBelow first.graph ⟨"app:a"⟩ ∧
      two.output? = one.output? ∧ ∃ code?, (first.artifact ⟨"app:a"⟩).1 = .ok code? ∧
        (second.artifact ⟨"app:a"⟩).1 = .ok code? ∧ (one.isExternal = false → code? ≠ none) := by
  intro first second
  have history : IsHistory IsDangling danglingRoots {} [(attached, .compile danglingRoots {})] :=
    isHistory_dangling (by simp [IsDangling]) (by simp [Call.roots])
  have history' : IsHistory IsDangling danglingRoots {}
      [(dangling, .compile danglingRoots {}), (attached, .notice ⟨"app:d"⟩)] :=
    isHistory_dangling (by simp [IsDangling]) (by simp [Call.roots])
  have followed : FollowedDangling attached first := followed_compile (.inr rfl)
  have followed' : FollowedDangling attached second :=
    (followed_compile (.inl rfl)).notice (.inl rfl) _ (.inr rfl)
  obtain ⟨one, found, ready, hash, current, loaded⟩ := followed.both
  obtain ⟨two, found', ready', hash', -⟩ := followed'.both
  have same := hash'.trans hash.symm
  exact ⟨one, two, found, found', ready, ready', same, current, loaded,
    artifact_eq_of_contentHash coherent_dangling history history' (hashedApart_dangling history history')
      found found' ready ready' same current loaded⟩

theorem FollowedDangling.token {workspace : Workspace} (followed : FollowedDangling attached workspace) :
    ∃ record code token, workspace.graph.get? ⟨"app:a"⟩ = some record ∧
      record.dependencies = importerImage.edges ∧ HasCode workspace.store record code ∧
      hashToken? (sourceHash []) = some token ∧ HashSlot.content ⟨20, 16⟩ code = Text.bytes token := by
  obtain ⟨dirty, tracks, -⟩ := followed.tracks
  obtain ⟨record, found, -, compiled, consistent, -⟩ := followed.importer (.inr rfl)
  obtain ⟨imported, -, -, view⟩ := followed.imported
  obtain ⟨output, code, output?, key, stored, -, stamped⟩ := consistent.stored
  have hashed := contentHash?_of_leaf view
  obtain ⟨token, cut, -⟩ := tracks.sound.hasTokens _ _ hashed
  have edge : (⟨⟨"app:d"⟩, false, some ⟨20, 16⟩⟩ : DependencyEdge) ∈ record.dependencies := by
    rw [compiled.describes.edges, edges_importerImage]
    exact List.mem_cons_self
  exact ⟨record, code, token, found, compiled.describes.edges, ⟨output, _, output?, key, stored⟩, cut,
    stamped _ edge _ _ (by simp [stamp?, hashed, cut])⟩

/-- Where an import has no hash, the importer has the hash of its own source as content hash. -/
theorem FollowedDangling.alone {tools : Toolchain} {workspace : Workspace}
    (followed : FollowedDangling tools workspace) (is : IsDangling tools)
    (absent : workspace.graph.foldView? ⟨"app:d"⟩ = none) {record : ModuleRecord}
    (found : workspace.graph.get? ⟨"app:a"⟩ = some record) {code : Bytes}
    (has : HasCode workspace.store record code) :
    record.isReady ∧ record.contentHash = sourceHash [] ∧ workspace.graph.isCurrent record = true ∧
      record.output? = some ⟨artifactKey ⟨"app:a"⟩ (sourceHash []), importerImage.artifact.length⟩ ∧
      (workspace.artifact ⟨"app:a"⟩).1 = .ok (some code) := by
  obtain ⟨dirty, tracks, -⟩ := followed.tracks
  obtain ⟨record', there, ready, compiled, consistent, view⟩ := followed.importer is
  obtain rfl := Option.some.inj (found.symm.trans there)
  have named := tracks.sound.indexed.keyed found
  have hashed := consistent.hashed
  rw [named, contentHash?_over_absent view absent, Option.some.injEq] at hashed
  have output := compiled.output? consistent
  rw [named, ← hashed] at output
  exact ⟨ready, hashed.symm, consistent.isCurrent, output, has.artifact tracks.sound.store.inOrder found⟩

/-- A module whose import got a source that is gone again has the content hash and the key that it had at
first, and other code: the token of what it imported stays. -/
theorem sourceChanged_leaves_stale_token :
    let first := ({} : Workspace).performAll [(dangling, .compile danglingRoots {})]
    let second := ({} : Workspace).performAll [(dangling, .compile danglingRoots {}),
      (attached, .notice ⟨"app:d"⟩), (dangling, .notice ⟨"app:d"⟩)]
    Coherent IsDangling danglingRoots ∧
    HashedApart (IsSource IsDangling (Reached IsDangling danglingRoots · false)) (fun input =>
      FoldedOver {} [(dangling, .compile danglingRoots {})] ⟨"app:a"⟩ input ∨
      FoldedOver {} [(dangling, .compile danglingRoots {}), (attached, .notice ⟨"app:d"⟩),
        (dangling, .notice ⟨"app:d"⟩)] ⟨"app:a"⟩ input) ∧
    ∃ one two code code', first.graph.get? ⟨"app:a"⟩ = some one ∧
      second.graph.get? ⟨"app:a"⟩ = some two ∧ one.isReady ∧ two.isReady ∧
      first.graph.isCurrent one = true ∧ second.graph.isCurrent two = true ∧
      two.contentHash = one.contentHash ∧ two.output? = one.output? ∧
      (first.artifact ⟨"app:a"⟩).1 = .ok (some code) ∧
      (second.artifact ⟨"app:a"⟩).1 = .ok (some code') ∧ code' ≠ code := by
  intro first second
  have scope := coherent_dangling.scope
  refine ⟨coherent_dangling, hashedApart_dangling
    (isHistory_dangling (by simp [IsDangling]) (by simp [Call.roots]))
    (isHistory_dangling (by simp [IsDangling]) (by simp [Call.roots])), ?_⟩
  -- the import has no source, then it has one, then it is gone again
  have followed : FollowedDangling dangling first := followed_compile (.inl rfl)
  let middle := first.perform attached (.notice ⟨"app:d"⟩)
  have between : FollowedDangling attached middle := followed.notice (.inl rfl) _ (.inr rfl)
  have followed' : FollowedDangling dangling second := between.notice (.inr rfl) none (.inl rfl)
  obtain ⟨absent, one, found, has⟩ := hasCode_dangling
  obtain ⟨was, code, token, there, edges, has', cut, held⟩ := between.token
  obtain ⟨imported, there', -⟩ := between.imported
  obtain ⟨dirty, tracks, -⟩ := between.tracks
  obtain ⟨gone, kept⟩ := tracks.sound.sourceChanged_gone scope
    (fun kept => by simp [between.keepsText] at kept) (.inl rfl) reached_imported there' (by decide)
  obtain ⟨two, code', found', has'', agree⟩ :=
    kept _ was code (.root List.mem_cons_self) (by decide) there has'
  have absent' : second.graph.foldView? ⟨"app:d"⟩ = none := by
    have none : second.graph.get? ⟨"app:d"⟩ = none := gone
    simp [ModuleGraph.foldView?, none]
  obtain ⟨ready, hash, current, output?, artifact⟩ := followed.alone (.inl rfl) absent found has
  obtain ⟨ready', hash', current', output?', artifact'⟩ := followed'.alone (.inl rfl) absent' found' has''
  refine ⟨one, two, _, code', found, found', ready, ready', current, current', hash'.trans hash.symm,
    output?'.trans output?.symm, artifact, artifact', ?_⟩
  -- no token is written over the one that the first code lacks
  have unstamped : stampSlots second.graph was.dependencies = [] := edges ▸ stampSlots_importerImage absent'
  have same : AgreeOutside (stampSlots second.graph was.dependencies) code code' := agree
  rw [unstamped] at same
  obtain rfl := same.eq_of_nil
  rintro rfl
  rw [Image.artifact, emission_importerImage] at held
  have differ : (hashToken? (sourceHash [])).map Text.bytes ≠ some (Utf8.encode Emission.placeholder) := by
    decide +kernel
  rw [cut, Option.map_some, ← held] at differ
  exact differ (by decide +kernel)

end Dangling

end ModuleBuild
