import ModuleBuild.Proofs.Graph.HashLocality
import ModuleBuild.Proofs.Text.Encoding
import Mathlib.Data.List.Forall2
/-!
How content hashes follow the source hashes that they fold. Two graphs that differ in the source hash of one
module are walked alike. From the moment that the walks meet this module, some module on the path has gathered
something else in one graph than in the other, and so has the result.
-/

namespace ModuleBuild

open Relation

namespace ContentHash

theorem eq_of_flatMap_bytes {first second : List String} (full : ∀ text ∈ first, text.length = 64)
    (full' : ∀ text ∈ second, text.length = 64)
    (same : first.flatMap Text.bytes = second.flatMap Text.bytes) : first = second := by
  have bytes (texts : List String) :
      texts.flatMap Text.bytes = Utf8.encode (texts.flatMap String.toList) := by
    simp only [Utf8.encode, List.flatMap_assoc]
    rfl
  rw [bytes, bytes] at same
  replace same := Utf8.encode_injective same
  induction first generalizing second with
  | nil =>
    cases second with
    | nil => rfl
    | cons text rest =>
      have long : text.toList.length = 64 := full' text List.mem_cons_self
      have size := congrArg List.length same
      simp only [List.flatMap_nil, List.length_nil, List.flatMap_cons, List.length_append] at size
      omega
  | cons text rest ih =>
    have long : text.toList.length = 64 := full text List.mem_cons_self
    cases second with
    | nil =>
      have size := congrArg List.length same
      simp only [List.flatMap_nil, List.length_nil, List.flatMap_cons, List.length_append] at size
      omega
    | cons text' rest' =>
      have long' : text'.toList.length = 64 := full' text' List.mem_cons_self
      rw [List.flatMap_cons, List.flatMap_cons] at same
      obtain ⟨own, others⟩ := List.append_inj same (long.trans long'.symm)
      rw [String.toList_injective own, ih (fun text member => full text (List.mem_cons_of_mem _ member))
        (fun text member => full' text (List.mem_cons_of_mem _ member)) others]

/-- What takes the same place in two graphs: texts as long as a hash. -/
def FullLength (first second : String) : Prop := first.length = 64 ∧ second.length = 64

theorem full_of_forall₂ {first second : List String} (full : List.Forall₂ FullLength first second) :
    (∀ text ∈ first, text.length = 64) ∧ ∀ text ∈ second, text.length = 64 := by
  induction full with
  | nil => simp
  | cons lengths _ ih =>
    exact ⟨List.forall_mem_cons.2 ⟨lengths.1, ih.1⟩, List.forall_mem_cons.2 ⟨lengths.2, ih.2⟩⟩

/-- What is hashed for a module when it is left: nothing if no imports of it count. -/
def Frame.inputs (frame : Frame) : List Bytes :=
  if frame.gathered.isEmpty then []
  else [Text.bytes frame.sourceHash ++ frame.gathered.reverse.flatMap Text.bytes]

def noting : Visitor (Fold × List Bytes) where
  enter specifier record? depth state :=
    let (fold, control) := enter specifier record? depth state.1
    ((fold, state.2), control)
  leave specifier record? state :=
    (leave specifier record? state.1,
      match state.1.path with
      | some frame :: _ => frame.inputs ++ state.2
      | _ => state.2)
  revisit specifier record? onPath state := (revisit specifier record? onPath state.1, state.2)

inductive PairedFrames : Option Frame → Option Frame → Prop
  | mk {first second : Frame} (sources : FullLength first.sourceHash second.sourceHash)
      (gathered : List.Forall₂ FullLength first.gathered second.gathered) :
      PairedFrames (some first) (some second)

/-- Different frames have different hashes if what is hashed for them does not collide. -/
theorem foldHashes_ne {first second : Frame} (paired : PairedFrames (some first) (some second))
    (collisionFree : ∀ one ∈ first.inputs, ∀ two ∈ second.inputs,
      Blake3.hex one = Blake3.hex two → one = two)
    (differ : first ≠ second) :
    foldHashes first.sourceHash first.gathered.reverse ≠
      foldHashes second.sourceHash second.gathered.reverse := by
  obtain ⟨sources, gathered⟩ := paired
  obtain ⟨source, hashes⟩ := first
  obtain ⟨source', hashes'⟩ := second
  intro same
  apply differ
  cases gathered with
  | nil =>
    have own : source = source' := same
    rw [own]
  | @cons hash hash' hashes hashes' lengths rest =>
    have full : List.Forall₂ FullLength (source :: (hash :: hashes).reverse)
        (source' :: (hash' :: hashes').reverse) :=
      .cons sources (List.rel_reverse (.cons lengths rest))
    have inputs := collisionFree _ (List.mem_singleton_self _) _ (List.mem_singleton_self _)
      (by simpa [foldHashes] using same)
    obtain ⟨long, long'⟩ := full_of_forall₂ full
    obtain ⟨own, others⟩ := List.cons.inj (eq_of_flatMap_bytes long long' inputs)
    rw [own, List.reverse_injective others]

theorem length_foldHashes {source : String} (full : source.length = 64) (hashes : List String) :
    (foldHashes source hashes).length = 64 := by
  unfold foldHashes
  split
  · exact full
  · exact Blake3.length_hex _

theorem PairedFrames.hashes {first second : Frame} (paired : PairedFrames (some first) (some second)) :
    FullLength (foldHashes first.sourceHash first.gathered.reverse)
      (foldHashes second.sourceHash second.gathered.reverse) := by
  obtain ⟨sources, -⟩ := paired
  exact ⟨length_foldHashes sources.1 _, length_foldHashes sources.2 _⟩

structure Fold.Paired (first second : Fold) : Prop where
  path : List.Forall₂ PairedFrames first.path second.path
  folded : List.Forall₂ (fun one two => one.1 = two.1 ∧ FullLength one.2 two.2) first.folded second.folded

/-- Something on the path differs in two folds, or the results do. -/
def Fold.Differ (first second : Fold) : Prop :=
  first.path ≠ second.path ∨ first.path = [] ∧ first.result? ≠ second.result?

variable {first second : Fold} {hash hash' : String}

theorem Fold.Paired.deliver (paired : first.Paired second) (full : FullLength hash hash') :
    (first.deliver hash).Paired (second.deliver hash') := by
  obtain ⟨path, folded⟩ := paired
  obtain ⟨path₁, folded₁, result₁⟩ := first
  obtain ⟨path₂, folded₂, result₂⟩ := second
  cases path with
  | nil => exact ⟨.nil, folded⟩
  | cons frames outer =>
    cases frames with
    | mk sources gathered => exact ⟨.cons ⟨sources, .cons full gathered⟩ outer, folded⟩

/-- A difference stays, whatever is delivered on top of it; and what differs makes a difference. -/
theorem Fold.differ_deliver (paired : first.Paired second)
    (differ : first.path ≠ second.path ∨ hash ≠ hash') :
    (first.deliver hash).Differ (second.deliver hash') := by
  obtain ⟨path, -⟩ := paired
  obtain ⟨path₁, folded₁, result₁⟩ := first
  obtain ⟨path₂, folded₂, result₂⟩ := second
  cases path with
  | nil => exact .inr ⟨rfl, by simpa [Fold.deliver] using differ⟩
  | cons frames outer =>
    cases frames with
    | @mk frame frame' sources gathered =>
      left
      intro same
      obtain ⟨source, hashes⟩ := frame
      obtain ⟨source', hashes'⟩ := frame'
      simp only [Fold.deliver, List.cons.injEq, Option.some.injEq, Frame.mk.injEq] at same
      obtain ⟨⟨rfl, rfl, rfl⟩, rfl⟩ := same
      rcases differ with differ | differ
      · exact differ rfl
      · exact differ rfl

theorem Fold.Paired.leave (paired : first.Paired second) (specifier : Specifier) :
    (leave specifier none first).Paired (leave specifier none second) := by
  obtain ⟨path, folded⟩ := paired
  obtain ⟨path₁, folded₁, result₁⟩ := first
  obtain ⟨path₂, folded₂, result₂⟩ := second
  cases path with
  | nil => exact ⟨.nil, folded⟩
  | cons frames outer =>
    obtain ⟨sources, gathered⟩ := frames
    have full := (PairedFrames.mk sources gathered).hashes
    exact Fold.Paired.deliver ⟨outer, .cons ⟨rfl, full⟩ folded⟩ full

theorem length_path_revisit (graph : ModuleGraph) (specifier : Specifier) (onPath : Bool) (fold : Fold) :
    (revisit specifier (graph.get? specifier) onPath fold).path.length = fold.path.length := by
  simpa [Fold.sources] using congrArg List.length (sources_revisit graph specifier onPath fold)

theorem length_path_leave {fold : Fold} {frame : Frame} {outer : List (Option Frame)}
    (path : fold.path = some frame :: outer) (specifier : Specifier) :
    (leave specifier none fold).path.length = outer.length := by
  obtain ⟨_, folded, result?⟩ := fold
  cases path
  cases outer with
  | nil => rfl
  | cons frame? outer => cases frame? <;> rfl

/-- A difference outlives the module that has it: its hash is handed on. -/
theorem Fold.Differ.leave (differ : first.Differ second) (paired : first.Paired second)
    {frame frame' : Frame} {outer outer' : List (Option Frame)} (path : first.path = some frame :: outer)
    (path' : second.path = some frame' :: outer')
    (collisionFree : ∀ one ∈ frame.inputs, ∀ two ∈ frame'.inputs,
      Blake3.hex one = Blake3.hex two → one = two) (specifier : Specifier) :
    (leave specifier none first).Differ (leave specifier none second) := by
  obtain ⟨frames, folded⟩ := paired
  obtain ⟨path₁, folded₁, result₁⟩ := first
  obtain ⟨path₂, folded₂, result₂⟩ := second
  cases path
  cases path'
  cases frames with
  | cons frames others =>
    refine Fold.differ_deliver ⟨others, .cons ⟨rfl, frames.hashes⟩ folded⟩ ?_
    have own : some frame :: outer ≠ some frame' :: outer' := differ.resolve_right (by simp)
    by_cases same : frame = frame'
    · left
      rintro rfl
      exact own (by rw [same])
    · right
      exact foldHashes_ne frames collisionFree same

theorem lookup_paired {first second : List (Specifier × String)}
    (paired : List.Forall₂ (fun one two => one.1 = two.1 ∧ FullLength one.2 two.2) first second)
    (specifier : Specifier) :
    Option.Rel FullLength (OrderedMap.lookup specifier first) (OrderedMap.lookup specifier second) := by
  induction paired with
  | nil => exact .none
  | @cons one two first second entries _ ih =>
    obtain ⟨key, hash⟩ := one
    obtain ⟨key', hash'⟩ := two
    obtain ⟨rfl, full⟩ := entries
    simp only [OrderedMap.lookup]
    split
    · exact .some full
    · exact ih

end ContentHash

open ContentHash

namespace ModuleGraph

/-- One graph is another one in which the source hash of a module has changed. -/
structure Revision (changed : Specifier) (first second : ModuleGraph) : Prop where
  folds : first.foldView? changed ≠ none
  present : ∀ specifier source targets, first.foldView? specifier = some (source, targets) →
    ∃ source', second.foldView? specifier = some (source', targets) ∧ FullLength source source' ∧
      (specifier = changed → source ≠ source')
  absent : ∀ specifier, first.foldView? specifier = none → second.foldView? specifier = none

variable {changed : Specifier} {first second : ModuleGraph}

theorem Revision.revisit (revision : Revision changed first second) {fold fold' : Fold}
    (paired : fold.Paired fold') (specifier : Specifier) (onPath : Bool) :
    (revisit specifier (first.get? specifier) onPath fold).Paired
        (revisit specifier (second.get? specifier) onPath fold') ∧
      (fold.Differ fold' → (revisit specifier (first.get? specifier) onPath fold).Differ
        (revisit specifier (second.get? specifier) onPath fold')) := by
  rw [revisit_eq, revisit_eq]
  cases view : first.foldView? specifier with
  | none =>
    rw [revision.absent specifier view]
    exact ⟨paired, id⟩
  | some found =>
    obtain ⟨source, targets⟩ := found
    obtain ⟨source', view', full, -⟩ := revision.present specifier source targets view
    rw [view']
    have frames := paired.path
    cases path : fold.path with
    | nil =>
      rw [path] at frames
      rw [List.forall₂_nil_left_iff.1 frames]
      exact ⟨paired, id⟩
    | cons frame? outer =>
      have delivers {hash hash' : String} (full : FullLength hash hash') :
          (fold.deliver hash).Paired (fold'.deliver hash') ∧
            (fold.Differ fold' → (fold.deliver hash).Differ (fold'.deliver hash')) :=
        ⟨paired.deliver full, fun differ => Fold.differ_deliver paired
          (.inl (differ.resolve_right (by simp [path])))⟩
      rw [path] at frames
      obtain ⟨frame?', outer', -, -, path'⟩ := List.forall₂_cons_left_iff.1 frames
      rw [path']
      dsimp only
      split
      · exact delivers full
      · have lookups := lookup_paired paired.folded specifier
        generalize OrderedMap.lookup specifier fold.folded = hash?,
          OrderedMap.lookup specifier fold'.folded = hash?' at lookups ⊢
        cases lookups with
        | none => exact ⟨paired, id⟩
        | some full => exact delivers full

namespace Walk

section Noting

variable {graph : ModuleGraph} {specifier : Specifier} {child : End graph .static}
  {pending : List (End graph .static)} {outer : List (Frame graph .static)} {traced : List Specifier}
  {state : Fold × List Bytes}

/-- Folding along the static imports on a path, with notes of what is hashed. -/
abbrev runNoting (path : List (Frame graph .static)) (traced : List Specifier)
    (state : Fold × List Bytes) : WalkResult (Fold × List Bytes) :=
  run graph .static noting path traced state

theorem runNoting_leave :
    runNoting (⟨specifier, []⟩ :: outer) traced state =
      runNoting outer traced (noting.leave specifier none state) := by
  rw [runNoting, run]
  rfl

theorem runNoting_met (met : child.val ∈ traced) :
    runNoting (⟨specifier, child :: pending⟩ :: outer) traced state =
      runNoting (⟨specifier, pending⟩ :: outer) traced
        (revisit child.val (graph.get? child.val)
          ((⟨specifier, pending⟩ :: outer : List (Frame graph .static)).any
            (·.specifier = child.val)) state.1, state.2) := by
  rw [runNoting, run, dif_pos met]
  rfl

theorem runNoting_idle (fresh : child.val ∉ traced) (idle : graph.foldView? child.val = none) :
    runNoting (⟨specifier, child :: pending⟩ :: outer) traced state =
      runNoting (⟨specifier, pending⟩ :: outer) (child.val :: traced) state := by
  rw [runNoting, run, dif_neg fresh]
  simp only [noting, enter_of_foldView?_eq_none idle]
  rfl

theorem runNoting_enter (fresh : child.val ∉ traced) {source : String} {targets : List Specifier}
    (view : graph.foldView? child.val = some (source, targets)) :
    runNoting (⟨specifier, child :: pending⟩ :: outer) traced state =
      runNoting (frame graph .static child.val :: ⟨specifier, pending⟩ :: outer)
        (child.val :: traced)
        ({ state.1 with path := some ⟨source, []⟩ :: state.1.path }, state.2) := by
  rw [runNoting, run, dif_neg fresh]
  simp only [noting, enter_of_foldView? view]
  rfl

theorem mem_runNoting (path : List (Frame graph .static)) (traced : List Specifier) {input : Bytes}
    (noted : input ∈ state.2) : input ∈ (runNoting path traced state).state.2 := by
  refine run_induction (fun _ state => input ∈ state.2) (fun _ => True) (fun _ _ _ _ => trivial)
    ?_ ?_ ?_ path traced state (fun _ _ _ _ => trivial) noted
  · exact fun _ _ _ _ _ _ _ kept => kept
  · intro met traced state kept
    simp only [noting]
    split
    · exact List.mem_append_right _ kept
    · exact kept
  · exact fun _ _ _ _ _ kept => kept

theorem runNoting_fold (path : List (Frame graph .static)) (traced : List Specifier) (fold : Fold)
    (inputs : List Bytes) :
    (runNoting path traced (fold, inputs)).state.1 = (runFold path traced fold).state := by
  induction path, traced, fold using runFold_induction generalizing inputs with
  | nil traced fold => rw [runNoting, run, runFold_nil]
  | leave specifier outer traced fold ih =>
    rw [runNoting_leave, runFold_leave]
    exact ih _
  | met specifier child pending outer traced fold met ih =>
    rw [runNoting_met met, runFold_met met]
    exact ih _
  | idle specifier child pending outer traced fold fresh view ih =>
    rw [runNoting_idle fresh view, runFold_idle fresh view]
    exact ih _
  | enter specifier child pending outer traced fold source targets fresh view ih =>
    rw [runNoting_enter fresh view, runFold_enter fresh view]
    exact ih _

end Noting

/-- If two walks of a graph before and after a revision meet the changed module, their results differ. -/
theorem runFold_differ (revision : Revision changed first second) (path : List (Frame first .static))
    (traced : List Specifier) (fold : Fold) (inputs : List Bytes) (other : List (Frame second .static))
    (fold' : Fold) (inputs' : List Bytes) (alike : shape other = shape path)
    (paired : fold.Paired fold') (aligned : path.length = fold.path.length)
    (differ : changed ∈ traced → fold.Differ fold')
    (collisionFree : ∀ one ∈ (runNoting path traced (fold, inputs)).state.2,
      ∀ two ∈ (runNoting other traced (fold', inputs')).state.2,
        Blake3.hex one = Blake3.hex two → one = two)
    (met : changed ∈ (runFold path traced fold).traced) :
    (runFold path traced fold).state.result? ≠ (runFold other traced fold').state.result? := by
  induction path, traced, fold using runFold_induction generalizing other fold' inputs inputs' with
  | nil traced fold =>
    rw [shape_eq_nil alike, runFold_nil, runFold_nil]
    rw [runFold_nil] at met
    have empty := List.eq_nil_of_length_eq_zero aligned.symm
    have empty' := paired.path
    rw [empty, List.forall₂_nil_left_iff] at empty'
    exact ((differ met).resolve_left (by simp [empty, empty'])).2
  -- the module that is left hands its difference on
  | leave specifier outer traced fold ih =>
    obtain ⟨outer', rfl, rest⟩ := shape_eq_leave alike
    obtain ⟨frame?, frames, path⟩ := List.exists_cons_of_length_eq_add_one aligned.symm
    have framed := paired.path
    rw [path] at framed
    obtain ⟨frame?', frames', head, tail, path'⟩ := List.forall₂_cons_left_iff.1 framed
    obtain @⟨frame, frame', sources, gathered⟩ := head
    rw [runFold_leave] at met ⊢
    rw [runFold_leave]
    rw [runNoting_leave, runNoting_leave] at collisionFree
    refine ih _ outer' _ _ rest (paired.leave specifier) ?_ (fun old => ?_) collisionFree met
    · rw [ContentHash.length_path_leave path]
      simpa [path] using aligned
    · refine (differ old).leave paired path path' (fun one noted two noted' => ?_) specifier
      refine collisionFree one (mem_runNoting outer traced ?_) two (mem_runNoting outer' traced ?_)
      · simp [noting, path, noted]
      · simp [noting, path', noted']
  | met specifier child pending outer traced fold old ih =>
    obtain ⟨child', pending', outer', rfl, same, rest⟩ := shape_eq_step alike
    rw [runFold_met old] at met ⊢
    rw [runFold_met (same ▸ old)]
    rw [runNoting_met old, runNoting_met (same ▸ old)] at collisionFree
    have onPath : (⟨specifier, pending'⟩ :: outer' : List (Frame second .static)).any
          (·.specifier = child'.val) =
        (⟨specifier, pending⟩ :: outer : List (Frame first .static)).any (·.specifier = child.val) := by
      rw [any_eq_of_shape, any_eq_of_shape, rest, same]
      rfl
    rw [onPath, same] at collisionFree ⊢
    obtain ⟨paired', differs⟩ := revision.revisit paired child.val
      ((⟨specifier, pending⟩ :: outer : List (Frame first .static)).any (·.specifier = child.val))
    refine ih _ _ _ _ rest paired' ?_ (fun old => differs (differ old)) collisionFree met
    rw [ContentHash.length_path_revisit]
    simpa using aligned
  | idle specifier child pending outer traced fold fresh view ih =>
    obtain ⟨child', pending', outer', rfl, same, rest⟩ := shape_eq_step alike
    have fresh' : child'.val ∉ traced := same ▸ fresh
    have view' : second.foldView? child'.val = none := same ▸ revision.absent _ view
    rw [runFold_idle fresh view] at met ⊢
    rw [runFold_idle fresh' view', same]
    rw [runNoting_idle fresh view, runNoting_idle fresh' view', same] at collisionFree
    refine ih _ _ _ _ rest paired (by simpa using aligned) (fun old => ?_) collisionFree met
    rcases List.mem_cons.1 old with rfl | old
    · exact absurd view revision.folds
    · exact differ old
  | enter specifier child pending outer traced fold source targets fresh view ih =>
    obtain ⟨child', pending', outer', rfl, same, rest⟩ := shape_eq_step alike
    obtain ⟨source', view', full, revised⟩ := revision.present _ source targets view
    rw [← same] at view'
    have fresh' : child'.val ∉ traced := same ▸ fresh
    rw [runFold_enter fresh view] at met ⊢
    rw [runFold_enter fresh' view']
    rw [runNoting_enter fresh view, runNoting_enter fresh' view'] at collisionFree
    rw [same] at collisionFree ⊢
    refine ih _ _ _ _ ?_ ⟨.cons ⟨full, .nil⟩ paired.path, paired.folded⟩ (by simpa using aligned)
      (fun old => .inl ?_) collisionFree met
    · rw [shape_frame, shape_frame, rest, children_static view, children_static (same ▸ view')]
      rfl
    -- the changed module brings the first difference with it
    · rcases List.mem_cons.1 old with isChanged | old
      · simp [revised isChanged.symm]
      · have apart : fold.path ≠ fold'.path :=
          (differ old).resolve_right (by rintro ⟨empty, -⟩; simp [empty] at aligned)
        exact fun same => apart (List.cons.inj same).2

theorem mem_traced_of_folds {graph : ModuleGraph} {specifier other : Specifier} (fold : Fold)
    (folds : ReflTransGen graph.FoldsInto specifier other) :
    other ∈ (runFold [frame graph .static specifier] [specifier] fold).traced := by
  have covered : Covered (graph.foldView? · = none) [frame graph .static specifier] [specifier] :=
    covered_frame (by simp)
  have unstopped (met : Specifier) (record? : Option ModuleRecord) (depth : Nat) (fold : Fold) :
      (ContentHash.visitor.enter met record? depth fold).2 ≠ .stop := by
    simp only [ContentHash.visitor, enter]
    split
    · split <;> simp
    · simp
  have cuts (met : Specifier) (depth : Nat) (fold : Fold)
      (skips : (ContentHash.visitor.enter met (graph.get? met) depth fold).2 = .skipChildren) :
      graph.foldView? met = none := by
    cases view : graph.foldView? met with
    | none => rfl
    | some found => simp [ContentHash.visitor, enter_of_foldView? view] at skips
  obtain ⟨closed, kept⟩ := run_closed ContentHash.visitor unstopped cuts _ _ fold covered
  induction folds with
  | refl => exact kept specifier (List.mem_singleton_self _)
  | tail _ step met =>
    obtain ⟨source, targets, view, member⟩ := step
    apply closed _ met (by simp [view])
    rwa [Follows, children_static view]

end Walk

/-- All that is hashed for the content hash of a module. -/
def hashInputs (graph : ModuleGraph) (specifier : Specifier) : List Bytes :=
  (graph.walk specifier .static [] noting ({}, [])).state.2

theorem walk_noting_of_foldView? {graph : ModuleGraph} {specifier : Specifier} {source : String}
    {targets : List Specifier} (view : graph.foldView? specifier = some (source, targets)) :
    graph.walk specifier .static [] noting ({}, []) =
      Walk.runNoting [Walk.frame graph .static specifier] [specifier]
        ({ path := [some ⟨source, []⟩] }, []) := by
  simp only [walk, List.not_mem_nil, if_false, noting, enter_of_foldView? view]
  rfl

theorem walk_noting_result? {graph : ModuleGraph} {specifier : Specifier} {source : String}
    {targets : List Specifier} (view : graph.foldView? specifier = some (source, targets)) :
    (graph.walk specifier .static [] noting ({}, [])).state.1.result? = graph.contentHash? specifier := by
  rw [walk_noting_of_foldView? view, contentHash?_of_foldView? view, Walk.runNoting_fold]

theorem foldView?_modify {graph : ModuleGraph} {record : ModuleRecord}
    (found : graph.get? changed = some record) (folds : record.folds) {source : String}
    (loaded : source ≠ "") (specifier : Specifier) :
    (graph.modify changed fun record => { record with sourceHash := source }).foldView? specifier =
      if changed = specifier then some (source, record.staticDependencies.map (·.target))
      else graph.foldView? specifier := by
  split
  · next own =>
    subst own
    have found' : (graph.modify changed fun record => { record with sourceHash := source }).get? changed =
        some { record with sourceHash := source } := by
      rw [get?_modify, if_pos rfl, found, Option.map_some]
    have folds' : ({ record with sourceHash := source } : ModuleRecord).folds = true := by
      simp only [ModuleRecord.folds, Bool.and_eq_true] at folds ⊢
      exact ⟨folds.1, by simpa using loaded⟩
    exact foldView?_of_get? found' folds'
  · next other => exact foldView?_congr (by rw [get?_modify, if_neg other])

theorem revision_modify {graph : ModuleGraph}
    (fullLength : ∀ specifier record, graph.get? specifier = some record →
      record.sourceHash = "" ∨ record.sourceHash.length = 64)
    {record : ModuleRecord} (found : graph.get? changed = some record) (folds : record.folds)
    {source : String} (full : source.length = 64) (differ : source ≠ record.sourceHash) :
    Revision changed graph
      (graph.modify changed fun record => { record with sourceHash := source }) := by
  have loaded : source ≠ "" := by
    rintro rfl
    cases full
  have views := foldView?_modify found folds loaded
  have viewChanged := foldView?_of_get? found folds
  have fullView {other : Specifier} {hash : String} {targets : List Specifier}
      (view : graph.foldView? other = some (hash, targets)) : hash.length = 64 := by
    obtain ⟨record, found, folds, rfl, -⟩ := foldView?_eq_some view
    exact (fullLength other record found).resolve_left (by simp_all [ModuleRecord.folds])
  refine ⟨by simp [viewChanged], fun other hash targets view => ?_, fun other view => ?_⟩
  · rw [views]
    split
    · next same =>
      subst same
      obtain ⟨rfl, rfl⟩ := Prod.mk.inj (Option.some.inj (viewChanged.symm.trans view))
      exact ⟨source, rfl, ⟨fullView view, full⟩, fun _ => differ.symm⟩
    · next apart => exact ⟨hash, view, ⟨fullView view, fullView view⟩, fun same => absurd same.symm apart⟩
  · rw [views, if_neg, view]
    rintro rfl
    cases viewChanged.symm.trans view

/-- Let all source hashes of a graph be empty or of full length, and let the source hash of one loaded module
be replaced by another one. If what is hashed does not collide, then the content hashes that change are those
of the modules that lead to the changed one by static imports through loaded modules, itself included. -/
theorem contentHash?_ne_iff_folds (graph : ModuleGraph)
    (fullLength : ∀ specifier record, graph.get? specifier = some record →
      record.sourceHash = "" ∨ record.sourceHash.length = 64)
    (changed : Specifier) (record : ModuleRecord) (found : graph.get? changed = some record)
    (folds : record.folds) (source : String) (full : source.length = 64)
    (differ : source ≠ record.sourceHash) (specifier : Specifier) (own : ModuleRecord)
    (foundOwn : graph.get? specifier = some own) (foldsOwn : own.folds) :
    let after := graph.modify changed fun record => { record with sourceHash := source }
    (∀ one ∈ graph.hashInputs specifier, ∀ two ∈ after.hashInputs specifier,
      Blake3.hex one = Blake3.hex two → one = two) →
    (after.contentHash? specifier ≠ graph.contentHash? specifier ↔
      ReflTransGen graph.FoldsInto specifier changed) := by
  intro after collisionFree
  have revision : Revision changed graph after := revision_modify fullLength found folds full differ
  constructor
  · intro changes
    by_contra apart
    refine changes (contentHash?_congr fun other reached => foldView?_congr ?_).symm
    rw [get?_modify, if_neg]
    rintro rfl
    exact apart reached
  · intro reaches
    have view := foldView?_of_get? foundOwn foldsOwn
    obtain ⟨source', view', lengths, revised⟩ := revision.present specifier _ _ view
    rw [hashInputs, hashInputs, walk_noting_of_foldView? view, walk_noting_of_foldView? view']
      at collisionFree
    rw [contentHash?_of_foldView? view, contentHash?_of_foldView? view']
    refine (Walk.runFold_differ revision _ _ _ [] _ _ [] ?_ ⟨.cons ⟨lengths, .nil⟩ .nil, .nil⟩ rfl ?_
      collisionFree (Walk.mem_traced_of_folds _ reaches)).symm
    · rw [Walk.shape_frame, Walk.shape_frame, children_static view, children_static view']
      rfl
    · intro same
      left
      simp [revised (List.mem_singleton.1 same).symm]

section Chain

theorem hashInputs_over_leaf {graph : ModuleGraph} {specifier target : Specifier}
    {source imported : String} (view : graph.foldView? specifier = some (source, [target]))
    (leaf : graph.foldView? target = some (imported, [])) (distinct : target ≠ specifier) :
    graph.hashInputs specifier = [Text.bytes source ++ Text.bytes imported] := by
  obtain ⟨next, frame, rfl⟩ := Walk.frame_of_single view
  rw [hashInputs, walk_noting_of_foldView? view, frame, Walk.runNoting_enter (by simpa using distinct) leaf,
    Walk.frame_of_leaf leaf, Walk.runNoting_leave, Walk.runNoting_leave, Walk.runNoting, Walk.run]
  simp [noting, leave, Fold.deliver, Frame.inputs, foldHashes]

/-- A source hash of one letter. -/
def letters (letter : Char) : String := String.ofList (List.replicate 64 letter)

/-- A module that imports another one. -/
def chain : ModuleGraph :=
  (ModuleGraph.empty.insert { specifier := ⟨"/b.js"⟩, sourceHash := letters 'b' }).insert
    { specifier := ⟨"/a.js"⟩, sourceHash := letters 'a', dependencies := [{ target := ⟨"/b.js"⟩ }] }

theorem get?_chain {specifier : Specifier} {record : ModuleRecord}
    (found : chain.get? specifier = some record) : record.sourceHash.length = 64 := by
  simp only [chain, ModuleGraph.get?_insert] at found
  split at found
  · obtain rfl := Option.some.inj found
    decide +kernel
  · split at found
    · obtain rfl := Option.some.inj found
      decide +kernel
    · cases found

/-- The content hash of the importer follows the source of what it imports. -/
theorem contentHash?_ne_chain :
    let after := chain.modify ⟨"/b.js"⟩ fun record => { record with sourceHash := letters 'c' }
    after.contentHash? ⟨"/a.js"⟩ ≠ chain.contentHash? ⟨"/a.js"⟩ := by
  intro after
  have importer : chain.foldView? ⟨"/a.js"⟩ = some (letters 'a', [⟨"/b.js"⟩]) := by decide +kernel
  have leaf : chain.foldView? ⟨"/b.js"⟩ = some (letters 'b', []) := by decide +kernel
  have importer' : after.foldView? ⟨"/a.js"⟩ = some (letters 'a', [⟨"/b.js"⟩]) := by decide +kernel
  have leaf' : after.foldView? ⟨"/b.js"⟩ = some (letters 'c', []) := by decide +kernel
  have distinct : (⟨"/b.js"⟩ : Specifier) ≠ ⟨"/a.js"⟩ := by decide
  refine (contentHash?_ne_iff_folds chain (fun _ _ found => .inr (get?_chain found)) ⟨"/b.js"⟩ _ rfl
    (by decide +kernel) (letters 'c') (by decide +kernel) (by decide +kernel) ⟨"/a.js"⟩ _ rfl
    (by decide +kernel) ?_).2 (.single ⟨_, _, importer, List.mem_singleton_self _⟩)
  rw [hashInputs_over_leaf importer leaf distinct, hashInputs_over_leaf importer' leaf' distinct]
  decide +kernel

end Chain

end ModuleGraph

end ModuleBuild
