import ModuleBuild.Proofs.Graph.Trimming
/-!
What a content hash tells of the modules that it folds. Let nothing that is hashed be confused, and let one of
two graphs fold nothing that the other does not. Then the graphs give a module one content hash only if they
agree on the content hashes of all that it leads to by static imports.

Imports that take no part in content hashes are dropped first. Then each walk is looked at from a moment on: the
module on top of the path gathers as many hashes as imports of it are still to come, and hands its hash on.
Frames that end in one result are therefore equal.
-/

namespace ModuleBuild

open Relation

namespace ContentHash

/-- Source hashes are not taken for hashes of something else, and what is hashed does not collide. -/
structure Unconfused (sources : String → Prop) (inputs : Bytes → Prop) : Prop where
  collisionFree : ∀ one two, inputs one → inputs two → Blake3.hex one = Blake3.hex two → one = two
  apart : ∀ source input, sources source → inputs input → source ≠ Blake3.hex input

namespace Frame

def hash (frame : Frame) : String := foldHashes frame.sourceHash frame.gathered.reverse

def gather (frame : Frame) (hash : String) : Frame :=
  { frame with gathered := hash :: frame.gathered }

structure Drawn (sources : String → Prop) (inputs : Bytes → Prop) (frame : Frame) : Prop where
  source : sources frame.sourceHash
  long : frame.sourceHash.length = 64
  gathered : ∀ hash ∈ frame.gathered, hash.length = 64
  inputs : ∀ input ∈ frame.inputs, inputs input

variable {sources : String → Prop} {inputs : Bytes → Prop} {first second frame final : Frame}

theorem hash_cases (frame : Frame) :
    frame.gathered = [] ∧ frame.hash = frame.sourceHash ∨
      frame.gathered ≠ [] ∧ ∃ input ∈ frame.inputs, frame.hash = Blake3.hex input ∧
        input = (frame.sourceHash :: frame.gathered.reverse).flatMap Text.bytes := by
  obtain ⟨source, gathered⟩ := frame
  cases gathered with
  | nil => exact .inl ⟨rfl, rfl⟩
  | cons hash rest =>
    refine .inr ⟨List.cons_ne_nil _ _, _, List.mem_singleton_self _, ?_, rfl⟩
    simp [Frame.hash, foldHashes]

theorem eq_of_hash (unconfused : Unconfused sources inputs) (one : first.Drawn sources inputs)
    (two : second.Drawn sources inputs) (same : first.hash = second.hash) : first = second := by
  have equal (source : first.sourceHash = second.sourceHash)
      (gathered : first.gathered = second.gathered) : first = second := by
    obtain ⟨_, _⟩ := first
    obtain ⟨_, _⟩ := second
    exact congr (congrArg Frame.mk source) gathered
  rcases first.hash_cases with ⟨empty, own⟩ | ⟨-, input, noted, own, written⟩
  · rcases second.hash_cases with ⟨empty', own'⟩ | ⟨-, input', noted', own', -⟩
    · exact equal (own.symm.trans (same.trans own')) (empty.trans empty'.symm)
    · exact absurd (own.symm.trans (same.trans own'))
        (unconfused.apart _ _ one.source (two.inputs _ noted'))
  · rcases second.hash_cases with ⟨-, own'⟩ | ⟨-, input', noted', own', written'⟩
    · exact absurd (own'.symm.trans (same.symm.trans own))
        (unconfused.apart _ _ two.source (one.inputs _ noted))
    · have same' := unconfused.collisionFree _ _ (one.inputs _ noted) (two.inputs _ noted')
        (own.symm.trans (same.trans own'))
      have long {frame : Frame} (drawn : frame.Drawn sources inputs) :
          ∀ text ∈ frame.sourceHash :: frame.gathered.reverse, text.length = 64 :=
        List.forall_mem_cons.2
          ⟨drawn.long, fun text member => drawn.gathered text (List.mem_reverse.1 member)⟩
      obtain ⟨source, gathered⟩ := List.cons.inj (eq_of_flatMap_bytes (long one) (long two)
        (written.symm.trans (same'.trans written')))
      exact equal source (List.reverse_injective gathered)

structure Grows (due : Nat) (frame final : Frame) : Prop where
  source : final.sourceHash = frame.sourceHash
  gathered : ∃ more, more.length = due ∧ final.gathered = more ++ frame.gathered

theorem Grows.refl (frame : Frame) : Grows 0 frame frame := ⟨rfl, [], rfl, rfl⟩

theorem Grows.of_gather {due : Nat} {hash : String} (grows : Grows due (frame.gather hash) final) :
    Grows (due + 1) frame final := by
  obtain ⟨more, length, gathered⟩ := grows.gathered
  exact ⟨grows.source, more ++ [hash], by rw [List.length_append, length]; rfl, by simp [gathered, gather]⟩

theorem Grows.due_eq {due due' : Nat} (grows : Grows due frame final) (grows' : Grows due' frame final) :
    due = due' := by
  obtain ⟨more, length, gathered⟩ := grows.gathered
  obtain ⟨more', length', gathered'⟩ := grows'.gathered
  have same := congrArg List.length (gathered.symm.trans gathered')
  simp only [List.length_append] at same
  omega

theorem Grows.hash_eq {due due' : Nat} {hash hash' : String}
    (grows : Grows due (frame.gather hash) final) (grows' : Grows due' (frame.gather hash') final) :
    hash = hash' := by
  obtain ⟨more, -, gathered⟩ := grows.gathered
  obtain ⟨more', -, gathered'⟩ := grows'.gathered
  have same := (List.append_inj' (gathered.symm.trans gathered') rfl).2
  exact (List.cons.inj same).1

end Frame

section Ends

variable (sources : String → Prop) (inputs : Bytes → Prop) (result? : Option String)

/-- A hash is handed to the innermost module of a path. With the hashes that are due after it the module is
folded to another hash, which is handed on, until the last one is the result. -/
def Hands : String → List Nat → List (Option Frame) → Prop
  | hash, [], [] => result? = some hash
  | hash, due :: dues, some frame :: outer => ∃ final, (frame.gather hash).Grows due final ∧
      final.Drawn sources inputs ∧ Hands final.hash dues outer
  | _, _, _ => False

/-- The modules on a path are folded to the result, once each has gathered the hashes that are due. -/
def Ends : List Nat → List (Option Frame) → Prop
  | due :: dues, some frame :: outer => ∃ final, frame.Grows due final ∧ final.Drawn sources inputs ∧
      Hands sources inputs result? final.hash dues outer
  | _, _ => False

variable {sources inputs result?}

theorem Ends.of_gather {frame : Frame} {hash : String} {due : Nat} {dues : List Nat}
    {outer : List (Option Frame)}
    (ends : Ends sources inputs result? (due :: dues) (some (frame.gather hash) :: outer)) :
    Ends sources inputs result? ((due + 1) :: dues) (some frame :: outer) := by
  obtain ⟨final, grows, drawn, onward⟩ := ends
  exact ⟨final, grows.of_gather, drawn, onward⟩

theorem Hands.eq (unconfused : Unconfused sources inputs) {outer : List (Option Frame)}
    {hash hash' : String} {dues dues' : List Nat} (hands : Hands sources inputs result? hash dues outer)
    (hands' : Hands sources inputs result? hash' dues' outer) : hash = hash' := by
  induction outer generalizing hash hash' dues dues' with
  | nil =>
    match dues, dues' with
    | [], [] => exact Option.some.inj (hands.symm.trans hands')
  | cons frame? outer ih =>
    match frame?, dues, dues' with
    | none, _, _ => simp [Hands] at hands
    | some frame, due :: dues, due' :: dues' =>
      obtain ⟨final, grows, drawn, onward⟩ := hands
      obtain ⟨final', grows', drawn', onward'⟩ := hands'
      obtain rfl := Frame.eq_of_hash unconfused drawn drawn' (ih onward onward')
      exact grows.hash_eq grows'

theorem Ends.final_eq (unconfused : Unconfused sources inputs) {frame frame' : Frame}
    {outer : List (Option Frame)} {due due' : Nat} {dues dues' : List Nat}
    (ends : Ends sources inputs result? (due :: dues) (some frame :: outer))
    (ends' : Ends sources inputs result? (due' :: dues') (some frame' :: outer)) :
    ∃ final, frame.Grows due final ∧ frame'.Grows due' final := by
  obtain ⟨final, grows, drawn, onward⟩ := ends
  obtain ⟨final', grows', drawn', onward'⟩ := ends'
  obtain rfl := Frame.eq_of_hash unconfused drawn drawn' (onward.eq unconfused onward')
  exact ⟨final, grows, grows'⟩

end Ends

end ContentHash

open ContentHash

namespace ModuleGraph.Walk

variable {sources : String → Prop} {inputs : Bytes → Prop} {graph : ModuleGraph}

/-- How many hashes will be gathered from imports that are still to come. -/
def due (pending : List (End graph .static)) : Nat :=
  pending.countP fun child => (graph.foldView? child.val).isSome

abbrev dues (path : List (Frame graph .static)) : List Nat := path.map fun frame => due frame.pending

theorem due_cons_of_folds {child : End graph .static} (folds : (graph.foldView? child.val).isSome = true)
    (pending : List (End graph .static)) : due (child :: pending) = due pending + 1 :=
  List.countP_cons_of_pos folds

theorem due_cons_of_absent {child : End graph .static} (absent : graph.foldView? child.val = none)
    (pending : List (End graph .static)) : due (child :: pending) = due pending :=
  List.countP_cons_of_neg (by simp [absent])

/-- How far folding has come: every module on the path has a frame, and every module that was met is on the
path or has its hash. -/
structure Halfway (sources : String → Prop) (path : List (Frame graph .static)) (traced : List Specifier)
    (fold : Fold) : Prop where
  aligned : fold.path.length = path.length
  frames : ∀ frame? ∈ fold.path, ∃ frame, frame? = some frame ∧ sources frame.sourceHash ∧
    frame.sourceHash.length = 64 ∧ ∀ hash ∈ frame.gathered, hash.length = 64
  folded : ∀ specifier hash, OrderedMap.lookup specifier fold.folded = some hash → hash.length = 64
  covered : ∀ specifier ∈ traced, graph.foldView? specifier ≠ none →
    path.any (·.specifier = specifier) = true ∨
      ∃ hash, OrderedMap.lookup specifier fold.folded = some hash

namespace Halfway

theorem start {specifier : Specifier} {source : String} (known : sources source ∧ source.length = 64) :
    Halfway sources [frame graph .static specifier] [specifier] { path := [some ⟨source, []⟩] } where
  aligned := rfl
  frames := by
    refine List.forall_mem_singleton.2 ⟨_, rfl, known.1, known.2, ?_⟩
    exact fun hash member => absurd member List.not_mem_nil
  folded _ _ found := by cases found
  covered other member _ := .inl (by simp [frame, List.mem_singleton.1 member])

variable {specifier : Specifier} {child : End graph .static} {pending : List (End graph .static)}
  {outer : List (Frame graph .static)} {traced : List Specifier} {fold : Fold}

theorem exists_frame {top : Frame graph .static}
    (halfway : Halfway sources (top :: outer) traced fold) :
    ∃ frame frames, fold.path = some frame :: frames ∧ sources frame.sourceHash ∧
      frame.sourceHash.length = 64 ∧ ∀ hash ∈ frame.gathered, hash.length = 64 := by
  obtain ⟨frame?, frames, path⟩ := List.exists_cons_of_length_eq_add_one halfway.aligned
  obtain ⟨frame, rfl, known⟩ := halfway.frames frame? (path ▸ List.mem_cons_self)
  exact ⟨frame, frames, path, known⟩

theorem deliver {path : List (Frame graph .static)} (halfway : Halfway sources path traced fold)
    {hash : String} (long : hash.length = 64) : Halfway sources path traced (fold.deliver hash) := by
  obtain ⟨aligned, frames, folded, covered⟩ := halfway
  obtain ⟨framed, folded?, result?⟩ := fold
  match framed with
  | [] => exact ⟨aligned, frames, folded, covered⟩
  | none :: rest =>
    obtain ⟨_, same, -⟩ := frames none List.mem_cons_self
    cases same
  | some frame :: rest =>
    refine ⟨aligned, List.forall_mem_cons.2 ⟨?_, fun frame? member => ?_⟩, folded, covered⟩
    · obtain ⟨_, same, source, length, gathered⟩ := frames (some frame) List.mem_cons_self
      obtain rfl := Option.some.inj same
      exact ⟨_, rfl, source, length, List.forall_mem_cons.2 ⟨long, gathered⟩⟩
    · exact frames frame? (List.mem_cons_of_mem _ member)

theorem skip (halfway : Halfway sources (⟨specifier, child :: pending⟩ :: outer) traced fold) :
    Halfway sources (⟨specifier, pending⟩ :: outer) traced fold :=
  ⟨halfway.aligned, halfway.frames, halfway.folded, halfway.covered⟩

theorem idle (halfway : Halfway sources (⟨specifier, child :: pending⟩ :: outer) traced fold)
    (absent : graph.foldView? child.val = none) :
    Halfway sources (⟨specifier, pending⟩ :: outer) (child.val :: traced) fold := by
  refine { halfway.skip with covered := fun other member folds => ?_ }
  rcases List.mem_cons.1 member with rfl | old
  · exact absurd absent folds
  · exact halfway.covered other old folds

/-- A module that was met before and takes part in content hashes hands on a hash. -/
theorem met (halfway : Halfway sources (⟨specifier, child :: pending⟩ :: outer) traced fold)
    (full : ∀ other source targets, graph.foldView? other = some (source, targets) →
      sources source ∧ source.length = 64)
    (old : child.val ∈ traced) :
    graph.foldView? child.val = none ∧
        revisit child.val (graph.get? child.val)
          ((⟨specifier, pending⟩ :: outer : List (Frame graph .static)).any
            (·.specifier = child.val)) fold = fold ∨
      (graph.foldView? child.val).isSome = true ∧ ∃ hash, hash.length = 64 ∧
        revisit child.val (graph.get? child.val)
          ((⟨specifier, pending⟩ :: outer : List (Frame graph .static)).any
            (·.specifier = child.val)) fold = fold.deliver hash := by
  obtain ⟨frame, frames, path, -⟩ := halfway.exists_frame
  rw [revisit_eq]
  cases view : graph.foldView? child.val with
  | none => exact .inl ⟨rfl, rfl⟩
  | some found =>
    obtain ⟨source, targets⟩ := found
    right
    refine ⟨rfl, ?_⟩
    simp only [path]
    by_cases onPath : (⟨specifier, pending⟩ :: outer : List (Frame graph .static)).any
        (·.specifier = child.val) = true
    · rw [if_pos onPath]
      exact ⟨source, (full _ _ _ view).2, rfl⟩
    · obtain ⟨hash, known⟩ := (halfway.covered _ old (by simp [view])).resolve_left onPath
      rw [if_neg onPath, known]
      exact ⟨hash, halfway.folded _ _ known, rfl⟩

theorem revisit (halfway : Halfway sources (⟨specifier, child :: pending⟩ :: outer) traced fold)
    (full : ∀ other source targets, graph.foldView? other = some (source, targets) →
      sources source ∧ source.length = 64)
    (old : child.val ∈ traced) :
    Halfway sources (⟨specifier, pending⟩ :: outer) traced
      (ContentHash.revisit child.val (graph.get? child.val)
        ((⟨specifier, pending⟩ :: outer : List (Frame graph .static)).any
          (·.specifier = child.val)) fold) := by
  rcases halfway.met full old with ⟨-, same⟩ | ⟨-, hash, long, same⟩
  · rw [same]
    exact halfway.skip
  · rw [same]
    exact halfway.skip.deliver long

theorem enter (halfway : Halfway sources (⟨specifier, child :: pending⟩ :: outer) traced fold)
    {source : String} (known : sources source ∧ source.length = 64) :
    Halfway sources (frame graph .static child.val :: ⟨specifier, pending⟩ :: outer) (child.val :: traced)
      { fold with path := some ⟨source, []⟩ :: fold.path } where
  aligned := by simpa using halfway.aligned
  frames := by
    refine List.forall_mem_cons.2 ⟨⟨_, rfl, known.1, known.2, ?_⟩, halfway.frames⟩
    exact fun hash member => absurd member List.not_mem_nil
  folded := halfway.folded
  covered other member folds := by
    rcases List.mem_cons.1 member with rfl | old
    · exact .inl (by simp [frame])
    · refine (halfway.covered other old folds).imp_left fun onPath => ?_
      rw [List.any_cons, Bool.or_eq_true]
      exact .inr onPath

theorem leave (halfway : Halfway sources (⟨specifier, []⟩ :: outer) traced fold) :
    Halfway sources outer traced (leave specifier none fold) := by
  obtain ⟨frame, frames, path, -, long, -⟩ := halfway.exists_frame
  rw [ContentHash.leave, path]
  refine deliver ⟨?_, ?_, ?_, ?_⟩ (length_foldHashes long _)
  · simpa [path] using halfway.aligned
  · exact fun frame? member => halfway.frames frame? (path ▸ List.mem_cons_of_mem _ member)
  · intro other hash known
    rw [OrderedMap.lookup] at known
    split at known
    · exact Option.some.inj known ▸ length_foldHashes long _
    · exact halfway.folded other hash known
  · intro other member folds
    rw [OrderedMap.lookup]
    split
    · exact .inr ⟨_, rfl⟩
    · next differ =>
      refine (halfway.covered other member folds).imp_left fun onPath => ?_
      simpa [differ] using onPath

end Halfway

theorem ends_runFold
    (full : ∀ specifier source targets, graph.foldView? specifier = some (source, targets) →
      sources source ∧ source.length = 64)
    (path : List (Frame graph .static)) (traced : List Specifier) (fold : Fold) (notes : List Bytes)
    (halfway : Halfway sources path traced fold)
    (noted : ∀ input ∈ (runNoting path traced (fold, notes)).state.2, inputs input) (busy : path ≠ []) :
    Ends sources inputs (runFold path traced fold).state.result? (dues path) fold.path := by
  induction path, traced, fold using runFold_induction generalizing notes with
  | nil => exact absurd rfl busy
  | leave specifier outer traced fold ih =>
    obtain ⟨frame, frames, path, source, long, gathered⟩ := halfway.exists_frame
    have left : leave specifier none fold =
        ({ fold with
          path := frames
          folded := (specifier, frame.hash) :: fold.folded } : Fold).deliver frame.hash := by
      rw [leave, path]
      rfl
    have own : frame.inputs ⊆ (runNoting outer traced (noting.leave specifier none (fold, notes))).state.2 :=
      fun input member => mem_runNoting outer traced (by simp [noting, path, member])
    rw [runNoting_leave] at noted
    rw [runFold_leave, path]
    -- nothing is due on top: the frame that is left is the one that ends the module
    refine ⟨frame, .refl frame, ⟨source, long, gathered, fun input member => noted input (own member)⟩, ?_⟩
    cases outer with
    | nil =>
      have last : frames = [] := List.eq_nil_of_length_eq_zero (by simpa [path] using halfway.aligned)
      rw [runFold_nil, left, last]
      rfl
    | cons top outer =>
      have ends := ih _ halfway.leave noted (List.cons_ne_nil _ _)
      obtain ⟨next, rest, framed, -⟩ := halfway.leave.exists_frame
      rw [left] at framed
      have path' : (leave specifier none fold).path = _ := congrArg Fold.path left
      cases frames with
      | nil => cases framed
      | cons top frames =>
        cases top with
        | none => cases framed
        | some frame =>
          rw [path'] at ends
          exact ends
  | met specifier child pending outer traced fold old ih =>
    rw [runNoting_met old] at noted
    have ends := ih notes (halfway.revisit full old) noted (List.cons_ne_nil _ _)
    obtain ⟨frame, frames, path, -⟩ := halfway.exists_frame
    rw [runFold_met old, path, dues, List.map_cons]
    rcases halfway.met full old with ⟨absent, same⟩ | ⟨folds, hash, -, same⟩
    · rw [same, path] at ends
      rw [same, due_cons_of_absent absent]
      exact ends
    · have delivered : (fold.deliver hash).path = some (frame.gather hash) :: frames := by
        rw [Fold.deliver, path]
        rfl
      rw [same, delivered] at ends
      rw [same, due_cons_of_folds folds]
      exact ends.of_gather
  | idle specifier child pending outer traced fold fresh view ih =>
    rw [runNoting_idle fresh view] at noted
    rw [runFold_idle fresh view, dues, List.map_cons, due_cons_of_absent view]
    exact ih notes (halfway.idle view) noted (List.cons_ne_nil _ _)
  | enter specifier child pending outer traced fold source targets fresh view ih =>
    rw [runNoting_enter fresh view] at noted
    obtain ⟨frame, frames, path, -⟩ := halfway.exists_frame
    obtain ⟨inner, -, -, hands⟩ :=
      ih notes (halfway.enter (full _ _ _ view)) noted (List.cons_ne_nil _ _)
    rw [path] at hands
    rw [runFold_enter fresh view, path, dues, List.map_cons, due_cons_of_folds (by simp [view])]
    -- the module that is entered ends by handing its hash to the one below, which had it due
    exact Ends.of_gather hands

theorem Halfway.congr {first second : ModuleGraph} {path : List (Frame first .static)}
    {other : List (Frame second .static)} {traced : List Specifier} {fold : Fold}
    (halfway : Halfway sources path traced fold) (alike : shape other = shape path)
    (agree : ∀ specifier ∈ traced, second.foldView? specifier = first.foldView? specifier) :
    Halfway sources other traced fold where
  aligned := by
    have length := congrArg List.length alike
    simp only [shape, List.length_map] at length
    rw [length, halfway.aligned]
  frames := halfway.frames
  folded := halfway.folded
  covered specifier member folds := by
    rw [any_eq_of_shape, alike, ← any_eq_of_shape]
    exact halfway.covered specifier member (agree specifier member ▸ folds)

/-- The sources of modules that take part in content hashes are known. -/
def Sourced (sources : String → Prop) (graph : ModuleGraph) : Prop :=
  ∀ specifier source targets, graph.foldView? specifier = some (source, targets) →
    sources source ∧ source.length = 64

def Tight (graph : ModuleGraph) : Prop :=
  ∀ specifier source targets, graph.foldView? specifier = some (source, targets) →
    ∀ target ∈ targets, (graph.foldView? target).isSome = true

/-- One graph has no imports on some modules that the other one lacks, where the sources are the same. -/
structure Covers (within : Specifier → Prop) (first second : ModuleGraph) : Prop where
  closed : ∀ specifier child, within specifier → first.FoldsInto specifier child → within child
  targets : ∀ specifier source targets targets', within specifier →
    first.foldView? specifier = some (source, targets) →
    second.foldView? specifier = some (source, targets') → targets'.Sublist targets

def Shared (within : Specifier → Prop) (first second : ModuleGraph) (specifier : Specifier) : Prop :=
  within specifier ∧ (first.foldView? specifier).isSome = true ∧
    (second.foldView? specifier).isSome = true

section LockStep

variable {within : Specifier → Prop} {first second : ModuleGraph}
  (unconfused : Unconfused sources inputs) (covers : Covers within first second)
  (sourced : Sourced sources first) (sourced' : Sourced sources second)
  (tight : Tight first) (tight' : Tight second)

theorem due_frame (tight : Tight graph) {specifier : Specifier} {source : String} {targets : List Specifier}
    (view : graph.foldView? specifier = some (source, targets)) :
    due (frame graph .static specifier).pending = targets.length := by
  have pending : (frame graph .static specifier).pending.map Subtype.val = targets := by
    simp [frame, children_static view]
  rw [← pending, List.length_map]
  refine List.countP_eq_length.2 fun child waits => ?_
  exact tight _ _ _ view _ (pending ▸ List.mem_map.2 ⟨child, waits, rfl⟩)

include unconfused covers tight tight'

/-- Modules on top of one path that end in one result are the same to both graphs. -/
theorem view_eq_of_ends {specifier : Specifier} (member : within specifier) {source source' : String}
    {targets targets' : List Specifier} (view : first.foldView? specifier = some (source, targets))
    (view' : second.foldView? specifier = some (source', targets')) {result? : Option String}
    {outer : List (Option ContentHash.Frame)} {dues dues' : List Nat}
    (ends : Ends sources inputs result? (due (frame first .static specifier).pending :: dues)
      (some ⟨source, []⟩ :: outer))
    (ends' : Ends sources inputs result? (due (frame second .static specifier).pending :: dues')
      (some ⟨source', []⟩ :: outer)) :
    source' = source ∧ targets' = targets := by
  obtain ⟨final, grows, grows'⟩ := ends.final_eq unconfused ends'
  obtain rfl : source' = source := grows'.source.symm.trans grows.source
  refine ⟨rfl, (covers.targets _ _ _ _ member view view').eq_of_length ?_⟩
  rw [← due_frame tight view, ← due_frame tight' view']
  exact grows'.due_eq grows

include sourced sourced'

/-- Two walks of graphs that lead to one result meet modules of which both graphs hold the same. -/
theorem agree_of_runFold (path : List (Frame first .static)) (traced : List Specifier) (fold : Fold)
    (notes notes' : List Bytes) (other : List (Frame second .static)) (alike : shape other = shape path)
    (inside : ∀ frame ∈ path, ∀ next ∈ frame.pending, Shared within first second next.val)
    (halfway : Halfway sources path traced fold)
    (agree : ∀ specifier ∈ traced, second.foldView? specifier = first.foldView? specifier)
    (noted : ∀ input ∈ (runNoting path traced (fold, notes)).state.2, inputs input)
    (noted' : ∀ input ∈ (runNoting other traced (fold, notes')).state.2, inputs input)
    (same : (runFold other traced fold).state.result? = (runFold path traced fold).state.result?) :
    ∀ specifier ∈ (runFold path traced fold).traced,
      second.foldView? specifier = first.foldView? specifier := by
  induction path, traced, fold using runFold_induction generalizing other notes notes' with
  | nil traced fold =>
    rw [runFold_nil]
    exact agree
  | leave specifier outer traced fold ih =>
    obtain ⟨outer', rfl, rest⟩ := shape_eq_leave alike
    rw [runNoting_leave] at noted noted'
    rw [runFold_leave, runFold_leave] at same
    rw [runFold_leave]
    exact ih _ _ outer' rest (fun frame member => inside frame (List.mem_cons_of_mem _ member))
      halfway.leave agree noted noted' same
  | met specifier child pending outer traced fold old ih =>
    obtain ⟨child', pending', outer', rfl, own, rest⟩ := shape_eq_step alike
    have onPath : (⟨specifier, pending'⟩ :: outer' : List (Frame second .static)).any
          (·.specifier = child'.val) =
        (⟨specifier, pending⟩ :: outer : List (Frame first .static)).any (·.specifier = child.val) := by
      rw [any_eq_of_shape, any_eq_of_shape, rest, own]
      rfl
    have revisited := revisit_eq second child.val
      ((⟨specifier, pending⟩ :: outer : List (Frame first .static)).any (·.specifier = child.val)) fold
    rw [agree _ old, ← revisit_eq] at revisited
    rw [runNoting_met old] at noted
    rw [runNoting_met (own ▸ old), onPath, own, revisited] at noted'
    rw [runFold_met old, runFold_met (own ▸ old), onPath, own, revisited] at same
    rw [runFold_met old]
    exact ih _ _ _ rest (within_tail inside) (halfway.revisit sourced old) agree noted noted' same
  | idle specifier child pending outer traced fold fresh view ih =>
    obtain ⟨-, folds, -⟩ := inside _ List.mem_cons_self child List.mem_cons_self
    rw [view] at folds
    cases folds
  | enter specifier child pending outer traced fold source targets fresh view ih =>
    obtain ⟨child', pending', outer', rfl, own, rest⟩ := shape_eq_step alike
    obtain ⟨member, -, folds⟩ := inside _ List.mem_cons_self child List.mem_cons_self
    obtain ⟨⟨source', targets'⟩, view'⟩ := Option.isSome_iff_exists.1 folds
    have halfway' := (halfway.congr alike agree).enter (sourced' _ _ _ (own ▸ view'))
    have fresh' : child'.val ∉ traced := own ▸ fresh
    rw [runNoting_enter fresh view] at noted
    rw [runNoting_enter fresh' (own ▸ view'), own] at noted'
    rw [runFold_enter fresh view, runFold_enter fresh' (own ▸ view'), own] at same
    rw [runFold_enter fresh view]
    rw [own] at halfway'
    have ends := ends_runFold sourced _ _ _ notes (halfway.enter (sourced _ _ _ view)) noted
      (List.cons_ne_nil _ _)
    have ends' := ends_runFold sourced' _ _ _ notes' halfway' noted' (List.cons_ne_nil _ _)
    rw [same] at ends'
    -- both walks push a frame on the same path and come to the same result, so the frames agree
    obtain ⟨rfl, rfl⟩ := view_eq_of_ends unconfused covers tight tight' member view view'
      ends ends'
    refine ih _ _ _ ?_ ?_ (halfway.enter (sourced _ _ _ view)) ?_ noted noted' same
    · rw [shape_frame, shape_frame, children_static view, children_static view', rest]
      rfl
    · intro frame listed next waits
      rcases List.mem_cons.1 listed with rfl | later
      · rw [mem_frame, Follows, children_static view] at waits
        exact ⟨covers.closed _ _ member ⟨_, _, view, waits⟩, tight _ _ _ view _ waits,
          tight' _ _ _ view' _ waits⟩
      · exact within_tail inside frame later next waits
    · exact List.forall_mem_cons.2 ⟨view'.trans view.symm, agree⟩

end LockStep

end Walk

section Fingerprint

variable {sources : String → Prop} {inputs : Bytes → Prop} (unconfused : Unconfused sources inputs)
  {first second : ModuleGraph} {specifier other : Specifier} {hash : String}

include unconfused

/-- If all imports take part in content hashes, one content hash stands for one view of all that is folded. -/
theorem foldView?_eq_of_tight (tight : Walk.Tight first) (tight' : Walk.Tight second)
    (covers : Walk.Covers (ReflTransGen first.FoldsInto specifier) first second)
    (sourced : Walk.Sourced sources first) (sourced' : Walk.Sourced sources second)
    (noted : ∀ input ∈ first.hashInputs specifier, inputs input)
    (noted' : ∀ input ∈ second.hashInputs specifier, inputs input)
    (hashed : first.contentHash? specifier = some hash) (hashed' : second.contentHash? specifier = some hash)
    (reached : ReflTransGen first.FoldsInto specifier other) :
    second.foldView? other = first.foldView? other := by
  have folds {graph : ModuleGraph} (hashed : graph.contentHash? specifier = some hash) :
      ∃ source targets, graph.foldView? specifier = some (source, targets) := by
    cases view : graph.foldView? specifier with
    | none => cases (contentHash?_eq_none view).symm.trans hashed
    | some found => exact ⟨_, _, rfl⟩
  obtain ⟨source, targets, view⟩ := folds hashed
  obtain ⟨source', targets', view'⟩ := folds hashed'
  rw [hashInputs, walk_noting_of_foldView? view] at noted
  rw [hashInputs, walk_noting_of_foldView? view'] at noted'
  rw [contentHash?_of_foldView? view] at hashed
  rw [contentHash?_of_foldView? view'] at hashed'
  have halfway : Walk.Halfway sources [Walk.frame first .static specifier] _ _ :=
    .start (sourced _ _ _ view)
  have ends := Walk.ends_runFold sourced _ _ _ [] halfway noted (List.cons_ne_nil _ _)
  have ends' := Walk.ends_runFold sourced' _ _ _ [] (.start (sourced' _ _ _ view')) noted'
    (List.cons_ne_nil _ _)
  rw [hashed] at ends
  rw [hashed'] at ends'
  obtain ⟨rfl, rfl⟩ := Walk.view_eq_of_ends unconfused covers tight tight' .refl view view' ends ends'
  refine Walk.agree_of_runFold unconfused covers sourced sourced' tight tight' _ _ _ [] [] _ ?_ ?_ halfway
    ?_ noted noted' (hashed'.trans hashed.symm) other (Walk.mem_traced_of_folds _ reached)
  · rw [Walk.shape_frame, Walk.shape_frame, children_static view, children_static view']
    rfl
  · intro frame member next waits
    rw [List.mem_singleton.1 member, Walk.mem_frame, Follows, children_static view] at waits
    exact ⟨.single ⟨_, _, view, waits⟩, tight _ _ _ view _ waits, tight' _ _ _ view' _ waits⟩
  · exact List.forall_mem_singleton.2 (view'.trans view.symm)

end Fingerprint

/-- What a content hash leads to is still there after trimming, if it takes part in content hashes. -/
theorem foldsInto_trim {graph : ModuleGraph} {specifier other : Specifier}
    (reached : ReflTransGen graph.FoldsInto specifier other)
    (folds : (graph.foldView? other).isSome = true) : ReflTransGen graph.trim.FoldsInto specifier other := by
  induction reached with
  | refl => exact .refl
  | tail _ step ih =>
    obtain ⟨source, targets, view, member⟩ := step
    exact (ih (by simp [view])).tail ⟨source, _, foldView?_trim_of view, List.mem_filter.2 ⟨member, folds⟩⟩

theorem foldsInto_of_trim {graph : ModuleGraph} {specifier child : Specifier}
    (folds : graph.trim.FoldsInto specifier child) : graph.FoldsInto specifier child := by
  obtain ⟨source, targets, view, member⟩ := folds
  obtain ⟨all, view', rfl⟩ := foldView?_of_trim view
  exact ⟨_, _, view', (List.mem_filter.1 member).1⟩

theorem tight_trim (graph : ModuleGraph) : Walk.Tight graph.trim := by
  intro specifier source targets view target member
  obtain ⟨all, -, rfl⟩ := foldView?_of_trim view
  rw [isSome_foldView?_trim]
  exact (List.mem_filter.1 member).2

theorem sourced_trim {sources : String → Prop} {graph : ModuleGraph} (sourced : Walk.Sourced sources graph) :
    Walk.Sourced sources graph.trim := by
  intro specifier source targets view
  obtain ⟨all, view', -⟩ := foldView?_of_trim view
  exact sourced _ _ _ view'

/-- Let a module have one content hash in two graphs, and let the second graph fold no imports that the first
one does not fold, of modules with the same source. Then all that the first graph leads to by static imports
has one source hash and one content hash in both. -/
theorem contentHash?_eq_below {sources : String → Prop} {inputs : Bytes → Prop}
    (unconfused : Unconfused sources inputs) {first second : ModuleGraph} {specifier other : Specifier}
    {hash : String}
    (narrower : ∀ other source targets targets', ReflTransGen first.FoldsInto specifier other →
      first.foldView? other = some (source, targets) → second.foldView? other = some (source, targets') →
      (second.folded targets').Sublist (first.folded targets))
    (sourced : Walk.Sourced sources first) (sourced' : Walk.Sourced sources second)
    (noted : ∀ input ∈ first.hashInputs specifier, inputs input)
    (noted' : ∀ input ∈ second.hashInputs specifier, inputs input)
    (hashed : first.contentHash? specifier = some hash) (hashed' : second.contentHash? specifier = some hash)
    (reached : ReflTransGen first.FoldsInto specifier other)
    (folds : (first.foldView? other).isSome = true) :
    (second.foldView? other).map Prod.fst = (first.foldView? other).map Prod.fst ∧
      second.contentHash? other = first.contentHash? other := by
  have back {below : Specifier} (reached : ReflTransGen first.trim.FoldsInto specifier below) :
      ReflTransGen first.FoldsInto specifier below :=
    ReflTransGen.mono (fun _ _ => foldsInto_of_trim) _ _ reached
  have covers : Walk.Covers (ReflTransGen first.trim.FoldsInto specifier) first.trim second.trim := by
    refine ⟨fun _ _ reached step => reached.tail step, fun below source targets targets' reached view view' => ?_⟩
    obtain ⟨all, seen, rfl⟩ := foldView?_of_trim view
    obtain ⟨all', seen', rfl⟩ := foldView?_of_trim view'
    exact narrower _ _ _ _ (back reached) seen seen'
  -- walks are compared after trimming, where no import is passed over
  have agree {below : Specifier} (reached : ReflTransGen first.trim.FoldsInto specifier below) :
      second.trim.foldView? below = first.trim.foldView? below :=
    foldView?_eq_of_tight unconfused (tight_trim first) (tight_trim second) covers (sourced_trim sourced)
      (sourced_trim sourced') (by rwa [hashInputs_trim]) (by rwa [hashInputs_trim])
      (by rwa [contentHash?_trim]) (by rwa [contentHash?_trim]) reached
  have within := foldsInto_trim reached folds
  constructor
  · have own := congrArg (Option.map Prod.fst) (agree within)
    rw [foldView?_trim, foldView?_trim, Option.map_map, Option.map_map] at own
    exact own
  · rw [← contentHash?_trim second, ← contentHash?_trim first]
    exact (contentHash?_congr fun below onward => (agree (within.trans onward)).symm).symm

end ModuleGraph

end ModuleBuild
