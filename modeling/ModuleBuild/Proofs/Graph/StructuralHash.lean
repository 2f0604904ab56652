import Mathlib.Data.Finite.Defs
import Mathlib.Data.Set.Finite.Basic
import Mathlib.Order.WellFounded
import ModuleBuild.Proofs.Graph.HashLocality
/-!
Content hashes as a recursive function of the graph. A module from which no cycle of static imports can be
reached has a content hash by plain recursion: its source hash, folded with those of its imports. The walk
that folds a graph enters each module once, keeps what it folded to and reads it back later. It gives the same.

At each moment of the walk a module on the path has gathered the hashes of its first imports, waits for the
module above it on the path, and has the rest of its imports still to come.
-/

namespace ModuleBuild

open Relation

namespace ModuleGraph

/-- Whether a module takes part in content hashes: it has a record, is not external and was loaded. -/
def takesPart (graph : ModuleGraph) (specifier : Specifier) : Bool :=
  (graph.get? specifier).any (·.folds)

/-- The imports that the content hash of a module folds, in source order and each as often as it is imported.
-/
def foldedImports (graph : ModuleGraph) (specifier : Specifier) : List Specifier :=
  (graph.children .static specifier).filter graph.takesPart

def ownHash (graph : ModuleGraph) (specifier : Specifier) : String :=
  ((graph.get? specifier).map (·.sourceHash)).getD ""

/-- The content hash of one module folds that of another, and both take part. -/
def FoldsOver (graph : ModuleGraph) (specifier imported : Specifier) : Prop :=
  imported ∈ graph.foldedImports specifier

/-- No cycle of static imports among modules that take part in content hashes is reached from a module. -/
def AcyclicFrom (graph : ModuleGraph) (specifier : Specifier) : Prop :=
  ∀ other, ReflTransGen graph.FoldsOver specifier other → ¬ TransGen graph.FoldsOver other other

variable {graph : ModuleGraph}

theorem takesPart_iff_foldView? {specifier : Specifier} :
    graph.takesPart specifier = true ↔ (graph.foldView? specifier).isSome = true := by
  unfold takesPart foldView?
  cases graph.get? specifier with
  | none => simp
  | some record => by_cases folds : record.folds <;> simp [folds]

theorem takesPart_eq_false {specifier : Specifier} (absent : graph.foldView? specifier = none) :
    graph.takesPart specifier = false :=
  Bool.eq_false_iff.2 fun takes => by simp [takesPart_iff_foldView?, absent] at takes

theorem ownHash_eq {specifier : Specifier} {source : String} {targets : List Specifier}
    (view : graph.foldView? specifier = some (source, targets)) : graph.ownHash specifier = source := by
  obtain ⟨record, found, -, rfl, -⟩ := foldView?_eq_some view
  simp [ownHash, found]

theorem FoldsOver.mem_ends {specifier imported : Specifier} (folds : graph.FoldsOver specifier imported) :
    imported ∈ graph.ends .static :=
  mem_ends_of_mem_children (List.mem_filter.1 folds).1

namespace AcyclicFrom

theorem below {specifier imported : Specifier} (acyclic : graph.AcyclicFrom specifier)
    (folds : graph.FoldsOver specifier imported) : graph.AcyclicFrom imported :=
  fun other reached => acyclic other (.head folds reached)

/-- What is reached lies among the finitely many ends of edges, so without a cycle every descent along the
imports comes to an end. -/
theorem accessible {specifier : Specifier} (acyclic : graph.AcyclicFrom specifier) :
    Acc (Function.swap graph.FoldsOver) specifier := by
  let Reached := { other : Specifier // ReflTransGen graph.FoldsOver specifier other }
  have finite : Finite Reached := by
    refine ((specifier :: graph.ends .static).finite_toSet.subset fun other reached => ?_).to_subtype
    rcases ReflTransGen.cases_tail reached with rfl | ⟨importer, -, folds⟩
    · exact List.mem_cons_self
    · exact List.mem_cons_of_mem _ folds.mem_ends
  let Below : Reached → Reached → Prop := fun inner outer =>
    TransGen graph.FoldsOver outer.val inner.val
  have transitive : IsTrans Reached Below := ⟨fun _ _ _ first second => second.trans first⟩
  have irreflexive : Std.Irrefl Below := ⟨fun other cycle => acyclic other.val other.property cycle⟩
  have descend : ∀ other : Reached, Acc (Function.swap graph.FoldsOver) other.val := by
    intro other
    induction other using (Finite.wellFounded_of_trans_of_irrefl Below).induction with
    | _ other ih =>
      exact ⟨_, fun imported folds => ih ⟨imported, other.property.tail folds⟩ (.single folds)⟩
  exact descend ⟨specifier, .refl⟩

end AcyclicFrom

instance : WellFoundedRelation { specifier // graph.AcyclicFrom specifier } where
  rel inner outer := graph.FoldsOver outer.val inner.val
  wf := ⟨fun outer => InvImage.accessible Subtype.val outer.property.accessible⟩

/-- The content hash of a module by recursion on its imports. -/
def content (graph : ModuleGraph) (specifier : Specifier) (acyclic : graph.AcyclicFrom specifier) : String :=
  foldHashes (graph.ownHash specifier) ((graph.foldedImports specifier).attach.map fun imported =>
    content graph imported.val (acyclic.below imported.property))
termination_by (⟨specifier, acyclic⟩ : { other // graph.AcyclicFrom other })
decreasing_by exact imported.property

open Classical in
/-- All content hashes by recursion; empty where a cycle is reached. -/
noncomputable def contents (graph : ModuleGraph) (specifier : Specifier) : String :=
  if acyclic : graph.AcyclicFrom specifier then graph.content specifier acyclic else ""

theorem contents_of_acyclic {specifier : Specifier} (acyclic : graph.AcyclicFrom specifier) :
    graph.contents specifier = graph.content specifier acyclic :=
  dif_pos acyclic

theorem contents_eq {specifier : Specifier} (acyclic : graph.AcyclicFrom specifier) :
    graph.contents specifier =
      foldHashes (graph.ownHash specifier) ((graph.foldedImports specifier).map graph.contents) := by
  rw [contents_of_acyclic acyclic, content]
  conv_rhs => rw [← List.attach_map_subtype_val (graph.foldedImports specifier), List.map_map]
  refine congrArg _ (List.map_congr_left fun imported _ => ?_)
  exact (contents_of_acyclic (acyclic.below imported.property)).symm

/-- A function on modules that satisfies the equation of the recursion wherever a module leads. -/
def Recurses (graph : ModuleGraph) (start : Specifier) (value : Specifier → String) : Prop :=
  ∀ specifier, ReflTransGen graph.FoldsOver start specifier →
    value specifier = foldHashes (graph.ownHash specifier) ((graph.foldedImports specifier).map value)

namespace Walk

def foldedPending (pending : List (End graph .static)) : List Specifier :=
  (pending.map Subtype.val).filter graph.takesPart

/-- Each module on the path has gathered the hashes of its first imports and waits for one, that of the module
above it. What the innermost module waits for is given. -/
inductive Awaits (start : Specifier) (value : Specifier → String) :
    Option Specifier → List (Frame graph .static) → List (Option ContentHash.Frame) → Prop
  | outermost : Awaits start value (some start) [] []
  | inner {awaited : Option Specifier} {specifier : Specifier} {pending : List (End graph .static)}
      {outer : List (Frame graph .static)} {gathered : List String} {frames : List (Option ContentHash.Frame)}
      (done : List Specifier)
      (imports : graph.foldedImports specifier = done ++ awaited.toList ++ foldedPending pending)
      (hashes : gathered.reverse = done.map value)
      (below : Awaits start value (some specifier) outer frames) :
      Awaits start value awaited (⟨specifier, pending⟩ :: outer)
        (some ⟨graph.ownHash specifier, gathered⟩ :: frames)

section

variable {start specifier child : Specifier} {value : Specifier → String}
  {pending : List (End graph .static)} {next : End graph .static}
  {path outer : List (Frame graph .static)} {frames : List (Option ContentHash.Frame)}
  {traced : List Specifier} {fold : ContentHash.Fold}

theorem foldedPending_frame (specifier : Specifier) :
    foldedPending (frame graph .static specifier).pending = graph.foldedImports specifier := by
  simp [foldedPending, frame, foldedImports]

theorem foldedPending_cons_of_takesPart (takes : graph.takesPart next.val = true) :
    foldedPending (next :: pending) = next.val :: foldedPending pending := by
  simp [foldedPending, takes]

theorem foldedPending_cons_of_idle (idle : graph.takesPart next.val = false) :
    foldedPending (next :: pending) = foldedPending pending := by
  simp [foldedPending, idle]

namespace Awaits

theorem reached (awaits : Awaits start value (some child) path frames) :
    ReflTransGen graph.FoldsOver start child := by
  generalize awaited : some child = awaited? at awaits
  induction awaits generalizing child with
  | outermost => exact Option.some.inj awaited ▸ .refl
  | inner done imports hashes below ih =>
    subst awaited
    exact (ih rfl).tail (by simp [FoldsOver, imports])

theorem leads (awaits : Awaits start value (some child) path frames) :
    ∀ frame ∈ path, TransGen graph.FoldsOver frame.specifier child := by
  generalize awaited : some child = awaited? at awaits
  induction awaits generalizing child with
  | outermost => exact fun frame member => absurd member List.not_mem_nil
  | @inner _ specifier _ _ _ _ done imports hashes below ih =>
    subst awaited
    have folds : graph.FoldsOver specifier child := by simp [FoldsOver, imports]
    exact List.forall_mem_cons.2 ⟨.single folds, fun frame member => (ih rfl frame member).tail folds⟩

theorem advance (awaits : Awaits start value none (⟨specifier, next :: pending⟩ :: outer) frames)
    (takes : graph.takesPart next.val = true) :
    Awaits start value (some next.val) (⟨specifier, pending⟩ :: outer) frames := by
  cases awaits with
  | inner done imports hashes below =>
    rw [foldedPending_cons_of_takesPart takes] at imports
    exact .inner done (by simpa using imports) hashes below

theorem skip (awaits : Awaits start value none (⟨specifier, next :: pending⟩ :: outer) frames)
    (idle : graph.takesPart next.val = false) :
    Awaits start value none (⟨specifier, pending⟩ :: outer) frames := by
  cases awaits with
  | inner done imports hashes below =>
    rw [foldedPending_cons_of_idle idle] at imports
    exact .inner done imports hashes below

theorem enter (awaits : Awaits start value (some child) path frames) :
    Awaits start value none (frame graph .static child :: path)
      (some ⟨graph.ownHash child, []⟩ :: frames) :=
  .inner [] (foldedPending_frame child).symm rfl awaits

end Awaits

/-- How far folding has come: all on the path wait for their next import, or the result is there. -/
structure Accords (start : Specifier) (value : Specifier → String) (path : List (Frame graph .static))
    (traced : List Specifier) (fold : ContentHash.Fold) : Prop where
  stands : Awaits start value none path fold.path ∨ path = [] ∧ fold.result? = some (value start)
  folded : ∀ other ∈ traced, graph.takesPart other = true → path.any (·.specifier = other) = true ∨
    OrderedMap.lookup other fold.folded = some (value other)

namespace Accords

theorem start_walk (specifier : Specifier) :
    Accords specifier value [frame graph .static specifier] [specifier]
      { path := [some ⟨graph.ownHash specifier, []⟩] } where
  stands := .inl (.enter .outermost)
  folded other member _ := .inl (by simp [frame, List.mem_singleton.1 member])

theorem awaits (accords : Accords start value (⟨specifier, pending⟩ :: outer) traced fold) :
    Awaits start value none (⟨specifier, pending⟩ :: outer) fold.path :=
  accords.stands.resolve_right fun ended => absurd ended.1 (List.cons_ne_nil _ _)

theorem deliver (awaits : Awaits start value (some child) path fold.path)
    (folded : ∀ other ∈ traced, graph.takesPart other = true →
      path.any (·.specifier = other) = true ∨
        OrderedMap.lookup other fold.folded = some (value other)) :
    Accords start value path traced (fold.deliver (value child)) := by
  obtain ⟨framed, folded?, result?⟩ := fold
  simp only at awaits
  cases awaits with
  | outermost => exact ⟨.inr ⟨rfl, rfl⟩, folded⟩
  | inner done imports hashes below =>
    refine ⟨.inl (.inner (done ++ [child]) ?_ ?_ below), folded⟩
    · simpa using imports
    · simpa using hashes

theorem idle (accords : Accords start value (⟨specifier, next :: pending⟩ :: outer) traced fold)
    (absent : graph.takesPart next.val = false) :
    Accords start value (⟨specifier, pending⟩ :: outer) (next.val :: traced) fold := by
  refine ⟨.inl (accords.awaits.skip absent), fun other member takes => ?_⟩
  rcases List.mem_cons.1 member with rfl | old
  · exact absurd (absent.symm.trans takes) Bool.false_ne_true
  · exact accords.folded other old takes

theorem enter (accords : Accords start value (⟨specifier, next :: pending⟩ :: outer) traced fold)
    (takes : graph.takesPart next.val = true) :
    Accords start value (frame graph .static next.val :: ⟨specifier, pending⟩ :: outer)
      (next.val :: traced)
      { fold with path := some ⟨graph.ownHash next.val, []⟩ :: fold.path } := by
  refine ⟨.inl (accords.awaits.advance takes).enter, fun other member known => ?_⟩
  rcases List.mem_cons.1 member with rfl | old
  · exact .inl (by simp [frame])
  · refine (accords.folded other old known).imp_left fun onPath => ?_
    rw [List.any_cons, Bool.or_eq_true]
    exact .inr onPath

/-- An import that was met before is not on the path, since that would close a cycle. What it folded to is
known. -/
theorem revisit (accords : Accords start value (⟨specifier, next :: pending⟩ :: outer) traced fold)
    (acyclic : graph.AcyclicFrom start) (met : next.val ∈ traced) :
    Accords start value (⟨specifier, pending⟩ :: outer) traced
      (ContentHash.revisit next.val (graph.get? next.val)
        ((⟨specifier, pending⟩ :: outer : List (Frame graph .static)).any
          (·.specifier = next.val)) fold) := by
  rw [ContentHash.revisit_eq]
  cases view : graph.foldView? next.val with
  | none => exact ⟨.inl (accords.awaits.skip (takesPart_eq_false view)), accords.folded⟩
  | some found =>
    have takes : graph.takesPart next.val = true := takesPart_iff_foldView?.2 (by simp [view])
    have awaits := accords.awaits.advance takes
    have apart : (⟨specifier, pending⟩ :: outer : List (Frame graph .static)).any
        (·.specifier = next.val) = false := by
      refine List.any_eq_false.2 fun frame member same => ?_
      rw [decide_eq_true_eq] at same
      exact acyclic _ awaits.reached (same ▸ awaits.leads frame member)
    have known := (accords.folded _ met takes).resolve_left (Bool.eq_false_iff.1 apart)
    cases framed : fold.path with
    | nil => rw [framed] at awaits; cases awaits
    | cons frame? frames =>
      simp only [apart, known, Bool.false_eq_true, if_false]
      exact deliver awaits accords.folded

theorem leave (accords : Accords start value (⟨specifier, []⟩ :: outer) traced fold)
    (recurses : graph.Recurses start value) :
    Accords start value outer traced (ContentHash.leave specifier none fold) := by
  have awaits := accords.awaits
  have folded := accords.folded
  obtain ⟨framed, folded?, result?⟩ := fold
  simp only at awaits
  cases awaits with
  | @inner _ _ _ _ gathered frames done imports hashes below =>
    have all : graph.foldedImports specifier = done := by simpa [foldedPending] using imports
    have hash : foldHashes (graph.ownHash specifier) gathered.reverse = value specifier := by
      rw [recurses specifier below.reached, all, hashes]
    simp only [ContentHash.leave, hash]
    refine deliver below fun other member takes => ?_
    rw [OrderedMap.lookup]
    split
    · next same => exact .inr (congrArg (some ∘ value) same)
    · next differ =>
      refine (folded other member takes).imp_left fun onPath => ?_
      simpa [differ] using onPath

end Accords

theorem result?_runFold (recurses : graph.Recurses start value) (acyclic : graph.AcyclicFrom start)
    (path : List (Frame graph .static)) (traced : List Specifier) (fold : ContentHash.Fold)
    (accords : Accords start value path traced fold) :
    (runFold path traced fold).state.result? = some (value start) := by
  induction path, traced, fold using runFold_induction with
  | nil traced fold =>
    rw [runFold_nil]
    rcases accords.stands with awaits | ended
    · cases awaits
    · exact ended.2
  | leave specifier outer traced fold ih =>
    rw [runFold_leave]
    exact ih (accords.leave recurses)
  | met specifier child pending outer traced fold met ih =>
    rw [runFold_met met]
    exact ih (accords.revisit acyclic met)
  | idle specifier child pending outer traced fold fresh view ih =>
    rw [runFold_idle fresh view]
    exact ih (accords.idle (takesPart_eq_false view))
  | enter specifier child pending outer traced fold source targets fresh view ih =>
    rw [runFold_enter fresh view]
    obtain rfl := ownHash_eq view
    exact ih (accords.enter (takesPart_iff_foldView?.2 (by simp [view])))

end

end Walk

/-- Any function that satisfies the equation of the recursion gives the content hash. -/
theorem contentHash?_eq_of_recurses {start : Specifier} {value : Specifier → String}
    (recurses : graph.Recurses start value) (acyclic : graph.AcyclicFrom start)
    (takes : graph.takesPart start = true) : graph.contentHash? start = some (value start) := by
  obtain ⟨⟨source, targets⟩, view⟩ := Option.isSome_iff_exists.1 (takesPart_iff_foldView?.1 takes)
  rw [contentHash?_of_foldView? view]
  obtain rfl := ownHash_eq view
  exact Walk.result?_runFold recurses acyclic _ _ _ (Walk.Accords.start_walk start)

/-- The content hash of a module from which no cycle is reached is the one by recursion on imports. A module
that is missing, external or not loaded has none. -/
theorem contentHash?_eq_content (graph : ModuleGraph) (specifier : Specifier) :
    (∀ record, graph.get? specifier = some record → record.isExternal = false → record.sourceHash ≠ "" →
      ∀ acyclic : graph.AcyclicFrom specifier,
        graph.contentHash? specifier = some (graph.content specifier acyclic)) ∧
    ((∀ record, graph.get? specifier = some record → record.isExternal = true ∨ record.sourceHash = "") →
      graph.contentHash? specifier = none) := by
  constructor
  · intro record found internal loaded acyclic
    have takes : graph.takesPart specifier = true := by
      simp [takesPart, found, ModuleRecord.folds, internal, loaded]
    have recurses : graph.Recurses specifier graph.contents := fun other reached =>
      contents_eq fun below further => acyclic below (reached.trans further)
    rw [contentHash?_eq_of_recurses recurses acyclic takes, contents_of_acyclic acyclic]
  · intro idle
    refine contentHash?_eq_none (Option.not_isSome_iff_eq_none.1 fun takes => ?_)
    obtain ⟨⟨source, targets⟩, view⟩ := Option.isSome_iff_exists.1 takes
    obtain ⟨record, found, folds, -, -⟩ := foldView?_eq_some view
    rcases idle record found with external | unloaded
    · simp [ModuleRecord.folds, external] at folds
    · simp [ModuleRecord.folds, unloaded] at folds

/-! ## A diamond -/

theorem acyclicFrom_of_rank (rank : Specifier → Nat)
    (descends : ∀ importer ∈ graph.specifiers, ∀ imported ∈ graph.foldedImports importer,
      rank imported < rank importer) (specifier : Specifier) : graph.AcyclicFrom specifier := by
  have step (importer imported : Specifier) (folds : graph.FoldsOver importer imported) :
      rank imported < rank importer := by
    refine descends importer ?_ imported folds
    have leads := (List.mem_filter.1 folds).1
    rw [children] at leads
    split at leads
    · next record found => exact OrderedMap.mem_keys_of_get? found
    · exact absurd leads List.not_mem_nil
  have falls {importer imported : Specifier} (leads : TransGen graph.FoldsOver importer imported) :
      rank imported < rank importer := by
    induction leads with
    | single folds => exact step _ _ folds
    | tail _ folds ih => exact (step _ _ folds).trans ih
  exact fun other _ cycle => (falls cycle).false

/-- One module imports another twice, and the same module is below both of its imports. What is missing is
passed over. -/
def diamond : ModuleGraph :=
  empty
    |>.insert { specifier := ⟨"/d.js"⟩, sourceHash := "d" }
    |>.insert { specifier := ⟨"/c.js"⟩, sourceHash := "c", dependencies := [{ target := ⟨"/d.js"⟩ }] }
    |>.insert { specifier := ⟨"/b.js"⟩, sourceHash := "b", dependencies := [{ target := ⟨"/d.js"⟩ }] }
    |>.insert
      { specifier := ⟨"/a.js"⟩
        sourceHash := "a"
        dependencies :=
          [{ target := ⟨"/b.js"⟩ }, { target := ⟨"/gone.js"⟩ }, { target := ⟨"/c.js"⟩ },
            { target := ⟨"/b.js"⟩ }] }

theorem acyclicFrom_diamond (specifier : Specifier) : diamond.AcyclicFrom specifier :=
  acyclicFrom_of_rank (fun other => if other = ⟨"/a.js"⟩ then 2 else if other = ⟨"/d.js"⟩ then 0 else 1)
    (by decide) specifier

theorem contentHash?_eq_content_diamond :
    diamond.contentHash? ⟨"/a.js"⟩ = some (diamond.content ⟨"/a.js"⟩ (acyclicFrom_diamond _)) ∧
      diamond.content ⟨"/a.js"⟩ (acyclicFrom_diamond _) =
        foldHashes "a" [foldHashes "b" ["d"], foldHashes "c" ["d"], foldHashes "b" ["d"]] ∧
      diamond.contentHash? ⟨"/gone.js"⟩ = none := by
  refine ⟨(diamond.contentHash?_eq_content ⟨"/a.js"⟩).1 _ rfl rfl (by decide) _, ?_,
    (diamond.contentHash?_eq_content ⟨"/gone.js"⟩).2 fun record found => by cases found⟩
  have unfolded (specifier : Specifier) := contents_eq (acyclicFrom_diamond specifier)
  have importsA : diamond.foldedImports ⟨"/a.js"⟩ = [⟨"/b.js"⟩, ⟨"/c.js"⟩, ⟨"/b.js"⟩] := by decide
  have importsB : diamond.foldedImports ⟨"/b.js"⟩ = [⟨"/d.js"⟩] := by decide
  have importsC : diamond.foldedImports ⟨"/c.js"⟩ = [⟨"/d.js"⟩] := by decide
  have importsD : diamond.foldedImports ⟨"/d.js"⟩ = [] := by decide
  rw [← contents_of_acyclic, unfolded, importsA]
  simp only [List.map_cons, List.map_nil]
  rw [unfolded ⟨"/b.js"⟩, unfolded ⟨"/c.js"⟩, importsB, importsC]
  simp only [List.map_cons, List.map_nil]
  rw [unfolded ⟨"/d.js"⟩, importsD]
  rfl

end ModuleGraph

end ModuleBuild
