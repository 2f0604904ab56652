import ModuleBuild.Proofs.Graph.HashLocality
/-!
What content hashes read. Of a record they see whether it is external, its source hash and the targets of its
static imports, in order. Graphs that look the same in this way, wherever a module leads through modules that
take part in content hashes, give it the same content hash, on cycles too.
-/

namespace ModuleBuild

open Relation

/-- All of a record that content hashes read: whether it is external, its source hash, and what it imports
statically, in source order. -/
def ModuleRecord.sourceView (record : ModuleRecord) : Bool × String × List Specifier :=
  (record.isExternal, record.sourceHash, record.staticDependencies.map (·.target))

namespace ModuleGraph

/-- What content hashes read of a module, if it has a record. -/
def sourceView? (graph : ModuleGraph) (specifier : Specifier) : Option (Bool × String × List Specifier) :=
  (graph.get? specifier).map (·.sourceView)

variable {first second graph : ModuleGraph} {specifier : Specifier}

theorem sourceView?_congr (same : first.get? specifier = second.get? specifier) :
    first.sourceView? specifier = second.sourceView? specifier :=
  congrArg (Option.map _) same

theorem foldView?_of_sourceView? (same : first.sourceView? specifier = second.sourceView? specifier) :
    first.foldView? specifier = second.foldView? specifier := by
  unfold sourceView? at same
  unfold foldView?
  cases one : first.get? specifier with
  | none =>
    rw [one, Option.map_none, eq_comm, Option.map_eq_none_iff] at same
    rw [same]
  | some record =>
    rw [one, Option.map_some, eq_comm, Option.map_eq_some_iff] at same
    obtain ⟨other, two, view⟩ := same
    simp only [ModuleRecord.sourceView, Prod.mk.injEq] at view
    obtain ⟨external, source, targets⟩ := view
    simp only [two, ModuleRecord.folds, external, source, targets]
    rfl

theorem contentHash?_of_sourceView?
    (agree : ∀ other, ReflTransGen first.FoldsInto specifier other →
      first.sourceView? other = second.sourceView? other) :
    first.contentHash? specifier = second.contentHash? specifier :=
  contentHash?_congr fun other reached => foldView?_of_sourceView? (agree other reached)

theorem sourceView?_modify {changed : Specifier} {change : ModuleRecord → ModuleRecord}
    (keeps : ∀ record, (change record).sourceView = record.sourceView) (other : Specifier) :
    (graph.modify changed change).sourceView? other = graph.sourceView? other := by
  rw [sourceView?, sourceView?, get?_modify]
  split
  · next same =>
    rw [same, Option.map_map]
    exact congrFun (congrArg _ (funext keeps)) _
  · rfl

/-- Content hashes read the static source graph only. They are the same in graphs that agree on it wherever a
module leads. So they do not change with all else that records hold, with the order of the records, or with
modules that are not reached. -/
theorem contentHash?_reads_sources (graph : ModuleGraph) (specifier : Specifier) :
    (∀ other : ModuleGraph,
      (∀ reached, ReflTransGen graph.FoldsInto specifier reached →
        graph.sourceView? reached = other.sourceView? reached) →
      graph.contentHash? specifier = other.contentHash? specifier) ∧
    (∀ changed change, (∀ record : ModuleRecord, (change record).sourceView = record.sourceView) →
      (graph.modify changed change).contentHash? specifier = graph.contentHash? specifier) ∧
    (∀ other : ModuleGraph, graph.records.entries.Perm other.records.entries →
      graph.contentHash? specifier = other.contentHash? specifier) ∧
    (∀ changed, ¬ ReflTransGen graph.FoldsInto specifier changed →
      (graph.erase changed).1.contentHash? specifier = graph.contentHash? specifier ∧
      (∀ record, record.specifier = changed →
        (graph.insert record).contentHash? specifier = graph.contentHash? specifier) ∧
      ∀ change, (graph.modify changed change).contentHash? specifier = graph.contentHash? specifier) := by
  refine ⟨fun other => contentHash?_of_sourceView?, fun changed change keeps => ?_, fun other same => ?_,
    fun changed apart => ?_⟩
  · exact (contentHash?_of_sourceView? fun reached _ => (sourceView?_modify keeps reached).symm).symm
  · exact contentHash?_of_sourceView? fun reached _ =>
      sourceView?_congr (OrderedMap.get?_of_perm same reached)
  · have elsewhere (other : ModuleGraph)
        (same : ∀ kept, changed ≠ kept → other.get? kept = graph.get? kept) :
        other.contentHash? specifier = graph.contentHash? specifier := by
      refine (contentHash?_of_sourceView? fun reached leads => sourceView?_congr ?_).symm
      exact (same reached fun met => apart (met ▸ leads)).symm
    refine ⟨elsewhere _ fun kept differ => ?_, fun record filed => elsewhere _ fun kept differ => ?_,
      fun change => elsewhere _ fun kept differ => ?_⟩
    · rw [get?_erase, if_neg differ]
    · rw [get?_insert, if_neg (filed ▸ differ)]
    · rw [get?_modify, if_neg differ]

/-! ## A ring, before and after it is compiled -/

/-- Two modules import each other, and one asks for a third one later. -/
def lazyRing : ModuleGraph :=
  empty
    |>.insert { specifier := ⟨"/lazy.js"⟩, sourceHash := "lazy" }
    |>.insert
      { specifier := ⟨"/a.js"⟩
        sourceHash := "a"
        dependencies := [{ target := ⟨"/b.js"⟩ }, { target := ⟨"/lazy.js"⟩, isDynamic := true }] }
    |>.insert { specifier := ⟨"/b.js"⟩, sourceHash := "b", dependencies := [{ target := ⟨"/a.js"⟩ }] }

/-- The same ring in another order, compiled, with a slot, and without the third module. -/
def compiledRing : ModuleGraph :=
  empty
    |>.insert
      { specifier := ⟨"/b.js"⟩
        sourceHash := "b"
        contentHash := "old"
        dependencies := [{ target := ⟨"/a.js"⟩, slot? := some ⟨7, 16⟩ }]
        state := .ready }
    |>.insert { specifier := ⟨"/a.js"⟩, sourceHash := "a", dependencies := [{ target := ⟨"/b.js"⟩ }] }

theorem reached_lazyRing {reached : Specifier}
    (leads : ReflTransGen lazyRing.FoldsInto ⟨"/a.js"⟩ reached) :
    reached ∈ [(⟨"/a.js"⟩ : Specifier), ⟨"/b.js"⟩] := by
  induction leads with
  | refl => exact List.mem_cons_self
  | @tail importer target _ folds member =>
    obtain ⟨source, targets, view, inside⟩ := folds
    have next : target ∈ lazyRing.children .static importer := (children_static view).symm ▸ inside
    have closed : ∀ importer ∈ [(⟨"/a.js"⟩ : Specifier), ⟨"/b.js"⟩],
        ∀ target ∈ lazyRing.children .static importer, target ∈ [(⟨"/a.js"⟩ : Specifier), ⟨"/b.js"⟩] := by
      decide
    exact closed importer member target next

theorem contentHash?_reads_sources_ring :
    lazyRing.contentHash? ⟨"/a.js"⟩ = compiledRing.contentHash? ⟨"/a.js"⟩ ∧
      (lazyRing.erase ⟨"/lazy.js"⟩).1.contentHash? ⟨"/a.js"⟩ = lazyRing.contentHash? ⟨"/a.js"⟩ := by
  obtain ⟨agrees, -, -, unreached⟩ := lazyRing.contentHash?_reads_sources ⟨"/a.js"⟩
  have same : ∀ reached ∈ [(⟨"/a.js"⟩ : Specifier), ⟨"/b.js"⟩],
      lazyRing.sourceView? reached = compiledRing.sourceView? reached := by decide
  refine ⟨agrees _ fun reached leads => same reached (reached_lazyRing leads), (unreached _ fun leads => ?_).1⟩
  exact absurd (reached_lazyRing leads) (by decide)

end ModuleGraph

end ModuleBuild
