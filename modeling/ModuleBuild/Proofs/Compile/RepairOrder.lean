import Mathlib.Data.Nat.Find
import ModuleBuild.Proofs.Compile.Attempts
import ModuleBuild.Proofs.Graph.WalkOrder
/-!
The order in which the importers of a module are listed and repaired, direct ones and others. It is that of a
depth-first walk: an importer is followed at once by what imports it in turn, however near the importers are
that come only then. Nearer modules do come first along each chain of imports.
-/

namespace ModuleBuild

open Relation

namespace ModuleGraph

/-- A chain of imports of some length leads from a module to another. -/
inductive ImportChain (graph : ModuleGraph) (target : Specifier) : Specifier → Nat → Prop
  | direct {importer : Specifier} (imports : graph.Imports importer target) :
      ImportChain graph target importer 1
  | through {importer next : Specifier} {length : Nat} (imports : graph.Imports importer next)
      (chain : ImportChain graph target next length) : ImportChain graph target importer (length + 1)

/-- The length of the shortest chain of imports from a module to another. -/
def IsDistance (graph : ModuleGraph) (target specifier : Specifier) (distance : Nat) : Prop :=
  graph.ImportChain target specifier distance ∧
    ∀ length, graph.ImportChain target specifier length → distance ≤ length

/-- A chain of imports leads from a module to another, and none of the modules before the end is to be
avoided. -/
def LeadsTo (graph : ModuleGraph) (avoided : List Specifier) (importer target : Specifier) : Prop :=
  ReflTransGen (fun one other => graph.Imports one other ∧ one ∉ avoided) importer target

variable {graph : ModuleGraph} {target specifier : Specifier}

theorem ImportChain.pos {length : Nat} (chain : graph.ImportChain target specifier length) :
    0 < length := by
  cases chain <;> omega

theorem exists_importChain (leads : TransGen graph.Imports specifier target) :
    ∃ length, graph.ImportChain target specifier length := by
  induction leads using TransGen.head_induction_on with
  | single imports => exact ⟨1, .direct imports⟩
  | head imports _ ih =>
    obtain ⟨length, chain⟩ := ih
    exact ⟨length + 1, .through imports chain⟩

theorem exists_isDistance (leads : TransGen graph.Imports specifier target) :
    ∃ distance, graph.IsDistance target specifier distance := by
  classical
  have some := exists_importChain leads
  exact ⟨Nat.find some, Nat.find_spec some, fun _ chain => Nat.find_min' some chain⟩

theorem IsDistance.le_succ {importer : Specifier} {distance far : Nat}
    (imports : graph.Imports importer specifier) (near : graph.IsDistance target specifier distance)
    (beyond : graph.IsDistance target importer far) : far ≤ distance + 1 :=
  beyond.2 _ (.through imports near.1)

theorem leadsAround_dependents (indexed : graph.Indexed) {avoided : List Specifier}
    (fresh : specifier ∉ avoided) (importer : Specifier) :
    graph.LeadsAround .dependents avoided specifier importer ↔
      graph.LeadsTo avoided importer specifier := by
  have same : (fun one other => graph.Edge .dependents one other ∧ other ∉ avoided) =
      Function.swap fun one other => graph.Imports one other ∧ one ∉ avoided := by
    funext one other
    exact propext (and_congr_left fun _ => indexed.linked other one)
  rw [LeadsAround, and_iff_right fresh, same, reflTransGen_swap]
  rfl

/-! ## The list of importers -/

namespace Walk

/-- A visitor that goes on everywhere and keeps some of what it meets has kept these in their order. -/
theorem run_keeping {direction : Direction} (visitor : Visitor (List Specifier)) (keep : Specifier → Bool)
    (enters : ∀ met depth found, 0 < depth →
      (visitor.enter met (graph.get? met) depth found).1 = if keep met then met :: found else found)
    (goesOn : ∀ met record? depth found, (visitor.enter met record? depth found).2 = .continue)
    (leaves : ∀ met record? found, visitor.leave met record? found = found)
    (revisits : ∀ met record? onPath found, visitor.revisit met record? onPath found = found)
    (path : List (Frame graph direction)) (traced : List Specifier) :
    ∃ later, meets path traced = later ++ traced ∧
      (run graph direction visitor path traced []).state = later.filter keep := by
  rw [← traced_run visitor goesOn path traced []]
  refine run_induction (fun met found => ∃ later, met = later ++ traced ∧ found = later.filter keep)
    (fun _ => True) (fun _ _ _ _ => trivial) ?_ ?_ ?_ path traced [] (fun _ _ _ _ => trivial) ⟨[], rfl, rfl⟩
  · rintro met depth _ _ - below - ⟨later, rfl, rfl⟩
    refine ⟨met :: later, rfl, ?_⟩
    rw [enters met depth _ below, List.filter_cons]
  · intro met _ _ kept
    rwa [leaves]
  · intro met onPath _ _ _ kept
    rwa [revisits]

end Walk

/-- What a walk from a module to its importers meets is the list of these, and the module itself. -/
theorem meets_dependents (graph : ModuleGraph) (specifier : Specifier) :
    Walk.meets [Walk.frame graph .dependents specifier] [specifier] =
      (graph.transitiveDependents specifier).reverse ++ [specifier] := by
  let below : Visitor (List Specifier) :=
    { enter := fun met _ depth found => (if depth = 0 then found else met :: found, .continue) }
  obtain ⟨later, met, kept⟩ := Walk.run_keeping below (fun _ => true)
    (fun met depth found deep => if_neg (Nat.ne_of_gt deep)) (fun _ _ _ _ => rfl) (fun _ _ _ => rfl)
    (fun _ _ _ _ => rfl) [Walk.frame graph .dependents specifier] [specifier]
  have listed : graph.transitiveDependents specifier = later.reverse := by
    simp only [List.filter_true] at kept
    rw [← kept]
    simp [transitiveDependents, walk, below]
  rw [met, listed, List.reverse_reverse]

/-- The modules repaired after a change are those importers of the changed one that are ready, in their order. -/
theorem affected_eq_filter (graph : ModuleGraph) (changed : Specifier) :
    Workspace.affected graph changed =
      (graph.transitiveDependents changed).filter fun other => (graph.get? other).any (·.isReady) := by
  obtain ⟨later, met, kept⟩ := Walk.run_keeping readyBelow (fun other => (graph.get? other).any (·.isReady))
    (fun met depth found deep => by simp [readyBelow, deep]) (fun _ _ _ _ => rfl) (fun _ _ _ => rfl)
    (fun _ _ _ _ => rfl) [Walk.frame graph .dependents changed] [changed]
  rw [meets_dependents] at met
  rw [affected_eq, kept, ← List.append_cancel_right met, List.filter_reverse, List.reverse_reverse]

theorem follow_frame (graph : ModuleGraph) (specifier : Specifier) :
    Walk.Follow [Walk.frame graph .dependents specifier] [specifier] :=
  Walk.Follow.enter (fun _ member => absurd member List.not_mem_nil) specifier

theorem nodup_transitiveDependents (graph : ModuleGraph) (specifier : Specifier) :
    ((graph.transitiveDependents specifier).reverse ++ [specifier]).Nodup := by
  have walked : (graph.walk specifier .dependents [] following ()).traced =
      Walk.meets [Walk.frame graph .dependents specifier] [specifier] := by
    simp [walk, following, Walk.meets]
  obtain ⟨-, told, -, finishes⟩ := graph.walk_logged specifier .dependents [] following ()
  have entries := finishes.tells.traced
  rw [told, walked, meets_dependents, List.append_nil] at entries
  rw [entries]
  exact List.nodup_reverse.2 finishes.tells.once

theorem mem_transitiveDependents (indexed : graph.Indexed) (other : Specifier) :
    other ∈ graph.transitiveDependents specifier ↔
      other ≠ specifier ∧ TransGen graph.Imports other specifier := by
  have block := Walk.mem_of_meets_frame List.not_mem_nil (graph.meets_dependents specifier) other
  rw [List.mem_reverse, leadsAround_dependents indexed List.not_mem_nil] at block
  rw [block]
  refine and_congr_right fun differ => ?_
  have plain : (fun one other => graph.Imports one other ∧ one ∉ ([] : List Specifier)) = graph.Imports := by
    simp
  rw [LeadsTo, plain, reflTransGen_iff_eq_or_transGen, or_iff_right (Ne.symm differ)]

/-- Each importer that is listed imports the given module, or one that is listed before it. -/
theorem imports_earlier (indexed : graph.Indexed) {before after : List Specifier} {other : Specifier}
    (split : graph.transitiveDependents specifier = before ++ other :: after) :
    ∃ imported, (imported = specifier ∨ imported ∈ before) ∧ graph.Imports other imported := by
  obtain ⟨imported, earlier, follows⟩ := Walk.meets_after _ _ _ (graph.follow_frame specifier)
    (graph.meets_dependents specifier) before after other (by rw [List.reverse_reverse, split])
  exact ⟨imported, by simpa [or_comm] using earlier, (follows_dependents indexed).1 follows⟩

theorem nearer_listed (indexed : graph.Indexed) {before after : List Specifier} {other : Specifier}
    (split : graph.transitiveDependents specifier = before ++ other :: after) {distance nearer : Nat}
    (far : graph.IsDistance specifier other distance) (pos : 0 < nearer) (less : nearer < distance) :
    ∃ earlier ∈ before, graph.IsDistance specifier earlier nearer := by
  obtain ⟨imported, start | earlier, imports⟩ := imports_earlier indexed split
  · have close := far.2 1 (.direct (start ▸ imports))
    omega
  · have listed : imported ∈ graph.transitiveDependents specifier :=
      split ▸ List.mem_append_left _ earlier
    obtain ⟨own, near⟩ := exists_isDistance ((mem_transitiveDependents indexed imported).1 listed).2
    have bound := near.le_succ imports far
    rcases Nat.lt_or_ge nearer own with inside | here
    · obtain ⟨first, rest, rfl⟩ := List.append_of_mem earlier
      rw [List.append_assoc, List.cons_append] at split
      obtain ⟨found, member, same⟩ := nearer_listed indexed split near pos inside
      exact ⟨found, List.mem_append_left _ member, same⟩
    · obtain rfl : nearer = own := by omega
      exact ⟨imported, earlier, near⟩
termination_by before.length
decreasing_by simp_all

/-- A listed module is followed at once by what leads to it around the modules listed before. -/
theorem block_listed (indexed : graph.Indexed) {before after : List Specifier} {other : Specifier}
    (split : graph.transitiveDependents specifier = before ++ other :: after) :
    ∃ block rest, after = block ++ rest ∧ ∀ later, later ∈ block ↔
      later ≠ other ∧ graph.LeadsTo (specifier :: before) later other := by
  obtain ⟨block, rest, same, members⟩ := Walk.meets_block _ _ _ (graph.meets_dependents specifier) before
    after other (by rw [List.reverse_reverse, split])
  refine ⟨block, rest, same, fun later => ?_⟩
  have once := graph.nodup_transitiveDependents specifier
  have fresh : other ∉ before.reverse ++ [specifier] := by
    rw [split, List.reverse_append, List.reverse_cons, List.append_assoc, List.append_assoc,
      List.singleton_append] at once
    exact (List.nodup_cons.1 (List.nodup_append.1 once).2.1).1
  have avoids : graph.LeadsTo (before.reverse ++ [specifier]) later other ↔
      graph.LeadsTo (specifier :: before) later other := by
    simp [LeadsTo, or_comm, and_comm]
  rw [members, leadsAround_dependents indexed fresh, avoids]

end ModuleGraph

namespace Workspace

/-- The modules that a repair reports are among those that it goes over, in their order. -/
theorem sublist_refreshAll (work : List Specifier) (workspace : Workspace)
    (indexed : workspace.graph.Indexed) (propagation : Propagation) :
    ∃ updated, (workspace.refreshAll propagation work).1.updated = propagation.updated ++ updated ∧
      (updated.map (·.specifier)).Sublist work := by
  induction work generalizing workspace propagation with
  | nil => exact ⟨[], (List.append_nil _).symm, .slnil⟩
  | cons first rest ih =>
    have attempt := attempts_refresh workspace first none
    have indexed' := attempt.revises.indexed indexed
    have reported (refreshed : Refreshed) (done : (workspace.refresh first none).1 = .ok (some refreshed)) :
        refreshed.record.specifier = first :=
      attempt.specifier_reported (fun _ _ found => indexed.keyed found) done
    rw [refreshAll]
    split
    · next error after refresh =>
      rw [refresh] at indexed'
      obtain ⟨updated, same, inside⟩ := ih after indexed' _
      exact ⟨updated, same, inside.cons first⟩
    · next after refresh =>
      rw [refresh] at indexed'
      obtain ⟨updated, same, inside⟩ := ih after indexed' _
      exact ⟨updated, same, inside.cons first⟩
    · next refreshed after refresh =>
      rw [refresh] at indexed' reported
      obtain ⟨updated, same, inside⟩ := ih after indexed' _
      rw [same]
      split
      · refine ⟨refreshed.record :: updated, by simp, ?_⟩
        rw [List.map_cons, reported refreshed rfl]
        exact inside.cons_cons first
      · exact ⟨updated, rfl, inside.cons first⟩

/-- The importers of a module are listed once each, in the order of a depth-first walk: before an importer
come importers at all smaller distances, and at once after it comes all that leads to it around what
came before. Those that a repair reports come in the same order. -/
theorem transitiveDependents_in_walk_order (workspace : Workspace) (indexed : workspace.graph.Indexed)
    (specifier : Specifier) :
    let graph := workspace.graph
    let listed := graph.transitiveDependents specifier
    listed.Nodup ∧
      (∀ other, other ∈ listed ↔ other ≠ specifier ∧ TransGen graph.Imports other specifier) ∧
      (∀ before other after, listed = before ++ other :: after →
        (∀ distance nearer, graph.IsDistance specifier other distance → 0 < nearer → nearer < distance →
          ∃ earlier ∈ before, graph.IsDistance specifier earlier nearer) ∧
        ∃ block rest, after = block ++ rest ∧ ∀ later, later ∈ block ↔
          later ≠ other ∧ graph.LeadsTo (specifier :: before) later other) ∧
      ((workspace.propagate specifier).1.updated.map (·.specifier)).Sublist listed := by
  intro graph listed
  refine ⟨?_, ModuleGraph.mem_transitiveDependents indexed, fun before other after split => ⟨?_, ?_⟩, ?_⟩
  · exact List.nodup_reverse.1 (List.nodup_append.1 (graph.nodup_transitiveDependents specifier)).1
  · intro distance nearer
    exact ModuleGraph.nearer_listed indexed split
  · exact ModuleGraph.block_listed indexed split
  · obtain ⟨updated, same, inside⟩ := sublist_refreshAll (affected graph specifier) workspace indexed {}
    rw [propagate, same, List.nil_append]
    rw [ModuleGraph.affected_eq_filter] at inside
    exact inside.trans List.filter_sublist

end Workspace

/-! ## A near importer that comes last -/

namespace ModuleGraph

/-- Two modules import a third one, and one of the two is imported in turn. -/
def stalk : ModuleGraph :=
  empty
    |>.insert { specifier := ⟨"/b.js"⟩, dependencies := [{ target := ⟨"/s.js"⟩ }] }
    |>.insert { specifier := ⟨"/a.js"⟩, dependencies := [{ target := ⟨"/s.js"⟩ }] }
    |>.insert { specifier := ⟨"/c.js"⟩, dependencies := [{ target := ⟨"/a.js"⟩ }] }

theorem indexed_stalk : stalk.Indexed :=
  ((Indexed.empty.insert _).insert _).insert _

theorem dependents_stalk :
    stalk.dependents ⟨"/s.js"⟩ = [⟨"/a.js"⟩, ⟨"/b.js"⟩] ∧ stalk.dependents ⟨"/a.js"⟩ = [⟨"/c.js"⟩] ∧
      stalk.dependents ⟨"/b.js"⟩ = [] ∧ stalk.dependents ⟨"/c.js"⟩ = [] := by
  have sorted : (stalk.importersOf ⟨"/s.js"⟩).Pairwise fun one other => (compare one other).isLE := by decide
  exact ⟨List.mergeSort_of_pairwise sorted, List.mergeSort_singleton _, List.mergeSort_nil, List.mergeSort_nil⟩

theorem transitiveDependents_stalk :
    stalk.transitiveDependents ⟨"/s.js"⟩ = [⟨"/a.js"⟩, ⟨"/c.js"⟩, ⟨"/b.js"⟩] := by
  obtain ⟨shared, first, second, last⟩ := dependents_stalk
  simp [transitiveDependents, walk, Walk.run, Walk.frame, children, shared, first, second, last]

theorem isDistance_stalk : stalk.IsDistance ⟨"/s.js"⟩ ⟨"/c.js"⟩ 2 ∧ stalk.IsDistance ⟨"/s.js"⟩ ⟨"/b.js"⟩ 1 := by
  have direct (importer : Specifier) (imports : stalk.Imports importer ⟨"/s.js"⟩) :
      stalk.IsDistance ⟨"/s.js"⟩ importer 1 := ⟨.direct imports, fun _ chain => chain.pos⟩
  refine ⟨⟨.through ⟨{ target := ⟨"/a.js"⟩ }, by decide, rfl⟩
    (.direct ⟨{ target := ⟨"/s.js"⟩ }, by decide, rfl⟩), fun length chain => ?_⟩,
    direct _ ⟨{ target := ⟨"/s.js"⟩ }, by decide, rfl⟩⟩
  cases chain with
  | direct imports =>
    have none : ¬ ∃ edge ∈ stalk.dependencies ⟨"/c.js"⟩, edge.target = ⟨"/s.js"⟩ := by decide
    exact absurd imports none
  | through _ chain => exact Nat.succ_le_succ chain.pos

theorem stalk_not_nearest_first :
    ¬ (stalk.transitiveDependents ⟨"/s.js"⟩).Pairwise fun one other => ∀ near far,
      stalk.IsDistance ⟨"/s.js"⟩ one near → stalk.IsDistance ⟨"/s.js"⟩ other far → near ≤ far := by
  intro ordered
  rw [transitiveDependents_stalk] at ordered
  have last := List.rel_of_pairwise_cons (List.pairwise_cons.1 ordered).2 (List.mem_singleton_self _)
  exact absurd (last 2 1 isDistance_stalk.1 isDistance_stalk.2) (by decide)

end ModuleGraph

theorem Workspace.transitiveDependents_in_walk_order_stalk :
    ModuleGraph.stalk.Indexed ∧
      (∃ earlier ∈ [⟨"/a.js"⟩], ModuleGraph.stalk.IsDistance ⟨"/s.js"⟩ earlier 1) ∧
      ((({ graph := ModuleGraph.stalk } : Workspace).propagate ⟨"/s.js"⟩).1.updated.map
        (·.specifier)).Sublist [⟨"/a.js"⟩, ⟨"/c.js"⟩, ⟨"/b.js"⟩] := by
  obtain ⟨-, -, order, repaired⟩ := Workspace.transitiveDependents_in_walk_order
    { graph := ModuleGraph.stalk } ModuleGraph.indexed_stalk ⟨"/s.js"⟩
  rw [ModuleGraph.transitiveDependents_stalk] at order repaired
  exact ⟨ModuleGraph.indexed_stalk, (order [⟨"/a.js"⟩] ⟨"/c.js"⟩ [⟨"/b.js"⟩] rfl).1 2 1
    ModuleGraph.isDistance_stalk.1 (by decide) (by decide), repaired⟩

end ModuleBuild
