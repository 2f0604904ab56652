import ModuleBuild.Proofs.Bundle.Chunks
/-!
The order of the modules in a chunk. A module comes after those that it imports statically, unless they lead
back to it.
-/

namespace ModuleBuild

open Relation

/-- A module imports another one statically. -/
def ModuleGraph.ImportsStatically (graph : ModuleGraph) (specifier target : Specifier) : Prop :=
  ∃ edge ∈ graph.dependencies specifier, edge.isDynamic = false ∧ edge.target = target

namespace Bundle

variable {graph : ModuleGraph} {analysis : Analysis} {excluded : List Specifier}

namespace Analysis

/-- How gathering stands with the order of modules: each module on the path is led to by those outside of it,
and what a complete module pulls in was complete before or leads back to it. -/
structure Arranged (graph : ModuleGraph) (analysis : Analysis) (excluded : List Specifier)
    (path : List Frame) (seen gathered : List Specifier) : Prop where
  met : ∀ specifier ∈ seen, (∃ frame ∈ path, specifier ∈ frame.specifier?) ∨ specifier ∈ gathered
  chain : path.Pairwise fun inner outer => ∀ above ∈ outer.specifier?, ∃ below ∈ inner.specifier?,
    ReflTransGen graph.Pulls above below
  pulls : ∀ frame ∈ path, ∀ specifier ∈ frame.specifier?, ∀ number ∈ frame.pending, ∀ target,
    analysis.forest.label? number = some (target, true) → graph.Pulls specifier target
  below : ∀ frame ∈ path, ∀ specifier ∈ frame.specifier?, ∀ target, graph.Pulls specifier target →
    target ∉ excluded →
      target ∈ seen ∨ ∃ number ∈ frame.pending, analysis.forest.label? number = some (target, true)
  before : ∀ later specifier earlier, gathered = later ++ specifier :: earlier → ∀ target,
    graph.Pulls specifier target → target ∉ excluded →
      target ∈ earlier ∨ ReflTransGen graph.Pulls target specifier

namespace Arranged

variable {path outer : List Frame} {seen gathered : List Specifier} {specifier? : Option Specifier}
  {number : Nat} {pending : List Nat}

theorem leave (arranged : Arranged graph analysis excluded (⟨specifier?, []⟩ :: outer) seen gathered) :
    Arranged graph analysis excluded outer seen (specifier?.toList ++ gathered) := by
  obtain ⟨leads, chain⟩ := List.pairwise_cons.1 arranged.chain
  refine
    { met := fun specifier member => ?_
      chain := chain
      pulls := fun frame member => arranged.pulls frame (List.mem_cons_of_mem _ member)
      below := fun frame member => arranged.below frame (List.mem_cons_of_mem _ member)
      before := fun later specifier earlier split target pulls allowed => ?_ }
  · rcases arranged.met specifier member with ⟨frame, inside, own⟩ | complete
    · rcases List.mem_cons.1 inside with rfl | out
      · exact .inr (List.mem_append_left _ (Option.mem_toList.2 own))
      · exact .inl ⟨frame, out, own⟩
    · exact .inr (List.mem_append_right _ complete)
  · cases specifier? with
    | none => exact arranged.before later specifier earlier split target pulls allowed
    | some leaving =>
      cases later with
      | cons first later =>
        exact arranged.before later specifier earlier (List.cons.inj split).2 target pulls allowed
      | nil =>
        obtain ⟨rfl, rfl⟩ := List.cons.inj split
        -- Nothing is pending below it, so what it pulls in was met: it is complete, or on the path to it.
        rcases arranged.below _ List.mem_cons_self leaving rfl target pulls allowed with seen | ⟨_, none, -⟩
        · rcases arranged.met target seen with ⟨frame, inside, own⟩ | complete
          · rcases List.mem_cons.1 inside with rfl | out
            · rw [Option.mem_some_iff.1 own]
              exact .inr .refl
            · obtain ⟨below, same, reaches⟩ := leads frame out target own
              rw [← Option.mem_some_iff.1 same] at reaches
              exact .inr reaches
          · exact .inl complete
        · cases none

theorem skip
    (arranged : Arranged graph analysis excluded (⟨specifier?, number :: pending⟩ :: outer) seen gathered)
    (taken : ∀ target, analysis.forest.label? number = some (target, true) → target ∉ excluded →
      target ∈ seen) :
    Arranged graph analysis excluded (⟨specifier?, pending⟩ :: outer) seen gathered := by
  obtain ⟨leads, chain⟩ := List.pairwise_cons.1 arranged.chain
  refine
    { met := fun specifier member => ?_
      chain := List.pairwise_cons.2 ⟨leads, chain⟩
      pulls := fun frame member specifier own => ?_
      below := fun frame member specifier own target pulls allowed => ?_
      before := arranged.before }
  · simpa only [List.exists_mem_cons_iff] using arranged.met specifier member
  · rcases List.mem_cons.1 member with rfl | out
    · exact fun next waits => arranged.pulls _ List.mem_cons_self specifier own next
        (List.mem_cons_of_mem _ waits)
    · exact arranged.pulls frame (List.mem_cons_of_mem _ out) specifier own
  · rcases List.mem_cons.1 member with rfl | out
    · rcases arranged.below _ List.mem_cons_self specifier own target pulls allowed with
        met | ⟨next, waits, label⟩
      · exact .inl met
      · rcases List.mem_cons.1 waits with rfl | later
        · exact .inl (taken target label allowed)
        · exact .inr ⟨next, later, label⟩
    · exact arranged.below frame (List.mem_cons_of_mem _ out) specifier own target pulls allowed

theorem push
    (arranged : Arranged graph analysis excluded (⟨specifier?, number :: pending⟩ :: outer) seen gathered)
    (mirrors : analysis.Mirrors graph) {node : Occurrence} (found : analysis.forest.get? number = some node)
    (included : node.role.isIncluded = true) :
    Arranged graph analysis excluded
      (⟨some node.specifier, analysis.below node⟩ :: ⟨specifier?, pending⟩ :: outer)
      (node.specifier :: seen) gathered := by
  obtain ⟨leads, chain⟩ := List.pairwise_cons.1 arranged.chain
  have label : analysis.forest.label? number = some (node.specifier, true) := by
    rw [Forest.label?, found, Option.map_some, included]
  have pulled : ∀ above ∈ specifier?, graph.Pulls above node.specifier := fun above own =>
    arranged.pulls _ List.mem_cons_self above own number List.mem_cons_self _ label
  have lists := mirrors.mem_below found included
  refine
    { met := fun specifier member => ?_
      chain := List.pairwise_cons.2
        ⟨fun frame member above own => ⟨node.specifier, rfl, ?_⟩, List.pairwise_cons.2 ⟨leads, chain⟩⟩
      pulls := fun frame member specifier own next waits target label => ?_
      below := fun frame member specifier own target pulls allowed => ?_
      before := arranged.before }
  · rcases List.mem_cons.1 member with rfl | old
    · exact .inl ⟨_, List.mem_cons_self, rfl⟩
    · refine (arranged.met specifier old).imp_left ?_
      rintro ⟨frame, inside, own⟩
      rcases List.mem_cons.1 inside with rfl | out
      · exact ⟨⟨specifier?, pending⟩, by simp, own⟩
      · exact ⟨frame, by simp [out], own⟩
  · rcases List.mem_cons.1 member with rfl | out
    · exact .single (pulled above own)
    · obtain ⟨below, same, reaches⟩ := leads frame out above own
      exact reaches.tail (pulled below same)
  · rcases List.mem_cons.1 member with rfl | member
    · rw [← Option.mem_some_iff.1 own]
      exact (lists target).1 ⟨next, waits, label⟩
    · rcases List.mem_cons.1 member with rfl | out
      · exact arranged.pulls _ List.mem_cons_self specifier own next (List.mem_cons_of_mem _ waits) target label
      · exact arranged.pulls frame (List.mem_cons_of_mem _ out) specifier own next waits target label
  · rcases List.mem_cons.1 member with rfl | member
    · rw [← Option.mem_some_iff.1 own] at pulls
      exact .inr ((lists target).2 pulls)
    · rcases List.mem_cons.1 member with rfl | out
      · rcases arranged.below _ List.mem_cons_self specifier own target pulls allowed with
          met | ⟨next, waits, label'⟩
        · exact .inl (List.mem_cons_of_mem _ met)
        · rcases List.mem_cons.1 waits with rfl | later
          -- What waited for this very node is met now.
          · rw [label, Option.some.injEq, Prod.mk.injEq] at label'
            exact .inl (label'.1 ▸ List.mem_cons_self)
          · exact .inr ⟨next, later, label'⟩
      · exact (arranged.below frame (List.mem_cons_of_mem _ out) specifier own target pulls allowed).imp_left
          (List.mem_cons_of_mem _)

end Arranged

/-- Every module is gathered after what it pulls in, but for modules that are left out or lead back to it. -/
theorem idxOf_lt_of_pulls (mirrors : analysis.Mirrors graph) (roots : List Nat) {specifier target : Specifier}
    (member : specifier ∈ analysis.collect roots excluded) (pulls : graph.Pulls specifier target)
    (allowed : target ∉ excluded) (oneWay : ¬ ReflTransGen graph.Pulls target specifier) :
    (analysis.collect roots excluded).idxOf target < (analysis.collect roots excluded).idxOf specifier := by
  have start : Arranged graph analysis excluded [⟨none, roots⟩] [] [] :=
    { met := by simp
      chain := List.pairwise_singleton _ _
      pulls := by simp
      below := by simp
      before := by simp }
  obtain ⟨met, complete, arranged, result⟩ :=
    gather_induction (fun _ _ _ _ arranged => arranged.leave)
      (fun _ _ _ _ _ _ taken arranged => arranged.skip taken)
      (fun _ _ _ _ _ _ _ found included _ _ arranged => arranged.push mirrors found included) _ _ _ start
  have nodup := (collect_ok mirrors roots excluded).1
  rw [collect, result] at member nodup ⊢
  obtain ⟨later, earlier, rfl⟩ := List.append_of_mem (List.mem_reverse.1 member)
  have before : target ∈ earlier :=
    (arranged.before later specifier earlier rfl target pulls allowed).resolve_right oneWay
  rw [List.reverse_append, List.reverse_cons, List.append_assoc] at nodup ⊢
  have apart : specifier ∉ earlier.reverse := fun inside =>
    List.disjoint_of_nodup_append nodup inside (by simp)
  rw [List.idxOf_append_of_mem (List.mem_reverse.2 before), List.idxOf_append_of_notMem apart]
  exact Nat.lt_add_right _ (List.idxOf_lt_length_of_mem (List.mem_reverse.2 before))

/-- The modules of a chunk come after those that they pull in and that are in it too. -/
theorem Mirrors.idxOf_lt (mirrors : analysis.Mirrors graph) {modules : List Specifier}
    (chunk : modules = analysis.sharedModules ∨ ∃ name, modules = analysis.entryModules name)
    {specifier target : Specifier} (member : specifier ∈ modules) (member' : target ∈ modules)
    (pulls : graph.Pulls specifier target) (oneWay : ¬ ReflTransGen graph.Pulls target specifier) :
    modules.idxOf target < modules.idxOf specifier := by
  rcases chunk with rfl | ⟨name, rfl⟩
  · exact idxOf_lt_of_pulls mirrors _ member pulls List.not_mem_nil oneWay
  · rw [entryModules] at member member' ⊢
    cases found : analysis.entryNamed? name with
    | none =>
      rw [found] at member
      cases member
    | some tree =>
      rw [found] at member member'
      obtain ⟨top, -, allowed, leads⟩ := ((collect_ok mirrors _ _).2 target).1 member'
      refine idxOf_lt_of_pulls mirrors _ member pulls ?_ oneWay
      cases leads with
      | refl => exact allowed
      | tail _ step => exact step.2

theorem Mirrors.bundled_of_mem (mirrors : analysis.Mirrors graph) {modules : List Specifier}
    (chunk : modules = analysis.sharedModules ∨ ∃ name, modules = analysis.entryModules name)
    {specifier : Specifier} (member : specifier ∈ modules) : graph.IsBundled specifier := by
  have collected {roots : List Nat} {excluded : List Specifier}
      (member : specifier ∈ analysis.collect roots excluded) : graph.IsBundled specifier := by
    obtain ⟨top, ⟨number, -, label⟩, -, leads⟩ := ((collect_ok mirrors _ _).2 specifier).1 member
    cases leads with
    | refl =>
      obtain ⟨node, found, same⟩ := Option.map_eq_some_iff.1 label
      rw [Prod.mk.injEq] at same
      obtain ⟨rfl, included⟩ := same
      exact mirrors.bundled _ (mirrors.sound.included number node found included)
    | tail _ step => exact step.1.2
  rcases chunk with rfl | ⟨name, rfl⟩
  · exact collected member
  · rw [entryModules] at member
    split at member
    · exact collected member
    · cases member

end Analysis

/-- In the shared chunk and in the chunk of each entry, a module comes after those that it imports statically,
unless they lead back to it by such imports. -/
theorem analyze_imports_first (graph : ModuleGraph) (given : List EntryPoint)
    (distinct : (given.map (·.name)).Nodup) (modules : List Specifier)
    (chunk : modules = (analyze graph given).sharedModules ∨
      ∃ name, modules = (analyze graph given).entryModules name)
    (importer imported : Specifier) (member : importer ∈ modules) (member' : imported ∈ modules)
    (edge : graph.ImportsStatically importer imported)
    (oneWay : ¬ TransGen graph.ImportsStatically imported importer) :
    modules.idxOf imported < modules.idxOf importer := by
  obtain ⟨_, _, _, _, _, _, visited⟩ :=
    analyzeFrom_ok _ _ _ _ (visited_nil graph) (scheduled_start graph distinct)
  have mirrors : (analyze graph given).Mirrors graph := visited.mirrors
  refine mirrors.idxOf_lt chunk member member' ⟨edge, mirrors.bundled_of_mem chunk member'⟩ fun leads => ?_
  have leads : ReflTransGen graph.ImportsStatically imported importer := leads.lift id fun _ _ step => step.1
  rcases reflTransGen_iff_eq_or_transGen.1 leads with rfl | back
  · exact oneWay (.single edge)
  · exact oneWay back

/-- The ring below one module more. -/
def belled : ModuleGraph :=
  ring.insert { ModuleRecord.awaiting ⟨"/top.js"⟩ with dependencies := [{ target := ⟨"/a.js"⟩ }] }

def belledEntries : List EntryPoint :=
  [{ name := "left", modules := [⟨"/top.js"⟩] }, { name := "right", modules := [⟨"/top.js"⟩] }]

theorem ring_of_transGen {specifier : Specifier}
    (leads : TransGen belled.ImportsStatically ⟨"/a.js"⟩ specifier) :
    specifier = ⟨"/a.js"⟩ ∨ specifier = ⟨"/b.js"⟩ := by
  have step (target : Specifier) : ∀ inside ∈ [(⟨"/a.js"⟩ : Specifier), ⟨"/b.js"⟩],
      belled.ImportsStatically inside target → target = ⟨"/a.js"⟩ ∨ target = ⟨"/b.js"⟩ := by
    rintro inside member ⟨edge, listed, isStatic, rfl⟩
    revert edge
    revert inside
    decide
  induction leads with
  | single edge => exact step _ _ (by simp) edge
  | tail _ edge ih => exact step _ _ (by simpa using ih) edge

/-- The module above the ring is shared with the ring, and comes after the one that it imports. -/
theorem analyze_imports_first_belled : (belledEntries.map (·.name)).Nodup ∧
    ⟨"/top.js"⟩ ∈ (analyze belled belledEntries).sharedModules ∧
    ⟨"/a.js"⟩ ∈ (analyze belled belledEntries).sharedModules ∧
    belled.ImportsStatically ⟨"/top.js"⟩ ⟨"/a.js"⟩ ∧
    ¬ TransGen belled.ImportsStatically ⟨"/a.js"⟩ ⟨"/top.js"⟩ ∧
    (analyze belled belledEntries).sharedModules.idxOf ⟨"/a.js"⟩ <
      (analyze belled belledEntries).sharedModules.idxOf ⟨"/top.js"⟩ := by
  have distinct : (belledEntries.map (·.name)).Nodup := by decide
  obtain ⟨_, _, _, _, _, scheduled, visited⟩ :=
    analyzeFrom_ok _ _ _ _ (visited_nil belled) (scheduled_start belled distinct)
  have partitions : Partitions belled belledEntries _ (analyze belled belledEntries) :=
    partitions_of_scheduled visited scheduled
  have edge : belled.ImportsStatically ⟨"/top.js"⟩ ⟨"/a.js"⟩ := ⟨{ target := ⟨"/a.js"⟩ }, by decide, rfl, rfl⟩
  have needs : belled.Needs [⟨"/top.js"⟩] ⟨"/top.js"⟩ := .root (by simp) ⟨_, rfl, rfl⟩
  have needs' : belled.Needs [⟨"/top.js"⟩] ⟨"/a.js"⟩ := needs.pulls ⟨edge, _, rfl, rfl⟩
  have shared {specifier : Specifier} (needs : belled.Needs [⟨"/top.js"⟩] specifier) :
      specifier ∈ (analyze belled belledEntries).sharedModules := by
    obtain ⟨left, isEntry, leftName, leftModules⟩ := partitions.entry_of_given List.mem_cons_self
    obtain ⟨right, isEntry', rightName, rightModules⟩ :=
      partitions.entry_of_given (List.mem_cons_of_mem _ List.mem_cons_self)
    refine (partitions.shared _).2 ⟨left, isEntry, right, isEntry', ?_⟩
    rw [leftName, rightName]
    exact ⟨by decide, leftModules ▸ needs, rightModules ▸ needs⟩
  have oneWay : ¬ TransGen belled.ImportsStatically ⟨"/a.js"⟩ ⟨"/top.js"⟩ := fun leads =>
    absurd (ring_of_transGen leads) (by decide)
  exact ⟨distinct, shared needs, shared needs', edge, oneWay,
    analyze_imports_first belled belledEntries distinct _ (.inl rfl) _ _ (shared needs) (shared needs') edge
      oneWay⟩

end Bundle

end ModuleBuild
