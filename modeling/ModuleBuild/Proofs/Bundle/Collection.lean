import ModuleBuild.Proofs.Bundle.Entries
/-!
Collecting the modules of a chunk from a forest that mirrors the imports: all that is needed from some
nodes on, but for modules that are excluded and what is needed through them only, each module once.
-/

namespace ModuleBuild.Bundle.Analysis

open ModuleGraph Relation

variable {graph : ModuleGraph} {analysis : Analysis} {excluded : List Specifier}

/-- Below a node that stands for code are the modules that are pulled in with it. -/
theorem Mirrors.mem_below (mirrors : analysis.Mirrors graph) {number : Nat} {node : Occurrence}
    (found : analysis.forest.get? number = some node) (included : node.role.isIncluded = true)
    (target : Specifier) :
    (∃ child ∈ analysis.below node, analysis.forest.label? child = some (target, true)) ↔
      graph.Pulls node.specifier target := by
  obtain ⟨owner, known⟩ := mirrors.sound.included number node found included
  obtain ⟨first, there, -⟩ := mirrors.sound.owners _ owner known
  rw [← mirrors.lists node.specifier owner target known, Forest.Lists]
  simp [below, known, there]

def Waits (analysis : Analysis) (path : List Frame) (target : Specifier) : Prop :=
  ∃ frame ∈ path, ∃ number ∈ frame.pending, analysis.forest.label? number = some (target, true)

/-- Where gathering stands: all modules that were met are complete or on the path, and what they pull in was
met or waits. -/
structure Gathering (graph : ModuleGraph) (analysis : Analysis) (excluded : List Specifier)
    (start within : Specifier → Prop) (path : List Frame) (seen gathered : List Specifier) : Prop where
  nodup : seen.Nodup
  split : seen.Perm (path.filterMap (·.specifier?) ++ gathered)
  inside : ∀ specifier ∈ seen, within specifier
  waiting : ∀ target, Waits analysis path target → target ∉ excluded → within target
  started : ∀ target, start target → target ∈ seen ∨ Waits analysis path target
  closed : ∀ specifier ∈ seen, ∀ target, graph.Pulls specifier target → target ∉ excluded →
    target ∈ seen ∨ Waits analysis path target

theorem waits_tail {specifier? : Option Specifier} {number : Nat} {pending : List Nat}
    {outer : List Frame} {target : Specifier} :
    Waits analysis (⟨specifier?, number :: pending⟩ :: outer) target ↔
      analysis.forest.label? number = some (target, true) ∨
        Waits analysis (⟨specifier?, pending⟩ :: outer) target := by
  simp only [Waits, List.mem_cons, exists_eq_or_imp, or_assoc]

variable {start within : Specifier → Prop} {path outer : List Frame} {seen gathered : List Specifier}

theorem Gathering.skip {specifier? : Option Specifier} {number : Nat} {pending : List Nat}
    (gathering : Gathering graph analysis excluded start within (⟨specifier?, number :: pending⟩ :: outer)
      seen gathered)
    (excludes : ∀ target, start target → target ∉ excluded)
    (taken : ∀ target, analysis.forest.label? number = some (target, true) → target ∉ excluded →
      target ∈ seen) :
    Gathering graph analysis excluded start within (⟨specifier?, pending⟩ :: outer) seen gathered := by
  refine { gathering with
    waiting := fun target waits => gathering.waiting target (waits_tail.2 (.inr waits))
    started := fun target starts => ?_
    closed := fun specifier member target pulls allowed => ?_ }
  · rcases gathering.started target starts with met | waits
    · exact .inl met
    · exact (waits_tail.1 waits).imp_left fun own => taken target own (excludes target starts)
  · rcases gathering.closed specifier member target pulls allowed with met | waits
    · exact .inl met
    · exact (waits_tail.1 waits).imp_left fun own => taken target own allowed

theorem Gathering.push {specifier? : Option Specifier} {number : Nat} {pending : List Nat}
    (gathering : Gathering graph analysis excluded start within (⟨specifier?, number :: pending⟩ :: outer)
      seen gathered)
    (mirrors : analysis.Mirrors graph)
    (spreads : ∀ specifier target, within specifier → graph.Pulls specifier target →
      target ∉ excluded → within target)
    {node : Occurrence} (found : analysis.forest.get? number = some node)
    (included : node.role.isIncluded = true) (allowed : node.specifier ∉ excluded)
    (fresh : node.specifier ∉ seen) :
    Gathering graph analysis excluded start within
      (⟨some node.specifier, analysis.below node⟩ :: ⟨specifier?, pending⟩ :: outer)
      (node.specifier :: seen) gathered := by
  have label : analysis.forest.label? number = some (node.specifier, true) := by
    rw [Forest.label?, found, Option.map_some, included]
  have own : within node.specifier :=
    gathering.waiting _ (waits_tail.2 (.inl label)) allowed
  have waits (target : Specifier) :
      Waits analysis (⟨some node.specifier, analysis.below node⟩ :: ⟨specifier?, pending⟩ :: outer)
          target ↔
        graph.Pulls node.specifier target ∨ Waits analysis (⟨specifier?, pending⟩ :: outer) target := by
    rw [← mirrors.mem_below found included target]
    simp [Waits]
  have onward {target : Specifier}
      (before : target ∈ seen ∨ Waits analysis (⟨specifier?, number :: pending⟩ :: outer) target) :
      target ∈ node.specifier :: seen ∨
        Waits analysis (⟨some node.specifier, analysis.below node⟩ :: ⟨specifier?, pending⟩ :: outer)
          target := by
    rcases before with met | waiting
    · exact .inl (List.mem_cons_of_mem _ met)
    · rcases waits_tail.1 waiting with same | later
      -- what waited for this very node is met now
      · rw [label, Option.some.injEq, Prod.mk.injEq] at same
        exact .inl (same.1 ▸ List.mem_cons_self)
      · exact .inr ((waits target).2 (.inr later))
  refine
    { nodup := List.nodup_cons.2 ⟨fresh, gathering.nodup⟩
      split := gathering.split.cons node.specifier
      inside := fun specifier member => ?_
      waiting := fun target waiting allowed => ?_
      started := fun target starts => onward (gathering.started target starts)
      closed := fun specifier member target pulls allowed => ?_ }
  · rcases List.mem_cons.1 member with rfl | old
    · exact own
    · exact gathering.inside specifier old
  · rcases (waits target).1 waiting with pulls | later
    · exact spreads _ target own pulls allowed
    · exact gathering.waiting target (waits_tail.2 (.inr later)) allowed
  · rcases List.mem_cons.1 member with rfl | old
    · exact .inr ((waits target).2 (.inl pulls))
    · exact onward (gathering.closed specifier old target pulls allowed)

/-- A module goes from the path to the gathered ones when nothing below it is pending. -/
theorem Gathering.leave {specifier? : Option Specifier}
    (gathering : Gathering graph analysis excluded start within (⟨specifier?, []⟩ :: outer) seen gathered) :
    Gathering graph analysis excluded start within outer seen (specifier?.toList ++ gathered) := by
  have waits {target : Specifier} :
      Waits analysis (⟨specifier?, []⟩ :: outer) target ↔ Waits analysis outer target := by
    simp [Waits]
  refine { gathering with
    split := gathering.split.trans ?_
    waiting := fun target waiting => gathering.waiting target (waits.2 waiting)
    started := fun target starts => (gathering.started target starts).imp_right waits.1
    closed := fun specifier member target pulls allowed =>
      (gathering.closed specifier member target pulls allowed).imp_right waits.1 }
  cases specifier? with
  | none => simp
  | some specifier => simpa using (List.perm_middle (a := specifier)).symm

structure Gathered (graph : ModuleGraph) (excluded : List Specifier) (start within : Specifier → Prop)
    (gathered : List Specifier) : Prop where
  nodup : gathered.Nodup
  inside : ∀ specifier ∈ gathered, within specifier
  started : ∀ target, start target → target ∈ gathered
  closed : ∀ specifier ∈ gathered, ∀ target, graph.Pulls specifier target → target ∉ excluded →
    target ∈ gathered

theorem Gathering.finish
    (gathering : Gathering graph analysis excluded start within [] seen gathered) :
    Gathered graph excluded start within gathered.reverse := by
  have split : gathered.reverse.Perm seen :=
    (List.reverse_perm gathered).trans (by simpa using gathering.split.symm)
  have none (target : Specifier) : ¬ Waits analysis [] target := by simp [Waits]
  refine ⟨split.nodup_iff.2 gathering.nodup, fun specifier member => ?_, fun target starts => ?_,
    fun specifier member target pulls allowed => ?_⟩
  · exact gathering.inside specifier (split.mem_iff.1 member)
  · exact split.mem_iff.2 ((gathering.started target starts).resolve_right (none target))
  · have met := gathering.closed specifier (split.mem_iff.1 member) target pulls allowed
    exact split.mem_iff.2 (met.resolve_right (none target))

/-- What each step of gathering keeps holds in the end, when nothing is on the path any more. -/
theorem gather_induction {holds : List Frame → List Specifier → List Specifier → Prop}
    (leave : ∀ specifier? outer seen gathered, holds (⟨specifier?, []⟩ :: outer) seen gathered →
      holds outer seen (specifier?.toList ++ gathered))
    (skip : ∀ specifier? number pending outer seen gathered,
      (∀ target, analysis.forest.label? number = some (target, true) → target ∉ excluded → target ∈ seen) →
      holds (⟨specifier?, number :: pending⟩ :: outer) seen gathered →
      holds (⟨specifier?, pending⟩ :: outer) seen gathered)
    (push : ∀ specifier? number pending outer seen gathered node,
      analysis.forest.get? number = some node → node.role.isIncluded = true → node.specifier ∉ excluded →
      node.specifier ∉ seen → holds (⟨specifier?, number :: pending⟩ :: outer) seen gathered →
      holds (⟨some node.specifier, analysis.below node⟩ :: ⟨specifier?, pending⟩ :: outer)
        (node.specifier :: seen) gathered)
    (path : List Frame) (seen gathered : List Specifier) (start : holds path seen gathered) :
    ∃ met complete, holds [] met complete ∧
      analysis.gather excluded path seen gathered = complete.reverse := by
  induction path, seen, gathered using gather.induct analysis excluded with
  | case1 seen gathered =>
    rw [gather]
    exact ⟨seen, gathered, start, rfl⟩
  | case2 seen gathered specifier? outer ih =>
    rw [gather]
    exact ih (leave _ _ _ _ start)
  | case3 seen gathered specifier? number pending outer path absent ih =>
    rw [gather]
    split
    · refine ih (skip _ _ _ _ _ _ (fun target label => ?_) start)
      rw [Forest.label?, absent] at label
      cases label
    · next node found =>
      cases absent.symm.trans found
  | case4 seen gathered specifier? number pending outer path node found taken ih =>
    rw [gather]
    split
    · next absent =>
      cases absent.symm.trans found
    · next other found' =>
      obtain rfl := Option.some.inj (found'.symm.trans found)
      rw [dif_pos taken]
      refine ih (skip _ _ _ _ _ _ (fun target label allowed => ?_) start)
      rw [Forest.label?, found, Option.map_some, Option.some.injEq, Prod.mk.injEq] at label
      obtain ⟨rfl, included⟩ := label
      simpa [included, allowed] using taken
  | case5 seen gathered specifier? number pending outer path node found taken ih =>
    rw [gather]
    split
    · next absent =>
      cases absent.symm.trans found
    · next other found' =>
      obtain rfl := Option.some.inj (found'.symm.trans found)
      rw [dif_neg taken]
      simp only [not_or, not_not] at taken
      exact ih (push _ _ _ _ _ _ _ found' taken.1 taken.2.1 taken.2.2 start)

theorem gather_ok (mirrors : analysis.Mirrors graph)
    (spreads : ∀ specifier target, within specifier → graph.Pulls specifier target →
      target ∉ excluded → within target)
    (excludes : ∀ target, start target → target ∉ excluded)
    (path : List Frame) (seen gathered : List Specifier)
    (gathering : Gathering graph analysis excluded start within path seen gathered) :
    Gathered graph excluded start within (analysis.gather excluded path seen gathered) := by
  obtain ⟨met, complete, finished, result⟩ :=
    gather_induction (fun _ _ _ _ gathering => gathering.leave)
      (fun _ _ _ _ _ _ taken gathering => gathering.skip excludes taken)
      (fun _ _ _ _ _ _ _ found included allowed fresh gathering =>
        gathering.push mirrors spreads found included allowed fresh) path seen gathered gathering
  rw [result]
  exact finished.finish

/-- A module is needed from some nodes on, not through excluded modules. -/
def NeededFrom (graph : ModuleGraph) (analysis : Analysis) (excluded : List Specifier) (roots : List Nat)
    (specifier : Specifier) : Prop :=
  ∃ top, (∃ number ∈ roots, analysis.forest.label? number = some (top, true)) ∧ top ∉ excluded ∧
    ReflTransGen (fun above below => graph.Pulls above below ∧ below ∉ excluded) top specifier

theorem collect_ok (mirrors : analysis.Mirrors graph) (roots : List Nat) (excluded : List Specifier) :
    (analysis.collect roots excluded).Nodup ∧
      ∀ specifier, specifier ∈ analysis.collect roots excluded ↔
        NeededFrom graph analysis excluded roots specifier := by
  have waits (target : Specifier) : Waits analysis [⟨none, roots⟩] target ↔
      ∃ number ∈ roots, analysis.forest.label? number = some (target, true) := by
    simp [Waits]
  have spreads (specifier target : Specifier) (needed : NeededFrom graph analysis excluded roots specifier)
      (pulls : graph.Pulls specifier target) (allowed : target ∉ excluded) :
      NeededFrom graph analysis excluded roots target := by
    obtain ⟨top, isTop, allowedTop, leads⟩ := needed
    exact ⟨top, isTop, allowedTop, leads.tail ⟨pulls, allowed⟩⟩
  have gathering : Gathering graph analysis excluded
      (fun target => (∃ number ∈ roots, analysis.forest.label? number = some (target, true)) ∧
        target ∉ excluded)
      (NeededFrom graph analysis excluded roots) [⟨none, roots⟩] [] [] :=
    { nodup := .nil
      split := by simp
      inside := by simp
      waiting := fun target waiting allowed => ⟨target, (waits target).1 waiting, allowed, .refl⟩
      started := fun target starts => .inr ((waits target).2 starts.1)
      closed := by simp }
  obtain ⟨nodup, inside, started, closed⟩ :=
    gather_ok mirrors spreads (fun _ starts => starts.2) _ _ _ gathering
  refine ⟨nodup, fun specifier => ⟨inside specifier, ?_⟩⟩
  rintro ⟨top, isTop, allowed, leads⟩
  induction leads with
  | refl => exact started top ⟨isTop, allowed⟩
  | tail _ step ih => exact closed _ ih _ step.1 step.2

end ModuleBuild.Bundle.Analysis
