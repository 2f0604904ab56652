import ModuleBuild.Proofs.Graph.WalkEvents
/-!
Whether one module depends on another. The walk that looks for a module stops where it enters it, so it finds
whatever static imports lead to, but for the module that it starts from: that one is entered first, and a ring
that leads back to it is a revisit.
-/

namespace ModuleBuild.ModuleGraph

open Relation

def seeking (sought : Specifier) : Visitor Unit where
  enter met _ depth _ := ((), if depth > 0 ∧ met = sought then .stop else .continue)

def LeadsFrom (graph : ModuleGraph) (direction : Direction) (traced : List Specifier)
    (sought : Specifier) : Prop :=
  ∃ met ∈ traced, ReflTransGen (graph.Follows direction) met sought

namespace Walk

variable {graph : ModuleGraph} {direction : Direction} {sought : Specifier} {traced : List Specifier}

theorem mem_of_leadsFrom
    (closed : ∀ specifier ∈ traced, ∀ child, graph.Follows direction specifier child → child ∈ traced)
    (leads : graph.LeadsFrom direction traced sought) : sought ∈ traced := by
  obtain ⟨met, member, steps⟩ := leads
  induction steps with
  | refl => exact member
  | tail _ follows inside => exact closed _ inside _ follows

theorem leadsFrom_cons {specifier child : Specifier} (member : specifier ∈ traced)
    (follows : graph.Follows direction specifier child) :
    graph.LeadsFrom direction (child :: traced) sought ↔ graph.LeadsFrom direction traced sought := by
  constructor
  · rintro ⟨met, listed, leads⟩
    rcases List.mem_cons.1 listed with rfl | old
    · exact ⟨specifier, member, .head follows leads⟩
    · exact ⟨met, old, leads⟩
  · rintro ⟨met, old, leads⟩
    exact ⟨met, List.mem_cons_of_mem _ old, leads⟩

/-- The modules on a path were met, and the steps left from them follow edges. -/
def Follow (path : List (Frame graph direction)) (traced : List Specifier) : Prop :=
  ∀ frame ∈ path, frame.specifier ∈ traced ∧
    ∀ next ∈ frame.pending, graph.Follows direction frame.specifier next.val

theorem Follow.rest {specifier : Specifier} {child : End graph direction}
    {pending : List (End graph direction)} {outer : List (Frame graph direction)}
    (follow : Follow (⟨specifier, child :: pending⟩ :: outer) traced) :
    Follow (⟨specifier, pending⟩ :: outer) traced := by
  obtain ⟨⟨met, leads⟩, outside⟩ := List.forall_mem_cons.1 follow
  exact List.forall_mem_cons.2 ⟨⟨met, fun next waits => leads next (List.mem_cons_of_mem _ waits)⟩, outside⟩

theorem Follow.enter {path : List (Frame graph direction)} (follow : Follow path traced)
    (child : Specifier) : Follow (frame graph direction child :: path) (child :: traced) :=
  List.forall_mem_cons.2 ⟨⟨List.mem_cons_self, fun _ waits => mem_frame.1 waits⟩, fun frame member =>
    ⟨List.mem_cons_of_mem _ (follow frame member).1, (follow frame member).2⟩⟩

/-- A walk that looks for a module is stopped if and only if steps lead to the module and it was not met before.
-/
theorem run_seeking (path : List (Frame graph direction)) (traced : List Specifier)
    (covered : Covered (fun _ => False) path traced) (follow : Follow path traced) :
    (run graph direction (seeking sought) path traced ()).outcome = .stopped ↔
      sought ∉ traced ∧ graph.LeadsFrom direction traced sought := by
  induction path, traced, () using run.induct graph direction (seeking sought) with
  | case1 traced =>
    rw [run]
    constructor
    · intro stopped
      cases stopped
    rintro ⟨unmet, leads⟩
    refine absurd (mem_of_leadsFrom ?_ leads) unmet
    intro specifier member child follows
    rcases covered specifier member not_false child follows with met | ⟨frame, inside, -⟩
    · exact met
    · exact absurd inside List.not_mem_nil
  | case2 traced _ specifier outer ih =>
    rw [run]
    exact ih covered.leave (List.forall_mem_cons.1 follow).2
  | case3 traced _ specifier child pending outer path record? met inPath ih =>
    rw [run, dif_pos met]
    exact ih (covered.revisit met) follow.rest
  | case4 traced _ specifier child pending outer path record? fresh after stops =>
    -- the walk stops where it finds what it looks for
    have same : child.val = sought := by simpa [seeking, path] using stops
    obtain ⟨member, leads⟩ := follow _ List.mem_cons_self
    rw [run, dif_neg fresh]
    simp only [path, record?] at stops
    simp only [stops, true_iff]
    exact ⟨same ▸ fresh, specifier, member, .single (same ▸ leads child List.mem_cons_self)⟩
  | case5 traced _ specifier child pending outer path record? fresh after skips =>
    by_cases same : child.val = sought <;> simp [seeking, path, same] at skips
  | case6 traced _ specifier child pending outer path record? fresh after goesOn ih =>
    have differ : sought ≠ child.val := by
      rintro rfl
      simp [seeking, path] at goesOn
    obtain ⟨member, leads⟩ := follow _ List.mem_cons_self
    rw [run, dif_neg fresh]
    simp only [path, record?] at goesOn ih
    simp only [goesOn]
    rw [ih (covered_frame covered.step) (follow.rest.enter child.val),
      leadsFrom_cons member (leads child List.mem_cons_self), List.mem_cons, not_or]
    exact and_congr_left fun _ => and_iff_right differ

end Walk

variable {graph : ModuleGraph} {importer imported : Specifier}

/-- The walk behind the question stops if and only if steps lead from its start to another module. -/
theorem dependsOn_eq_true :
    graph.dependsOn importer imported = true ↔
      imported ≠ importer ∧ ReflTransGen (graph.Follows .static) importer imported := by
  have stops := @Walk.run_seeking graph .static imported [Walk.frame graph .static importer] [importer]
    (Walk.covered_frame (by simp))
    (Walk.Follow.enter (fun _ member => absurd member List.not_mem_nil) importer)
  have same : graph.dependsOn importer imported =
      ((Walk.run graph .static (seeking imported) [Walk.frame graph .static importer] [importer]
        ()).outcome == .stopped) := by
    simp [dependsOn, walk, seeking]
  rw [same, beq_iff_eq, stops]
  simp [LeadsFrom]

theorem dependsOn_self (graph : ModuleGraph) (specifier : Specifier) :
    graph.dependsOn specifier specifier = false :=
  Bool.eq_false_iff.2 fun depends => (dependsOn_eq_true.1 depends).1 rfl

/-- A module depends on another one if and only if static imports lead from it to that one. -/
theorem dependsOn_iff (graph : ModuleGraph) (importer imported : Specifier) :
    graph.dependsOn importer imported = true ↔
      importer ≠ imported ∧ TransGen (graph.Edge .static) importer imported := by
  have edges : graph.Follows .static = graph.Edge .static := by
    funext specifier child
    exact propext (graph.follows_iff_edge .static specifier child)
  rw [dependsOn_eq_true, edges, ne_comm]
  refine and_congr_right fun differ => ?_
  rw [reflTransGen_iff_eq_or_transGen, or_iff_right (Ne.symm differ)]

/-- Two modules that import each other. -/
def ring : ModuleGraph :=
  (empty.insert { specifier := ⟨"/a.js"⟩, dependencies := [{ target := ⟨"/b.js"⟩ }] }).insert
    { specifier := ⟨"/b.js"⟩, dependencies := [{ target := ⟨"/a.js"⟩ }] }

theorem ring_leads_back :
    TransGen (ring.Edge .static) ⟨"/a.js"⟩ ⟨"/a.js"⟩ ∧ ring.dependsOn ⟨"/a.js"⟩ ⟨"/a.js"⟩ = false := by
  have there : ring.Edge .static ⟨"/a.js"⟩ ⟨"/b.js"⟩ := ⟨{ target := ⟨"/b.js"⟩ }, by decide, rfl, rfl⟩
  have back : ring.Edge .static ⟨"/b.js"⟩ ⟨"/a.js"⟩ := ⟨{ target := ⟨"/a.js"⟩ }, by decide, rfl, rfl⟩
  exact ⟨.tail (.single there) back, dependsOn_self _ _⟩

end ModuleBuild.ModuleGraph
