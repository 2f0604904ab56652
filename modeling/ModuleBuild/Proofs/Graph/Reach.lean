import ModuleBuild.Compile.Repair
import ModuleBuild.Proofs.Graph.Importers
/-!
What a walk over a module graph meets: everything that its edges lead to, and nothing else. The modules
repaired after a change are therefore the ready ones that import the changed module, directly or
through others.
-/

namespace ModuleBuild.ModuleGraph

open Relation

/-- An edge leads from one specifier to another in the direction of a walk. -/
def Follows (graph : ModuleGraph) (direction : Direction) (specifier child : Specifier) : Prop :=
  child ∈ graph.children direction specifier

namespace Walk

variable {σ : Type} {graph : ModuleGraph} {direction : Direction} {visitor : Visitor σ}

theorem within_tail {specifier : Specifier} {child : End graph direction}
    {pending : List (End graph direction)} {outer : List (Frame graph direction)}
    {within : Specifier → Prop}
    (inside : ∀ frame ∈ (⟨specifier, child :: pending⟩ :: outer : List (Frame graph direction)),
      ∀ next ∈ frame.pending, within next.val) :
    ∀ frame ∈ (⟨specifier, pending⟩ :: outer : List (Frame graph direction)),
      ∀ next ∈ frame.pending, within next.val := by
  intro frame member next waits
  rcases List.mem_cons.1 member with rfl | later
  · exact inside _ List.mem_cons_self next (List.mem_cons_of_mem _ waits)
  · exact inside frame (List.mem_cons_of_mem _ later) next waits

theorem mem_frame {specifier : Specifier} {next : End graph direction} :
    next ∈ (frame graph direction specifier).pending ↔
      graph.Follows direction specifier next.val := by
  simp [frame, List.mem_attachWith, Follows]

/-- A property of what was met and of the state of a walk holds at its end if all its events keep it.
The walk stays within any set of specifiers that no edge leads out of. -/
theorem run_induction (holds : List Specifier → σ → Prop) (within : Specifier → Prop)
    (closed : ∀ specifier child, within specifier → graph.Follows direction specifier child →
      within child)
    (enters : ∀ met depth traced state, within met → 0 < depth → met ∉ traced →
      holds traced state →
      holds (met :: traced) (visitor.enter met (graph.get? met) depth state).1)
    (leaves : ∀ met traced state, holds traced state →
      holds traced (visitor.leave met (graph.get? met) state))
    (revisits : ∀ met onPath traced state, met ∈ traced → holds traced state →
      holds traced (visitor.revisit met (graph.get? met) onPath state))
    (path : List (Frame graph direction)) (traced : List Specifier) (state : σ)
    (inside : ∀ frame ∈ path, ∀ next ∈ frame.pending, within next.val)
    (start : holds traced state) :
    holds (run graph direction visitor path traced state).traced
      (run graph direction visitor path traced state).state := by
  induction path, traced, state using run.induct graph direction visitor with
  | case1 traced state => rwa [run]
  | case2 traced state specifier outer ih =>
    rw [run]
    exact ih (fun frame member => inside frame (List.mem_cons_of_mem _ member)) (leaves _ _ _ start)
  | case3 traced state specifier child pending outer path record? met onPath ih =>
    rw [run, dif_pos met]
    exact ih (within_tail inside) (revisits _ _ _ _ met start)
  | case4 traced state specifier child pending outer path record? fresh after stops =>
    have member := inside _ List.mem_cons_self child List.mem_cons_self
    have entered := enters child.val path.length traced state member (by simp [path]) fresh start
    rw [run, dif_neg fresh]
    simp only [path, record?] at stops entered
    simp only [stops] at entered ⊢
    exact entered
  | case5 traced state specifier child pending outer path record? fresh after skips ih =>
    have member := inside _ List.mem_cons_self child List.mem_cons_self
    have entered := enters child.val path.length traced state member (by simp [path]) fresh start
    rw [run, dif_neg fresh]
    simp only [path, record?] at skips entered ih
    simp only [skips] at entered ⊢
    exact ih (within_tail inside) (leaves _ _ _ entered)
  | case6 traced state specifier child pending outer path record? fresh after continues ih =>
    have member := inside _ List.mem_cons_self child List.mem_cons_self
    have entered := enters child.val path.length traced state member (by simp [path]) fresh start
    rw [run, dif_neg fresh]
    simp only [path, record?] at continues entered ih
    simp only [continues] at entered ⊢
    refine ih ?_ entered
    intro other found next waits
    rcases List.mem_cons.1 found with rfl | later
    · exact closed _ _ member (mem_frame.1 waits)
    · exact within_tail inside other later next waits

section Covered

variable {cut : Specifier → Prop}

/-- Every step from a specifier that was met leads to one that was met, or is still to be taken. No steps
are taken from where the walk is cut. -/
def Covered (cut : Specifier → Prop) (path : List (Frame graph direction)) (traced : List Specifier) :
    Prop :=
  ∀ specifier ∈ traced, ¬ cut specifier → ∀ child, graph.Follows direction specifier child →
    child ∈ traced ∨ ∃ frame ∈ path, ∃ next ∈ frame.pending,
      frame.specifier = specifier ∧ next.val = child

theorem covered_frame {specifier : Specifier} {path : List (Frame graph direction)}
    {traced : List Specifier}
    (covered : ∀ other ∈ traced, ¬ cut other → ∀ child, graph.Follows direction other child →
      child ∈ specifier :: traced ∨ ∃ frame ∈ path, ∃ next ∈ frame.pending,
        frame.specifier = other ∧ next.val = child) :
    Covered cut (frame graph direction specifier :: path) (specifier :: traced) := by
  intro other member uncut child follows
  rcases List.mem_cons.1 member with rfl | old
  · exact .inr ⟨_, List.mem_cons_self, ⟨child, mem_ends_of_mem_children follows⟩,
      mem_frame.2 follows, rfl, rfl⟩
  · rcases covered other old uncut child follows with met | ⟨frame, inside, rest⟩
    · exact .inl met
    · exact .inr ⟨frame, List.mem_cons_of_mem _ inside, rest⟩

/-- Once a step was taken, what it led to counts as met. -/
theorem Covered.step {specifier : Specifier} {child : End graph direction}
    {pending : List (End graph direction)} {outer : List (Frame graph direction)}
    {traced : List Specifier}
    (covered : Covered cut (⟨specifier, child :: pending⟩ :: outer) traced) :
    ∀ other ∈ traced, ¬ cut other → ∀ target, graph.Follows direction other target →
      target ∈ child.val :: traced ∨
        ∃ frame ∈ (⟨specifier, pending⟩ :: outer : List (Frame graph direction)),
          ∃ next ∈ frame.pending, frame.specifier = other ∧ next.val = target := by
  intro other member uncut target follows
  rcases covered other member uncut target follows with
    old | ⟨frame, inside, next, waits, owner, same⟩
  · exact .inl (List.mem_cons_of_mem _ old)
  · rcases List.mem_cons.1 inside with rfl | later
    · rcases List.mem_cons.1 waits with rfl | left
      · exact .inl (same ▸ List.mem_cons_self)
      · exact .inr ⟨_, List.mem_cons_self, next, left, owner, same⟩
    · exact .inr ⟨frame, List.mem_cons_of_mem _ later, next, waits, owner, same⟩

theorem Covered.leave {specifier : Specifier} {outer : List (Frame graph direction)}
    {traced : List Specifier} (covered : Covered cut (⟨specifier, []⟩ :: outer) traced) :
    Covered cut outer traced := by
  intro other member uncut child follows
  rcases covered other member uncut child follows with met | ⟨frame, inside, next, pending, rest⟩
  · exact .inl met
  · rcases List.mem_cons.1 inside with rfl | later
    · exact absurd pending List.not_mem_nil
    · exact .inr ⟨frame, later, next, pending, rest⟩

theorem Covered.revisit {specifier : Specifier} {child : End graph direction}
    {pending : List (End graph direction)} {outer : List (Frame graph direction)}
    {traced : List Specifier}
    (covered : Covered cut (⟨specifier, child :: pending⟩ :: outer) traced)
    (met : child.val ∈ traced) : Covered cut (⟨specifier, pending⟩ :: outer) traced := by
  intro other member uncut target follows
  rcases covered.step other member uncut target follows with old | waits
  · rcases List.mem_cons.1 old with rfl | old
    · exact .inl met
    · exact .inl old
  · exact .inr waits

/-- A walk that is not stopped meets all that its edges lead to, but for edges from where it is cut. -/
theorem run_closed (visitor : Visitor σ)
    (unstopped : ∀ met record? depth state, (visitor.enter met record? depth state).2 ≠ .stop)
    (cuts : ∀ met depth state,
      (visitor.enter met (graph.get? met) depth state).2 = .skipChildren → cut met)
    (path : List (Frame graph direction)) (traced : List Specifier) (state : σ)
    (covered : Covered cut path traced) :
    let met := (run graph direction visitor path traced state).traced
    (∀ specifier ∈ met, ¬ cut specifier → ∀ child, graph.Follows direction specifier child →
      child ∈ met) ∧
    ∀ specifier ∈ traced, specifier ∈ met := by
  induction path, traced, state using run.induct graph direction visitor with
  | case1 traced state =>
    rw [run]
    refine ⟨fun specifier member uncut child follows => ?_, fun _ => id⟩
    rcases covered specifier member uncut child follows with met | ⟨frame, inside, -⟩
    · exact met
    · exact absurd inside List.not_mem_nil
  | case2 traced state specifier outer ih =>
    rw [run]
    exact ih covered.leave
  | case3 traced state specifier child pending outer path record? met onPath ih =>
    rw [run, dif_pos met]
    exact ih (covered.revisit met)
  | case4 traced state specifier child pending outer path record? fresh after stops =>
    have goesOn := unstopped child.val record? path.length state
    simp [stops] at goesOn
  | case5 traced state specifier child pending outer path record? fresh after skips ih =>
    rw [run, dif_neg fresh]
    have isCut : cut child.val := by
      apply cuts child.val path.length state
      simp only [path, record?] at skips ⊢
      rw [skips]
    simp only [path, record?] at skips ih
    simp only [skips]
    obtain ⟨closed, kept⟩ := ih (fun other member uncut target follows => by
      rcases List.mem_cons.1 member with rfl | old
      · exact absurd isCut uncut
      · exact covered.step other old uncut target follows)
    exact ⟨closed, fun specifier member => kept specifier (List.mem_cons_of_mem _ member)⟩
  | case6 traced state specifier child pending outer path record? fresh after goesOn ih =>
    rw [run, dif_neg fresh]
    simp only [path, record?] at goesOn ih
    simp only [goesOn]
    obtain ⟨closed, kept⟩ := ih (covered_frame covered.step)
    exact ⟨closed, fun specifier member => kept specifier (List.mem_cons_of_mem _ member)⟩

end Covered

end Walk

/-- A module with a record that is ready. -/
def IsReady (graph : ModuleGraph) (specifier : Specifier) : Prop :=
  ∃ record, graph.get? specifier = some record ∧ record.isReady

theorem any_isReady (graph : ModuleGraph) (specifier : Specifier) :
    (graph.get? specifier).any (·.isReady) = true ↔ graph.IsReady specifier := by
  cases found : graph.get? specifier <;> simp [IsReady, found]

theorem follows_dependents {graph : ModuleGraph} (indexed : graph.Indexed)
    {specifier importer : Specifier} :
    graph.Follows .dependents specifier importer ↔ graph.Imports importer specifier :=
  mem_dependents indexed

def readyBelow : Visitor (List Specifier) where
  enter met record? depth found :=
    (if 0 < depth ∧ record?.any (·.isReady) then met :: found else found, .continue)

theorem affected_eq (graph : ModuleGraph) (changed : Specifier) :
    Workspace.affected graph changed =
      (Walk.run graph .dependents readyBelow [Walk.frame graph .dependents changed] [changed]
        []).state.reverse := by
  simp [Workspace.affected, walk, readyBelow]

theorem mem_enter_readyBelow {graph : ModuleGraph} {met other : Specifier} {depth : Nat}
    {found : List Specifier} (below : 0 < depth) :
    other ∈ (readyBelow.enter met (graph.get? met) depth found).1 ↔
      other ∈ found ∨ other = met ∧ graph.IsReady met := by
  by_cases ready : graph.IsReady met
  · simp [readyBelow, below, (any_isReady graph met).2 ready, ready, or_comm]
  · have blocked : ¬ (graph.get? met).any (·.isReady) = true := by rwa [any_isReady]
    simp [readyBelow, blocked, ready]

/-- A walk from a changed module to its importers meets only modules that import it, directly or
through others, and gathers the ready ones. -/
theorem run_readyBelow {graph : ModuleGraph} (indexed : graph.Indexed) (changed : Specifier) :
    let result :=
      Walk.run graph .dependents readyBelow [Walk.frame graph .dependents changed] [changed] []
    changed ∈ result.traced ∧
      (∀ other ∈ result.traced, other = changed ∨ TransGen graph.Imports other changed) ∧
        ∀ other, other ∈ result.state ↔
          other ∈ result.traced ∧ other ≠ changed ∧ graph.IsReady other := by
  refine Walk.run_induction
    (fun traced found =>
      changed ∈ traced ∧
        (∀ other ∈ traced, other = changed ∨ TransGen graph.Imports other changed) ∧
          ∀ other, other ∈ found ↔ other ∈ traced ∧ other ≠ changed ∧ graph.IsReady other)
    (fun other => TransGen graph.Imports other changed) ?_ ?_ (fun _ _ _ kept => kept)
    (fun _ _ _ _ _ kept => kept) _ _ _ ?_ (by simp +contextual)
  · intro other importer within follows
    exact .head ((follows_dependents indexed).1 follows) within
  · intro met depth traced found within below fresh ⟨started, reached, known⟩
    have distinct : met ≠ changed := fun same => fresh (same ▸ started)
    refine ⟨List.mem_cons_of_mem _ started, ?_, fun other => ?_⟩
    · intro other member
      rcases List.mem_cons.1 member with rfl | old
      · exact .inr within
      · exact reached other old
    · rw [mem_enter_readyBelow below, known, List.mem_cons]
      constructor
      · rintro (old | ⟨rfl, ready⟩)
        · exact ⟨.inr old.1, old.2⟩
        · exact ⟨.inl rfl, distinct, ready⟩
      · rintro ⟨rfl | old, rest⟩
        · exact .inr ⟨rfl, rest.2⟩
        · exact .inl ⟨old, rest⟩
  · intro frame member next waits
    rw [List.mem_singleton.1 member] at waits
    exact .single ((follows_dependents indexed).1 (Walk.mem_frame.1 waits))

/-- The modules repaired after a change are the ready ones that import the changed module, directly or
through others. -/
theorem mem_affected {graph : ModuleGraph} (indexed : graph.Indexed)
    {changed specifier : Specifier} :
    specifier ∈ Workspace.affected graph changed ↔
      specifier ≠ changed ∧ TransGen graph.Imports specifier changed ∧
        graph.IsReady specifier := by
  obtain ⟨started, reached, gathered⟩ := run_readyBelow indexed changed
  have covered : Walk.Covered (fun _ => False) [Walk.frame graph .dependents changed] [changed] :=
    Walk.covered_frame (by simp)
  have closed :=
    (Walk.run_closed readyBelow (by simp [readyBelow]) (by simp [readyBelow]) _ _ [] covered).1
  rw [affected_eq, List.mem_reverse, gathered]
  constructor
  · rintro ⟨met, distinct, ready⟩
    exact ⟨distinct, (reached _ met).resolve_left distinct, ready⟩
  · rintro ⟨distinct, leads, ready⟩
    refine ⟨?_, distinct, ready⟩
    -- Along the imports that lead to the changed module, backwards from it.
    clear distinct ready
    induction leads using TransGen.head_induction_on with
    | single imports =>
      exact closed _ started not_false _ ((follows_dependents indexed).2 imports)
    | head imports _ met => exact closed _ met not_false _ ((follows_dependents indexed).2 imports)

end ModuleBuild.ModuleGraph
