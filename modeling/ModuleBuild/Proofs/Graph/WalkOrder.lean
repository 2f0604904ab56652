import ModuleBuild.Proofs.Graph.Dependence
/-!
The order in which a walk meets modules. What steps lead to from a module around those met before comes at once
after it; where else the walk leads comes only then, and nothing comes before a module that a step leads from.
-/

namespace ModuleBuild.ModuleGraph

open Relation WalkEvent

def following : Visitor Unit where
  enter _ _ _ _ := ((), .continue)

theorem following_goesOn (met : Specifier) (record? : Option ModuleRecord) (depth : Nat) (state : Unit) :
    (following.enter met record? depth state).2 = .continue := rfl

namespace Walk

variable {σ : Type} {graph : ModuleGraph} {direction : Direction}

/-- What a walk that is nowhere cut short has met at its end, the latest first. -/
def meets (path : List (Frame graph direction)) (traced : List Specifier) : List Specifier :=
  (run graph direction following path traced ()).traced

section Steps

variable {specifier : Specifier} {child : End graph direction} {pending : List (End graph direction)}
  {outer : List (Frame graph direction)} {traced : List Specifier}

@[simp] theorem meets_nil : meets ([] : List (Frame graph direction)) traced = traced := by
  rw [meets, run]

@[simp] theorem meets_leave : meets (⟨specifier, []⟩ :: outer) traced = meets outer traced := by
  rw [meets, run]
  rfl

theorem meets_revisit (met : child.val ∈ traced) :
    meets (⟨specifier, child :: pending⟩ :: outer) traced =
      meets (⟨specifier, pending⟩ :: outer) traced := by
  rw [meets, run, dif_pos met]
  rfl

theorem meets_enter (fresh : child.val ∉ traced) :
    meets (⟨specifier, child :: pending⟩ :: outer) traced =
      meets (frame graph direction child.val :: ⟨specifier, pending⟩ :: outer) (child.val :: traced) := by
  rw [meets, run, dif_neg fresh]
  rfl

@[elab_as_elim] theorem meets_induction
    {holds : List (Frame graph direction) → List Specifier → Prop}
    (nil : ∀ traced, holds [] traced)
    (leave : ∀ specifier outer traced, holds outer traced → holds (⟨specifier, []⟩ :: outer) traced)
    (revisit : ∀ specifier child pending outer traced, child.val ∈ traced →
      holds (⟨specifier, pending⟩ :: outer) traced →
      holds (⟨specifier, child :: pending⟩ :: outer) traced)
    (enter : ∀ specifier child pending outer traced, child.val ∉ traced →
      holds (frame graph direction child.val :: ⟨specifier, pending⟩ :: outer) (child.val :: traced) →
      holds (⟨specifier, child :: pending⟩ :: outer) traced)
    (path : List (Frame graph direction)) (traced : List Specifier) : holds path traced := by
  induction path, traced, () using run.induct graph direction following with
  | case1 traced => exact nil traced
  | case2 traced _ specifier outer ih => exact leave specifier outer traced ih
  | case3 traced _ specifier child pending outer path record? met onPath ih =>
    exact revisit specifier child pending outer traced met ih
  | case4 traced _ specifier child pending outer path record? fresh after stops => cases stops
  | case5 traced _ specifier child pending outer path record? fresh after skips => cases skips
  | case6 traced _ specifier child pending outer path record? fresh after goesOn ih =>
    exact enter specifier child pending outer traced fresh ih

end Steps

theorem traced_run (visitor : Visitor σ)
    (goesOn : ∀ met record? depth state, (visitor.enter met record? depth state).2 = .continue)
    (path : List (Frame graph direction)) (traced : List Specifier) (state : σ) :
    (run graph direction visitor path traced state).traced = meets path traced := by
  induction path, traced using meets_induction generalizing state with
  | nil traced => rw [run, meets_nil]
  | leave specifier outer traced ih => rw [run, meets_leave, ih]
  | revisit specifier child pending outer traced met ih => rw [run, dif_pos met, meets_revisit met, ih]
  | enter specifier child pending outer traced fresh ih =>
    have follow := goesOn child.val (graph.get? child.val) (outer.length + 1) state
    rw [run, dif_neg fresh, meets_enter fresh]
    simp only [List.length_cons]
    generalize visitor.enter child.val (graph.get? child.val) (outer.length + 1) state = entry at follow ⊢
    obtain ⟨after, control⟩ := entry
    obtain rfl : control = .continue := follow
    exact ih after

theorem exists_meets (path : List (Frame graph direction)) (traced : List Specifier) :
    ∃ later, meets path traced = later ++ traced := by
  induction path, traced using meets_induction with
  | nil traced => exact ⟨[], meets_nil⟩
  | leave specifier outer traced ih => rwa [meets_leave]
  | revisit specifier child pending outer traced met ih => rwa [meets_revisit met]
  | enter specifier child pending outer traced fresh ih =>
    obtain ⟨later, same⟩ := ih
    exact ⟨later ++ [child.val], by rw [meets_enter fresh, same, List.append_assoc, List.singleton_append]⟩

theorem meets_enter_cases {specifier : Specifier} {child : End graph direction}
    {pending : List (End graph direction)} {outer : List (Frame graph direction)}
    {traced later : List Specifier} (fresh : child.val ∉ traced)
    (met : meets (⟨specifier, child :: pending⟩ :: outer) traced = later ++ traced) :
    ∃ deeper, later = deeper ++ [child.val] ∧
      meets (frame graph direction child.val :: ⟨specifier, pending⟩ :: outer) (child.val :: traced) =
        deeper ++ child.val :: traced := by
  rw [meets_enter fresh] at met
  obtain ⟨deeper, same⟩ := exists_meets
    (frame graph direction child.val :: ⟨specifier, pending⟩ :: outer) (child.val :: traced)
  refine ⟨deeper, ?_, same⟩
  rw [same, ← List.singleton_append, ← List.append_assoc] at met
  exact (List.append_cancel_right met).symm

theorem meets_append (inner outer : List (Frame graph direction)) (traced : List Specifier) :
    meets (inner ++ outer) traced = meets outer (meets inner traced) := by
  induction inner, traced using meets_induction with
  | nil traced => rw [List.nil_append, meets_nil]
  | leave specifier rest traced ih => rw [List.cons_append, meets_leave, meets_leave, ih]
  | revisit specifier child pending rest traced met ih =>
    rw [List.cons_append, meets_revisit met, meets_revisit met, ← ih, List.cons_append]
  | enter specifier child pending rest traced fresh ih =>
    rw [List.cons_append, meets_enter fresh, meets_enter fresh, ← ih]
    rfl

/-- What is met from a module that is entered is what edges lead to around what was met before. -/
theorem mem_of_meets_frame {specifier : Specifier} {traced block : List Specifier}
    (fresh : specifier ∉ traced)
    (met : meets [frame graph direction specifier] (specifier :: traced) = block ++ specifier :: traced)
    (other : Specifier) :
    other ∈ block ↔ other ≠ specifier ∧ graph.LeadsAround direction traced specifier other := by
  have walked : (graph.walk specifier direction traced following ()).traced =
      block ++ specifier :: traced := by
    simp only [walk, if_neg fresh]
    exact met
  obtain ⟨-, told, -, finishes⟩ := graph.walk_logged specifier direction traced following ()
  have entries := finishes.tells.traced
  rw [told, walked, ← List.singleton_append, ← List.append_assoc] at entries
  have listed := List.append_cancel_right entries
  have once := List.nodup_reverse.2 finishes.tells.once
  rw [← listed, List.nodup_append] at once
  have reached := finishes.tells.reached
  simp only [← @List.mem_reverse _ _ (entered _), ← listed] at reached
  constructor
  · intro member
    exact ⟨once.2.2 other member specifier (List.mem_singleton_self _),
      reached other (List.mem_append_left _ member)⟩
  · rintro ⟨differ, leads⟩
    have there := (graph.walk_meets specifier direction traced following_goesOn ()).2 other leads
    have apart : other ∉ traced := by
      obtain ⟨start, steps⟩ := leads
      cases steps with
      | refl => exact start
      | tail _ last => exact last.2
    rw [walked, List.mem_append, List.mem_cons] at there
    exact there.resolve_right (not_or.2 ⟨differ, apart⟩)

/-- A module is followed at once by all that edges lead to from it around what was met before it. -/
theorem meets_block (path : List (Frame graph direction)) (traced later : List Specifier)
    (met : meets path traced = later ++ traced) (before after : List Specifier) (specifier : Specifier)
    (split : later.reverse = before ++ specifier :: after) :
    ∃ block rest, after = block ++ rest ∧ ∀ other, other ∈ block ↔
      other ≠ specifier ∧ graph.LeadsAround direction (before.reverse ++ traced) specifier other := by
  induction path, traced using meets_induction generalizing later before with
  | nil traced =>
    rw [meets_nil] at met
    obtain rfl : later = [] := List.self_eq_append_left.1 met
    simp at split
  | leave _ outer traced ih => exact ih later (meets_leave ▸ met) before split
  | revisit _ child pending outer traced known ih => exact ih later (meets_revisit known ▸ met) before split
  | enter owner child pending outer traced fresh ih =>
    obtain ⟨deeper, rfl, same⟩ := meets_enter_cases fresh met
    rw [List.reverse_append, List.reverse_singleton, List.singleton_append] at split
    cases before with
    | cons first before =>
      obtain ⟨rfl, rest⟩ := List.cons.inj split
      simpa using ih deeper same before rest
    | nil =>
      obtain ⟨rfl, rfl⟩ := List.cons.inj split
      -- the block is what is met before the walk goes back to the module that the step led from
      obtain ⟨block, inner⟩ := exists_meets [frame graph direction child.val] (child.val :: traced)
      obtain ⟨rest, left⟩ := exists_meets (⟨owner, pending⟩ :: outer) (block ++ child.val :: traced)
      rw [← List.singleton_append, meets_append, inner, left, ← List.append_assoc] at same
      refine ⟨block.reverse, rest.reverse, ?_, fun other => ?_⟩
      · rw [← List.append_cancel_right same, List.reverse_append]
      · rw [List.mem_reverse]
        exact mem_of_meets_frame fresh inner other

theorem meets_after (path : List (Frame graph direction)) (traced later : List Specifier)
    (follow : Follow path traced) (met : meets path traced = later ++ traced)
    (before after : List Specifier) (specifier : Specifier)
    (split : later.reverse = before ++ specifier :: after) :
    ∃ parent ∈ before.reverse ++ traced, graph.Follows direction parent specifier := by
  induction path, traced using meets_induction generalizing later before with
  | nil traced =>
    rw [meets_nil] at met
    obtain rfl : later = [] := List.self_eq_append_left.1 met
    simp at split
  | leave _ outer traced ih =>
    exact ih later (List.forall_mem_cons.1 follow).2 (meets_leave ▸ met) before split
  | revisit _ child pending outer traced known ih =>
    exact ih later follow.rest (meets_revisit known ▸ met) before split
  | enter owner child pending outer traced fresh ih =>
    obtain ⟨deeper, rfl, same⟩ := meets_enter_cases fresh met
    rw [List.reverse_append, List.reverse_singleton, List.singleton_append] at split
    cases before with
    | cons first before =>
      obtain ⟨rfl, rest⟩ := List.cons.inj split
      simpa using ih deeper (follow.rest.enter child.val) same before rest
    | nil =>
      obtain ⟨rfl, -⟩ := List.cons.inj split
      obtain ⟨member, leads⟩ := follow _ List.mem_cons_self
      exact ⟨owner, member, leads child List.mem_cons_self⟩

end Walk

end ModuleBuild.ModuleGraph
