import ModuleBuild.Proofs.Bundle.Occurrences
import Mathlib.Data.List.Perm.Basic
/-!
The order in which the nodes of a forest are met from above, each one before what is below it. A node that is
added at the end of the last tree comes last in this order; the rest of the order stays as it was.
-/

namespace ModuleBuild.Bundle

mutual

/-- The occurrences in a tree, each before those below it. -/
def Tree.preorder : Tree → List Occurrence
  | .node occurrence children => occurrence :: treesPreorder children

def treesPreorder : List Tree → List Occurrence
  | [] => []
  | tree :: trees => tree.preorder ++ treesPreorder trees

end

theorem treesPreorder_eq (trees : List Tree) : treesPreorder trees = trees.flatMap Tree.preorder := by
  induction trees with
  | nil => rw [treesPreorder, List.flatMap_nil]
  | cons tree trees ih => rw [treesPreorder, List.flatMap_cons, ih]

/-- What an occurrence stands for, whether or not it is shared by now. -/
def Role.unshared : Role → Role
  | .first _ => .first false
  | role => role

namespace Forest

variable {forest before after : Forest} {number parent child : Nat} {parent? : Option Nat}
  {specifier : Specifier} {role : Role}

def childrenOf (forest : Forest) (number : Nat) : List Nat :=
  ((forest.get? number).map (·.children)).getD []

theorem childrenOf_eq {node : Occurrence} (found : forest.get? number = some node) :
    forest.childrenOf number = node.children := by
  simp [childrenOf, found]

theorem bounds_of_mem_childrenOf (member : child ∈ forest.childrenOf number) :
    number < child ∧ child < forest.size := by
  rw [childrenOf] at member
  cases found : forest.get? number with
  | none => simp [found] at member
  | some node =>
    obtain ⟨inside, rfl⟩ := Array.getElem?_eq_some_iff.1 found
    exact forest.descends number inside child (by simpa [found] using member)

theorem lt_of_lastChild {others : List Nat} (last : forest.childrenOf number = others ++ [child]) :
    number < child :=
  (bounds_of_mem_childrenOf (by rw [last]; exact List.mem_append_right _ (List.mem_singleton_self _))).1

/-- The numbers of a subtree, each before those below it. -/
def preorder (forest : Forest) (number : Nat) : List Nat :=
  number :: (forest.childrenOf number).attach.flatMap fun child => forest.preorder child.1
termination_by forest.size - number
decreasing_by
  have bounds := bounds_of_mem_childrenOf child.2
  omega

theorem flatMap_attach {α : Type} (numbers : List Nat) (f : Nat → List α) :
    (numbers.attach.flatMap fun number => f number.1) = numbers.flatMap f := by
  rw [← List.flatMap_map Subtype.val, List.attach_map_subtype_val]

theorem preorder_eq (forest : Forest) (number : Nat) :
    forest.preorder number = number :: (forest.childrenOf number).flatMap forest.preorder := by
  rw [preorder, flatMap_attach]

theorem mem_preorder_self : number ∈ forest.preorder number := by
  rw [preorder_eq]
  exact List.mem_cons_self

theorem le_of_mem_preorder {top : Nat} (member : number ∈ forest.preorder top) : top ≤ number := by
  induction top using preorder.induct forest with
  | case1 top ih =>
    rw [preorder_eq] at member
    rcases List.mem_cons.1 member with rfl | below
    · exact Nat.le_refl _
    · obtain ⟨child, inside, member⟩ := List.mem_flatMap.1 below
      exact Nat.le_trans (Nat.le_of_lt (bounds_of_mem_childrenOf inside).1) (ih ⟨child, inside⟩ member)

theorem preorder_tree (inside : number < forest.nodes.size) :
    (forest.tree number inside).preorder = (forest.preorder number).filterMap forest.get? := by
  induction number, inside using tree.induct forest with
  | case1 number inside node ih =>
    have found : forest.get? number = some node := Array.getElem?_eq_getElem inside
    have children : node.children.attach.flatMap (fun child =>
        (forest.tree child.1 (forest.descends number inside child.1 child.2).2).preorder) =
        node.children.flatMap fun child => (forest.preorder child).filterMap forest.get? := by
      exact (List.flatMap_congr fun child _ => ih child.1 child.2).trans
        (flatMap_attach node.children fun child => (forest.preorder child).filterMap forest.get?)
    rw [tree, Tree.preorder, treesPreorder_eq, preorder_eq, List.filterMap_cons, found, childrenOf_eq found,
      List.filterMap_flatMap, ← children, List.flatMap_map]

/-- The nodes below some others, with these, are the children of all of them and these. -/
theorem perm_preorder (forest : Forest) (tops : List Nat) :
    (tops ++ (tops.flatMap forest.preorder).flatMap forest.childrenOf).Perm
      (tops.flatMap forest.preorder) := by
  -- a step down: from children with what is below them to the children and all that is below
  have gather (numbers : List Nat)
      (each : ∀ top ∈ numbers,
        (top :: (forest.preorder top).flatMap forest.childrenOf).Perm (forest.preorder top)) :
      (numbers ++ (numbers.flatMap forest.preorder).flatMap forest.childrenOf).Perm
        (numbers.flatMap forest.preorder) := by
    have apart := List.map_append_flatMap_perm numbers id
      fun top => (forest.preorder top).flatMap forest.childrenOf
    rw [List.map_id, ← List.flatMap_assoc] at apart
    exact apart.trans (.flatMap_left numbers each)
  have each (top : Nat) :
      (top :: (forest.preorder top).flatMap forest.childrenOf).Perm (forest.preorder top) := by
    induction top using preorder.induct forest with
    | case1 top ih =>
      rw [preorder_eq, List.flatMap_cons]
      exact .cons top (gather _ fun child member => ih ⟨child, member⟩)
  exact gather tops fun top _ => each top

/-! ## Adding a node -/

theorem isSome_get? : (forest.get? number).isSome ↔ number < forest.size := by
  simp [get?, size]

@[simp] theorem childrenOf_size (forest : Forest) : forest.childrenOf forest.size = [] := by
  simp [childrenOf, get?, size]

def standing? (forest : Forest) (number : Nat) : Option (Specifier × Role) :=
  (forest.get? number).map fun node => (node.specifier, node.role.unshared)

/-- A node was added without children, as the last child of its parent if it has one. Beside that, first
occurrences may have become shared. -/
structure Adds (before after : Forest) (parent? : Option Nat) (specifier : Specifier) (role : Role) : Prop where
  within : ∀ parent ∈ parent?, parent < before.size
  size : after.size = before.size + 1
  standing : ∀ number, after.standing? number =
    if number = before.size then some (specifier, role.unshared) else before.standing? number
  children : ∀ number, after.childrenOf number =
    if parent? = some number then before.childrenOf number ++ [before.size] else before.childrenOf number

theorem Grows.adds {node : Occurrence} (grows : before.Grows after parent? node) (leaf : node.children = [])
    (within : ∀ parent ∈ parent?, parent < before.size) :
    before.Adds after parent? node.specifier node.role where
  within := within
  size := by
    have inside (number : Nat) : number < after.size ↔ number = before.size ∨ number < before.size := by
      rw [← isSome_get?, grows number]
      split
      · next own => simp [own]
      · next other => rw [Option.isSome_map, isSome_get?, or_iff_right other]
    have last := inside before.size
    have beyond := inside (before.size + 1)
    omega
  standing number := by
    rw [standing?, grows number]
    split
    · rfl
    · rw [Option.map_map, standing?]
      congr 1
      funext old
      simp only [Function.comp_apply]
      split <;> rfl
  children number := by
    rw [childrenOf, grows number]
    split
    · next own =>
      subst own
      rw [if_neg fun isParent : parent? = some _ => Nat.lt_irrefl _ (within _ isParent), childrenOf_size]
      exact leaf
    · rw [childrenOf]
      cases found : before.get? number with
      | none =>
        rw [if_neg fun isParent : parent? = some _ => ?_]
        · rfl
        · simpa [found] using isSome_get?.2 (within _ isParent)
      | some old =>
        rw [Option.map_some, Option.map_some, Option.map_some]
        split <;> rfl

namespace Adds

theorem standing_of_old (adds : before.Adds after parent? specifier role) {label : Specifier × Role}
    (found : before.standing? number = some label) : after.standing? number = some label := by
  rw [adds.standing, if_neg, found]
  rintro rfl
  simp [standing?, get?, Forest.size] at found

theorem childrenOf_new (adds : before.Adds after parent? specifier role) :
    after.childrenOf before.size = [] := by
  rw [adds.children, if_neg fun isParent : parent? = some _ => Nat.lt_irrefl _ (adds.within _ isParent),
    childrenOf_size]

theorem preorder_new (adds : before.Adds after parent? specifier role) :
    after.preorder before.size = [before.size] := by
  rw [preorder_eq, adds.childrenOf_new, List.flatMap_nil]

theorem preorder_of_notMem (adds : before.Adds after parent? specifier role) {top : Nat}
    (away : ∀ parent ∈ parent?, parent ∉ before.preorder top) :
    after.preorder top = before.preorder top := by
  induction top using preorder.induct before with
  | case1 top ih =>
    have own : after.childrenOf top = before.childrenOf top := by
      rw [adds.children, if_neg fun isParent : parent? = some _ => away top isParent mem_preorder_self]
    rw [preorder_eq after, preorder_eq before, own]
    refine congrArg _ (List.flatMap_congr fun child member => ih ⟨child, member⟩ fun parent isParent inside => ?_)
    refine away parent isParent ?_
    rw [preorder_eq]
    exact List.mem_cons_of_mem _ (List.mem_flatMap.2 ⟨child, member, inside⟩)

end Adds

/-- A node is the last one of a subtree, which is reached through last children only. -/
inductive EndsAt (forest : Forest) (last : Nat) : Nat → Prop
  | self : EndsAt forest last last
  | step {top child : Nat} {others : List Nat} (children : forest.childrenOf top = others ++ [child])
      (ends : EndsAt forest last child) : EndsAt forest last top

theorem EndsAt.mem {top last : Nat} (ends : forest.EndsAt last top) : last ∈ forest.preorder top := by
  induction ends with
  | self => exact mem_preorder_self
  | step children _ ih =>
    rw [preorder_eq, children]
    exact List.mem_cons_of_mem _ (List.mem_flatMap.2 ⟨_, by simp, ih⟩)

theorem EndsAt.lastChild {top last : Nat} {others : List Nat} (ends : forest.EndsAt last top)
    (children : forest.childrenOf last = others ++ [child]) : forest.EndsAt child top := by
  induction ends with
  | self => exact .step children .self
  | step outer _ ih => exact .step outer ih

theorem Adds.preorder_of_endsAt {top last : Nat} (adds : before.Adds after (some last) specifier role)
    (ends : before.EndsAt last top) (once : (before.preorder top).Nodup) :
    after.preorder top = before.preorder top ++ [before.size] := by
  induction ends with
  | self =>
    have others : (before.childrenOf last).flatMap after.preorder =
        (before.childrenOf last).flatMap before.preorder := by
      refine List.flatMap_congr fun child member => adds.preorder_of_notMem ?_
      rintro parent ⟨⟩ inside
      exact Nat.not_le_of_lt (bounds_of_mem_childrenOf member).1 (le_of_mem_preorder inside)
    rw [preorder_eq after, adds.children, if_pos rfl, List.flatMap_append, others, List.flatMap_singleton,
      adds.preorder_new, preorder_eq before, List.cons_append]
  | @step top child others children ends ih =>
    rw [preorder_eq, children, List.flatMap_append, List.flatMap_singleton] at once
    obtain ⟨-, once', apart⟩ := List.nodup_append.1 (List.nodup_cons.1 once).2
    have between := lt_of_lastChild children
    have other : some last ≠ some top := by
      rintro ⟨⟩
      exact Nat.not_le_of_lt between (le_of_mem_preorder ends.mem)
    have same : others.flatMap after.preorder = others.flatMap before.preorder := by
      refine List.flatMap_congr fun sibling member => adds.preorder_of_notMem ?_
      rintro parent ⟨⟩ inside
      exact apart _ (List.mem_flatMap.2 ⟨sibling, member, inside⟩) _ ends.mem rfl
    rw [preorder_eq after, adds.children, if_neg other, children, List.flatMap_append, same,
      List.flatMap_singleton, ih once', preorder_eq before top, children, List.flatMap_append,
      List.flatMap_singleton, List.cons_append, List.append_assoc]

/-! ## The path to the last node -/

/-- The numbers on a path, the innermost first: each is the last child of the next, and the outermost is the
last root. -/
inductive Spine (forest : Forest) (roots : List Nat) : List Nat → Prop
  | nil : Spine forest roots []
  | root {others : List Nat} {top : Nat} (last : roots = others ++ [top]) : Spine forest roots [top]
  | step {others path : List Nat} {inner outer : Nat} (last : forest.childrenOf outer = others ++ [inner])
      (spine : Spine forest roots (outer :: path)) : Spine forest roots (inner :: outer :: path)

variable {roots path : List Nat} {last : Nat}

theorem Spine.tail (spine : forest.Spine roots (number :: path)) : forest.Spine roots path := by
  cases spine with
  | root => exact .nil
  | step _ rest => exact rest

theorem Spine.lt (spine : forest.Spine roots (number :: path)) : ∀ outer ∈ path, outer < number := by
  induction path generalizing number with
  | nil => simp
  | cons outer path ih =>
    cases spine with
    | step last rest =>
      have between := lt_of_lastChild last
      exact List.forall_mem_cons.2 ⟨between, fun above member => Nat.lt_trans (ih rest above member) between⟩

theorem Spine.endsAt (spine : forest.Spine roots (last :: path)) :
    ∃ others top, roots = others ++ [top] ∧ forest.EndsAt last top := by
  induction path generalizing last with
  | nil =>
    cases spine with
    | root isLast => exact ⟨_, _, isLast, .self⟩
  | cons outer path ih =>
    cases spine with
    | step isLast rest =>
      obtain ⟨others, top, roots, ends⟩ := ih rest
      exact ⟨others, top, roots, ends.lastChild isLast⟩

theorem Spine.congr (spine : before.Spine roots (number :: path))
    (same : ∀ outer ∈ path, after.childrenOf outer = before.childrenOf outer) :
    after.Spine roots (number :: path) := by
  induction path generalizing number with
  | nil =>
    cases spine with
    | root isLast => exact .root isLast
  | cons outer path ih =>
    obtain ⟨own, others⟩ := List.forall_mem_cons.1 same
    cases spine with
    | step isLast rest => exact .step (own.trans isLast) (ih rest others)

theorem Spine.adds (spine : before.Spine roots (last :: path))
    (adds : before.Adds after (some last) specifier role) : after.Spine roots (last :: path) := by
  refine spine.congr fun outer member => ?_
  rw [adds.children, if_neg]
  rintro ⟨⟩
  exact Nat.lt_irrefl _ (spine.lt _ member)

def Ordered (forest : Forest) (roots : List Nat) : Prop :=
  roots.flatMap forest.preorder = List.range forest.size

theorem Ordered.belowLast (ordered : before.Ordered roots) (spine : before.Spine roots (last :: path))
    (adds : before.Adds after (some last) specifier role) : after.Ordered roots := by
  have once : (roots.flatMap before.preorder).Nodup := ordered ▸ List.nodup_range
  obtain ⟨others, top, rfl, ends⟩ := spine.endsAt
  rw [List.flatMap_append, List.flatMap_singleton] at once
  obtain ⟨-, once', apart⟩ := List.nodup_append.1 once
  have same : others.flatMap after.preorder = others.flatMap before.preorder := by
    refine List.flatMap_congr fun root member => adds.preorder_of_notMem ?_
    rintro parent ⟨⟩ inside
    exact apart _ (List.mem_flatMap.2 ⟨root, member, inside⟩) _ ends.mem rfl
  rw [Ordered, List.flatMap_append, List.flatMap_singleton, same, adds.preorder_of_endsAt ends once',
    ← List.append_assoc, adds.size, List.range_succ, ← ordered, List.flatMap_append, List.flatMap_singleton]

theorem Ordered.asRoot (ordered : before.Ordered roots) (adds : before.Adds after none specifier role) :
    after.Ordered (roots ++ [before.size]) := by
  have same : roots.flatMap after.preorder = roots.flatMap before.preorder :=
    List.flatMap_congr fun root _ => adds.preorder_of_notMem (by simp)
  rw [Ordered, List.flatMap_append, List.flatMap_singleton, same, adds.preorder_new, adds.size,
    List.range_succ, ← ordered]

theorem Ordered.perm (ordered : forest.Ordered roots) :
    (roots ++ (List.range forest.size).flatMap forest.childrenOf).Perm (List.range forest.size) := by
  have perm := perm_preorder forest roots
  rwa [ordered] at perm

theorem exists_tree (inside : number < forest.size) : ∃ tree, forest.tree? number = some tree ∧
    tree.preorder = (forest.preorder number).filterMap forest.get? :=
  ⟨forest.tree number inside, dif_pos inside, preorder_tree inside⟩

theorem filterMap_get?_range (forest : Forest) :
    (List.range forest.size).filterMap forest.get? = forest.nodes.toList := by
  have listed (nodes : List Occurrence) :
      (List.range nodes.length).filterMap (fun number => nodes[number]?) = nodes := by
    induction nodes with
    | nil => rfl
    | cons node nodes ih =>
      rw [List.length_cons, List.range_succ_eq_map, List.filterMap_cons_some List.getElem?_cons_zero,
        List.filterMap_map]
      exact congrArg _ ih
  rw [← listed forest.nodes.toList]
  refine List.filterMap_congr fun number _ => ?_
  exact Array.getElem?_toList.symm

theorem treesPreorder_filterMap (forest : Forest) (numbers : List Nat)
    (inside : ∀ number ∈ numbers, number < forest.size) :
    treesPreorder (numbers.filterMap forest.tree?) =
      (numbers.flatMap forest.preorder).filterMap forest.get? := by
  induction numbers with
  | nil => rfl
  | cons number numbers ih =>
    obtain ⟨own, others⟩ := List.forall_mem_cons.1 inside
    obtain ⟨tree, found, shows⟩ := exists_tree own
    rw [List.filterMap_cons_some found, treesPreorder, shows, ih others, List.flatMap_cons,
      List.filterMap_append]

theorem Ordered.trees (ordered : forest.Ordered roots) :
    treesPreorder (roots.filterMap forest.tree?) = forest.nodes.toList := by
  rw [treesPreorder_filterMap, ordered, filterMap_get?_range]
  intro root member
  have listed : root ∈ roots.flatMap forest.preorder :=
    List.mem_flatMap.2 ⟨root, member, mem_preorder_self⟩
  rw [ordered] at listed
  exact List.mem_range.1 listed

end Forest

end ModuleBuild.Bundle
