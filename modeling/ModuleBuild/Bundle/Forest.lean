import ModuleBuild.Specifier.Basic
/-!
Trees of imports. Each node is one occurrence of a module in the tree of an entry. Nodes are numbered
in the order in which they are met, so that children come after their parent; that makes every
subtree finite.
-/

namespace ModuleBuild.Bundle

/-- What an occurrence of a module stands for. Only a first occurrence has children. -/
inductive Role where
  /-- The first occurrence among all trees; it is shared once another entry reaches it. -/
  | first (isShared : Bool)
  /-- Another occurrence in the tree of the same entry. -/
  | revisit
  /-- An import of a module from below itself. -/
  | loop
  /-- An occurrence in the tree of another entry than the first one. -/
  | shared
  /-- The target of a dynamic import. -/
  | dynamic
  | external
  /-- The module has no record. -/
  | missing
deriving DecidableEq

def Role.isFirst : Role → Bool
  | .first _ => true
  | _ => false

/-- Whether a node stands for code of the chunk it occurs in. -/
def Role.isIncluded : Role → Bool
  | .external | .missing | .dynamic => false
  | .first _ | .revisit | .loop | .shared => true

structure Occurrence where
  specifier : Specifier
  isPreloaded : Bool
  role : Role
  /-- The numbers of the children, in the order of the imports. -/
  children : List Nat := []
deriving DecidableEq

def Occurrence.isShared (occurrence : Occurrence) : Bool :=
  occurrence.role == .shared || occurrence.role == .first true

/-- A node with all that is below it. -/
inductive Tree where
  | node (occurrence : Occurrence) (children : List Tree)

structure Forest where
  nodes : Array Occurrence
  descends : ∀ (parent : Nat) (inside : parent < nodes.size), ∀ child ∈ nodes[parent].children,
    parent < child ∧ child < nodes.size

namespace Forest

def empty : Forest := ⟨#[], fun _ inside => absurd inside (Nat.not_lt_zero _)⟩

def size (forest : Forest) : Nat := forest.nodes.size

/-- Adds a node without children, which gets the next number. -/
def grow (forest : Forest) (specifier : Specifier) (isPreloaded : Bool) (role : Role) : Forest :=
  { nodes := forest.nodes.push { specifier, isPreloaded, role }
    descends := by
      intro parent inside child member
      rw [Array.size_push] at inside ⊢
      rw [Array.getElem_push] at member
      split at member
      · rename_i old
        obtain ⟨above, below⟩ := forest.descends parent old child member
        exact ⟨above, Nat.lt_succ_of_lt below⟩
      · exact absurd member List.not_mem_nil }

/-- Makes a node the last child of an earlier one; other pairs are left alone. -/
def attach (forest : Forest) (parent child : Nat) : Forest :=
  if between : parent < child ∧ child < forest.nodes.size then
    { nodes := forest.nodes.modify parent fun node =>
        { node with children := node.children ++ [child] }
      descends := by
        intro other inside member found
        rw [Array.size_modify] at inside ⊢
        rw [Array.getElem_modify] at found
        split at found
        · rename_i same
          subst same
          rcases List.mem_append.1 found with old | new
          · exact forest.descends parent inside member old
          · rw [List.mem_singleton.1 new]
            exact between
        · exact forest.descends other inside member found }
  else forest

/-- Notes that another entry reached the module of a first occurrence. -/
def share (forest : Forest) (number : Nat) : Forest :=
  { nodes := forest.nodes.modify number fun node => { node with role := .first true }
    descends := by
      intro parent inside child member
      rw [Array.size_modify] at inside ⊢
      rw [Array.getElem_modify] at member
      split at member
      · rename_i same
        subst same
        exact forest.descends number inside child member
      · exact forest.descends parent inside child member }

def get? (forest : Forest) (number : Nat) : Option Occurrence := forest.nodes[number]?

def tree (forest : Forest) (number : Nat) (inside : number < forest.nodes.size) : Tree :=
  let node := forest.nodes[number]
  .node node (node.children.attach.map fun ⟨child, member⟩ =>
    have bounds := forest.descends number inside child member
    forest.tree child bounds.2)
termination_by forest.nodes.size - number
decreasing_by omega

/-- The subtree at a number, if a node has it. -/
def tree? (forest : Forest) (number : Nat) : Option Tree :=
  if inside : number < forest.nodes.size then some (forest.tree number inside) else none

end Forest

end ModuleBuild.Bundle
