import ModuleBuild.Bundle.Partition
/-!
Trees of imports while they grow. What a node stands for never changes; a node may get more children, and
the first occurrence of a module may become shared.
-/

namespace ModuleBuild.Bundle

namespace Forest

variable {forest before after : Forest}

theorem get?_grow (forest : Forest) (specifier : Specifier) (isPreloaded : Bool) (role : Role)
    (number : Nat) :
    (forest.grow specifier isPreloaded role).get? number =
      if number = forest.size then some { specifier, isPreloaded, role } else forest.get? number := by
  rw [get?, grow, Array.getElem?_push]
  rfl

theorem get?_attach (forest : Forest) {parent child : Nat} (above : parent < child)
    (inside : child < forest.size) (number : Nat) :
    (forest.attach parent child).get? number =
      (forest.get? number).map fun node =>
        if parent = number then { node with children := node.children ++ [child] } else node := by
  rw [attach, dif_pos ⟨above, inside⟩, get?, Array.getElem?_modify]
  split
  · rfl
  · exact Option.map_id'.symm

theorem get?_share (forest : Forest) (number other : Nat) :
    (forest.share number).get? other =
      (forest.get? other).map fun node =>
        if number = other then { node with role := .first true } else node := by
  rw [share, get?, Array.getElem?_modify]
  split
  · rfl
  · exact Option.map_id'.symm

theorem lt_size_of_get? {number : Nat} {node : Occurrence} (found : forest.get? number = some node) :
    number < forest.size := by
  simp only [get?] at found
  exact (Array.getElem?_eq_some_iff.1 found).1

theorem child_lt_size {number child : Nat} {node : Occurrence} (found : forest.get? number = some node)
    (member : child ∈ node.children) : child < forest.size := by
  obtain ⟨inside, rfl⟩ := Array.getElem?_eq_some_iff.1 found
  exact (forest.descends number inside child member).2

/-- What a node stands for, and whether it stands for code of its chunk. -/
def label? (forest : Forest) (number : Nat) : Option (Specifier × Bool) :=
  (forest.get? number).map fun node => (node.specifier, node.role.isIncluded)

/-- A node has a child that stands for a module as code of the same chunk. -/
def Lists (forest : Forest) (number : Nat) (target : Specifier) : Prop :=
  ∃ node, forest.get? number = some node ∧
    ∃ child ∈ node.children, forest.label? child = some (target, true)

def Grows (before after : Forest) (parent? : Option Nat) (node : Occurrence) : Prop :=
  ∀ number, after.get? number =
    if number = before.size then some node
    else (before.get? number).map fun old =>
      if parent? = some number then { old with children := old.children ++ [before.size] } else old

theorem grows_none (forest : Forest) (specifier : Specifier) (isPreloaded : Bool) (role : Role) :
    forest.Grows (forest.grow specifier isPreloaded role) none { specifier, isPreloaded, role } := by
  intro number
  rw [get?_grow]
  simp

theorem grows_some (forest : Forest) (specifier : Specifier) (isPreloaded : Bool) (role : Role)
    {parent : Nat} (inside : parent < forest.size) :
    forest.Grows ((forest.grow specifier isPreloaded role).attach parent forest.size) (some parent)
      { specifier, isPreloaded, role } := by
  intro number
  have size : forest.size < (forest.grow specifier isPreloaded role).size := by
    simp [Forest.size, grow]
  rw [get?_attach _ inside size, get?_grow]
  by_cases new : number = forest.size
  · have other : parent ≠ number := by omega
    simp [new, show parent ≠ forest.size from new ▸ other]
  · simp [new]

theorem Grows.kept {parent? : Option Nat} {node : Occurrence} (grows : before.Grows after parent? node)
    {number : Nat} {old : Occurrence} (there : before.get? number = some old) :
    ∃ new, after.get? number = some new ∧ new.specifier = old.specifier ∧ new.role = old.role := by
  refine ⟨_, (grows number).trans
    (by rw [if_neg (Nat.ne_of_lt (lt_size_of_get? there)), there, Option.map_some]), ?_⟩
  split <;> exact ⟨rfl, rfl⟩

theorem Grows.back {parent? : Option Nat} {node : Occurrence} (grows : before.Grows after parent? node)
    {number : Nat} {new : Occurrence} (found : after.get? number = some new) :
    number = before.size ∧ new = node ∨ ∃ old, before.get? number = some old ∧
      new.specifier = old.specifier ∧ new.role = old.role := by
  rw [grows number] at found
  split at found
  · next same => exact .inl ⟨same, (Option.some.inj found).symm⟩
  · obtain ⟨old, there, rfl⟩ := Option.map_eq_some_iff.1 found
    refine .inr ⟨old, there, ?_⟩
    split <;> exact ⟨rfl, rfl⟩

theorem Grows.label? {parent? : Option Nat} {node : Occurrence} (grows : before.Grows after parent? node)
    (number : Nat) :
    after.label? number =
      if number = before.size then some (node.specifier, node.role.isIncluded)
      else before.label? number := by
  rw [Forest.label?, grows number]
  split
  · rfl
  · rw [Option.map_map, Forest.label?]
    congr 1
    funext old
    simp only [Function.comp_apply]
    split <;> rfl

theorem Grows.lists {parent? : Option Nat} {node : Occurrence} (grows : before.Grows after parent? node)
    (leaf : node.children = []) (within : ∀ parent ∈ parent?, parent < before.size) (number : Nat)
    (target : Specifier) :
    after.Lists number target ↔
      before.Lists number target ∨
        parent? = some number ∧ target = node.specifier ∧ node.role.isIncluded = true := by
  have known {number child : Nat} {old : Occurrence} (found : before.get? number = some old)
      (member : child ∈ old.children) : after.label? child = before.label? child := by
    rw [grows.label?, if_neg (Nat.ne_of_lt (child_lt_size found member))]
  constructor
  · rintro ⟨node', found, child, member, label⟩
    rw [grows number] at found
    split at found
    · obtain rfl := Option.some.inj found
      rw [leaf] at member
      cases member
    · next old =>
      obtain ⟨earlier, found', rfl⟩ := Option.map_eq_some_iff.1 found
      split at member
      · next isParent =>
        rcases List.mem_append.1 member with inside | new
        · exact .inl ⟨earlier, found', child, inside, known found' inside ▸ label⟩
        · rw [List.mem_singleton.1 new, grows.label?, if_pos rfl, Option.some.injEq, Prod.mk.injEq] at label
          exact .inr ⟨isParent, label.1.symm, label.2⟩
      · exact .inl ⟨earlier, found', child, member, known found' member ▸ label⟩
  · rintro (⟨earlier, found, child, member, label⟩ | ⟨isParent, rfl, included⟩)
    · have known' := grows number
      rw [if_neg (Nat.ne_of_lt (lt_size_of_get? found)), found, Option.map_some] at known'
      refine ⟨_, known', child, ?_, known found member ▸ label⟩
      split
      · exact List.mem_append_left _ member
      · exact member
    · have inside := within number isParent
      obtain ⟨earlier, found⟩ : ∃ earlier, before.get? number = some earlier :=
        ⟨_, Array.getElem?_eq_getElem inside⟩
      have known' := grows number
      rw [if_neg (Nat.ne_of_lt inside), found, Option.map_some] at known'
      refine ⟨_, known', before.size, ?_, ?_⟩
      · simp [isParent]
      · rw [grows.label?, if_pos rfl, included]

theorem label?_share {forest : Forest} {number : Nat} {node : Occurrence}
    (found : forest.get? number = some node) (included : node.role.isIncluded) (other : Nat) :
    (forest.share number).label? other = forest.label? other := by
  rw [label?, get?_share, label?, Option.map_map]
  cases found' : forest.get? other with
  | none => rfl
  | some node' =>
    by_cases same : number = other
    · subst same
      obtain rfl := Option.some.inj (found.symm.trans found')
      simp only [Option.map_some, Function.comp_apply, if_true, included]
      rfl
    · simp [same]

theorem lists_share {forest : Forest} {number : Nat} {node : Occurrence}
    (found : forest.get? number = some node) (included : node.role.isIncluded) (other : Nat)
    (target : Specifier) : (forest.share number).Lists other target ↔ forest.Lists other target := by
  unfold Lists
  simp only [label?_share found included, get?_share]
  cases forest.get? other with
  | none => simp
  | some node' => by_cases same : number = other <;> simp [same]

end Forest

namespace Analysis

/-- Each module that occurs as code has one first occurrence, and the shared ones are listed. -/
structure Sound (analysis : Analysis) : Prop where
  owners : ∀ specifier number, analysis.primary.get? specifier = some number →
    ∃ node, analysis.forest.get? number = some node ∧ node.specifier = specifier ∧ node.role.isFirst
  first : ∀ number node, analysis.forest.get? number = some node → node.role.isFirst →
    analysis.primary.get? node.specifier = some number
  included : ∀ number node, analysis.forest.get? number = some node → node.role.isIncluded →
    ∃ owner, analysis.primary.get? node.specifier = some owner
  shared : ∀ number, number ∈ analysis.shared ↔
    ∃ node, analysis.forest.get? number = some node ∧ node.role = .first true

theorem sound_empty : Sound {} where
  owners specifier number found := by cases found
  first number node found := by simp [Forest.get?, Forest.empty] at found
  included number node found := by simp [Forest.get?, Forest.empty] at found
  shared number := by simp [Forest.get?, Forest.empty]

variable {analysis : Analysis}

theorem isIncluded_of_isFirst {role : Role} (first : role.isFirst) : role.isIncluded := by
  cases role <;> first | rfl | cases first

theorem Sound.isShared (sound : analysis.Sound) (specifier : Specifier) :
    analysis.isShared specifier = true ↔
      ∃ number ∈ analysis.shared, analysis.primary.get? specifier = some number := by
  unfold Analysis.isShared
  constructor
  · intro holds
    obtain ⟨node, bound, shared⟩ := (Option.any_eq_true _ _).1 holds
    obtain ⟨number, known, found⟩ := Option.bind_eq_some_iff.1 bound
    refine ⟨number, (sound.shared number).2 ⟨node, found, ?_⟩, known⟩
    obtain ⟨node', found', -, first⟩ := sound.owners specifier number known
    obtain rfl := Option.some.inj (found.symm.trans found')
    simp only [Occurrence.isShared, Bool.or_eq_true, beq_iff_eq] at shared
    rcases shared with occurs | again
    · rw [occurs] at first
      cases first
    · exact again
  · rintro ⟨number, listed, known⟩
    obtain ⟨node, found, role⟩ := (sound.shared number).1 listed
    simp [known, found, Occurrence.isShared, role]

section Share

variable {owner : Nat} {node : Occurrence} (found : analysis.forest.get? owner = some node)
  (first : node.role.isFirst)

include found first

theorem Sound.share (sound : analysis.Sound) :
    ({ analysis with
      forest := analysis.forest.share owner
      shared := analysis.shared ++ [owner] } : Analysis).Sound := by
  have nodes := Forest.get?_share analysis.forest owner
  refine ⟨fun specifier number known => ?_, fun number new found' first' => ?_,
    fun number new found' included => ?_, fun number => ?_⟩
  · obtain ⟨old, there, rfl, first'⟩ := sound.owners specifier number known
    refine ⟨_, (nodes number).trans (congrArg _ there), ?_, ?_⟩
    · split <;> rfl
    · split
      · rfl
      · exact first'
  · rw [nodes number] at found'
    obtain ⟨old, there, rfl⟩ := Option.map_eq_some_iff.1 found'
    split at first'
    · next own =>
      subst own
      obtain rfl := Option.some.inj (found.symm.trans there)
      simpa using sound.first owner node found first
    · next other =>
      rw [if_neg other]
      exact sound.first number old there first'
  · rw [nodes number] at found'
    obtain ⟨old, there, rfl⟩ := Option.map_eq_some_iff.1 found'
    split at included
    · next own =>
      subst own
      obtain rfl := Option.some.inj (found.symm.trans there)
      exact ⟨owner, by simpa using sound.first owner node found first⟩
    · next other =>
      rw [if_neg other]
      exact sound.included number old there included
  · rw [List.mem_append, List.mem_singleton, sound.shared, nodes number]
    by_cases own : owner = number
    · subst own
      simp [found]
    · simp [own, Ne.symm own, eq_comm]

theorem Sound.isShared_share (sound : analysis.Sound) (other : Specifier) :
    ({ analysis with
      forest := analysis.forest.share owner
      shared := analysis.shared ++ [owner] } : Analysis).isShared other = true ↔
      analysis.isShared other = true ∨ other = node.specifier := by
  rw [(sound.share found first).isShared, sound.isShared]
  constructor
  · rintro ⟨number, listed, known⟩
    rcases List.mem_append.1 listed with old | new
    · exact .inl ⟨number, old, known⟩
    · rw [List.mem_singleton] at new
      subst new
      obtain ⟨node', found', rfl, -⟩ := sound.owners other number known
      exact .inr (congrArg _ (Option.some.inj (found'.symm.trans found)))
  · rintro (⟨number, old, known⟩ | rfl)
    · exact ⟨number, List.mem_append_left _ old, known⟩
    · exact ⟨owner, List.mem_append_right _ (List.mem_singleton_self _),
        sound.first owner node found first⟩

end Share

/-- Promoting a module shares its first occurrence, and changes nothing else. -/
theorem Sound.promote (sound : analysis.Sound) {specifier : Specifier} {owner : Nat}
    (known : analysis.primary.get? specifier = some owner) :
    let after := Survey.promote analysis specifier
    after.Sound ∧ after.forest.size = analysis.forest.size ∧
      (∀ number, after.forest.label? number = analysis.forest.label? number) ∧
      (∀ number target, after.forest.Lists number target ↔ analysis.forest.Lists number target) ∧
      ∀ other, after.isShared other = true ↔ analysis.isShared other = true ∨ other = specifier := by
  intro after
  by_cases already : analysis.isShared specifier = true
  · have same : after = analysis := by simp [after, Survey.promote, known, already]
    rw [same]
    refine ⟨sound, rfl, fun _ => rfl, fun _ _ => .rfl, fun other => ⟨.inl, ?_⟩⟩
    rintro (shared | rfl)
    · exact shared
    · exact already
  · obtain ⟨node, found, rfl, first⟩ := sound.owners specifier owner known
    have included := isIncluded_of_isFirst first
    have same : after = { analysis with
        forest := analysis.forest.share owner
        shared := analysis.shared ++ [owner] } := by
      simp [after, Survey.promote, known, already]
    rw [same]
    exact ⟨sound.share found first, by simp [Forest.size, Forest.share],
      Forest.label?_share found included, Forest.lists_share found included,
      sound.isShared_share found first⟩

section Grow

variable {forest : Forest} {parent? : Option Nat} {node : Occurrence}
  (grows : analysis.forest.Grows forest parent? node) (unshared : node.role ≠ .first true)
  (fresh : node.role.isFirst → analysis.primary.get? node.specifier = none)
  (later : node.role.isIncluded → node.role.isFirst = false →
    ∃ owner, analysis.primary.get? node.specifier = some owner)

/-- An analysis with a node more, which is the first occurrence of its module or a later one. -/
def grown (analysis : Analysis) (forest : Forest) (node : Occurrence) : Analysis :=
  { analysis with
    forest
    primary := if node.role.isFirst then analysis.primary.insert node.specifier analysis.forest.size
      else analysis.primary }

theorem primary_grown (analysis : Analysis) (forest : Forest) (node : Occurrence)
    (specifier : Specifier) :
    (analysis.grown forest node).primary.get? specifier =
      if node.role.isFirst ∧ node.specifier = specifier then some analysis.forest.size
      else analysis.primary.get? specifier := by
  by_cases first : node.role.isFirst
  · rw [grown, if_pos first, OrderedMap.get?_insert]
    simp [first]
  · simp [grown, first]

include grows unshared fresh later

theorem Sound.grow (sound : analysis.Sound) : (analysis.grown forest node).Sound := by
  have own : forest.get? analysis.forest.size = some node := (grows _).trans (if_pos rfl)
  refine ⟨fun specifier number known => ?_, fun number new found first => ?_,
    fun number new found included => ?_, fun number => ?_⟩
  · rw [primary_grown] at known
    split at known
    · next isOwn =>
      obtain rfl := Option.some.inj known
      exact ⟨node, own, isOwn.2, isOwn.1⟩
    · obtain ⟨old, there, rfl, first⟩ := sound.owners specifier number known
      obtain ⟨new, found, same, role⟩ := grows.kept there
      exact ⟨new, found, same, by rw [role, first]⟩
  · rcases grows.back found with ⟨rfl, rfl⟩ | ⟨old, there, same, role⟩
    · rw [primary_grown, if_pos ⟨first, rfl⟩]
    · rw [role] at first
      have known := sound.first number old there first
      rw [primary_grown, same, if_neg, known]
      rintro ⟨isFirst, isOwn⟩
      rw [← isOwn, fresh isFirst] at known
      cases known
  · rcases grows.back found with ⟨rfl, rfl⟩ | ⟨old, there, same, role⟩
    · rw [primary_grown]
      split
      · exact ⟨_, rfl⟩
      · next notOwn => exact later included (by simpa using notOwn)
    · rw [primary_grown]
      split
      · exact ⟨_, rfl⟩
      · rw [same]
        exact sound.included number old there (role ▸ included)
  · rw [show (analysis.grown forest node).shared = analysis.shared from rfl, sound.shared]
    constructor
    · rintro ⟨old, there, role⟩
      obtain ⟨new, found, -, role'⟩ := grows.kept there
      exact ⟨new, found, role'.trans role⟩
    · rintro ⟨new, found, role⟩
      rcases grows.back found with ⟨-, rfl⟩ | ⟨old, there, -, role'⟩
      · exact absurd role unshared
      · exact ⟨old, there, role'.symm.trans role⟩

theorem Sound.isShared_grown (sound : analysis.Sound) (other : Specifier) :
    (analysis.grown forest node).isShared other = true ↔ analysis.isShared other = true := by
  rw [(sound.grow grows unshared fresh later).isShared, sound.isShared]
  refine exists_congr fun number => and_congr_right fun listed => ?_
  obtain ⟨old, there, -⟩ := (sound.shared number).1 listed
  rw [primary_grown]
  split
  · next isOwn =>
    -- The new node is not listed as shared: its number was not in use.
    have absent := fresh isOwn.1
    rw [isOwn.2] at absent
    rw [absent]
    simp [(Nat.ne_of_lt (Forest.lt_size_of_get? there)).symm]
  · rfl

end Grow

end Analysis

end ModuleBuild.Bundle
