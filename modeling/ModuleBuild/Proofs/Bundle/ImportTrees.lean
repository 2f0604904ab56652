import Mathlib
import ModuleBuild.Proofs.Bundle.Entries
import ModuleBuild.Proofs.Bundle.Preorder
/-!
The trees of an analysis against the imports of the graph. While an entry is walked, its last tree grows at the
end of the path only. So nodes are numbered in preorder, each has one place, and the first node of a module,
nodes for dynamic imports apart, gets a child for each import.
-/

namespace ModuleBuild.Bundle

open ModuleGraph Survey

variable {graph : ModuleGraph}

@[simp] theorem Role.unshared_first (isShared : Bool) : (Role.first isShared).unshared = .first false := rfl

theorem Role.unshared_of_ne {role : Role} (unshared : role ≠ .first true) : role.unshared = role := by
  cases role with
  | first isShared =>
    cases isShared with
    | true => exact absurd rfl unshared
    | false => rfl
  | _ => rfl

theorem Role.isFirst_iff {role : Role} : role.isFirst = true ↔ role.unshared = .first false := by
  cases role <;> simp [Role.isFirst, Role.unshared]

theorem Role.eq_first {role : Role} (unshared : role ≠ .first true) (first : role.isFirst = true) :
    role = .first false := by
  rwa [isFirst_iff, unshared_of_ne unshared] at first

theorem Role.unshared_eq_dynamic {role : Role} : role.unshared = .dynamic ↔ role = .dynamic := by
  cases role <;> simp [Role.unshared]

namespace Forest

variable {forest before after : Forest} {number child : Nat} {parent? : Option Nat} {edge : DependencyEdge}
  {specifier : Specifier} {role : Role}

/-- A node stands for the target of an import, and tells whether the import is dynamic. -/
def Follows (forest : Forest) (edge : DependencyEdge) (child : Nat) : Prop :=
  ∃ node, forest.get? child = some node ∧ node.specifier = edge.target ∧
    (node.role = .dynamic ↔ edge.isDynamic = true)

theorem follows_iff : forest.Follows edge child ↔
    ∃ role, forest.standing? child = some (edge.target, role) ∧ (role = .dynamic ↔ edge.isDynamic = true) := by
  constructor
  · rintro ⟨node, found, target, kind⟩
    refine ⟨node.role.unshared, ?_, Role.unshared_eq_dynamic.trans kind⟩
    rw [standing?, found, Option.map_some, target]
  · rintro ⟨role, label, kind⟩
    obtain ⟨node, found, same⟩ := Option.map_eq_some_iff.1 label
    obtain ⟨target, rfl⟩ := Prod.mk.inj same
    exact ⟨node, found, target, Role.unshared_eq_dynamic.symm.trans kind⟩

theorem Adds.follows (adds : before.Adds after parent? specifier role) (follows : before.Follows edge child) :
    after.Follows edge child := by
  obtain ⟨role, label, kind⟩ := follows_iff.1 follows
  exact follows_iff.2 ⟨role, adds.standing_of_old label, kind⟩

/-- A node is the first one of a module whose code goes into chunks, nodes for dynamic imports apart. -/
def IsFirstOf (graph : ModuleGraph) (forest : Forest) (number : Nat) : Prop :=
  ∃ node, forest.get? number = some node ∧ graph.IsBundled node.specifier ∧ node.role ≠ .dynamic ∧
    ∀ earlier < number, ∀ other, forest.get? earlier = some other → other.specifier = node.specifier →
      other.role = .dynamic

theorem lt_size_of_standing {label : Specifier × Role} (found : forest.standing? number = some label) :
    number < forest.size := by
  obtain ⟨node, there, -⟩ := Option.map_eq_some_iff.1 found
  exact lt_size_of_get? there

end Forest

namespace Analysis

variable {analysis : Analysis} {specifier : Specifier} {number : Nat}

theorem Sound.standing_of_owner (sound : analysis.Sound)
    (known : analysis.primary.get? specifier = some number) :
    analysis.forest.standing? number = some (specifier, .first false) := by
  obtain ⟨node, found, rfl, first⟩ := sound.owners specifier number known
  rw [Forest.standing?, found, Option.map_some, Role.isFirst_iff.1 first]

theorem Sound.owner_of_standing (sound : analysis.Sound)
    (first : analysis.forest.standing? number = some (specifier, .first false)) :
    analysis.primary.get? specifier = some number := by
  obtain ⟨node, found, same⟩ := Option.map_eq_some_iff.1 first
  obtain ⟨rfl, role⟩ := Prod.mk.inj same
  exact sound.first number node found (Role.isFirst_iff.2 role)

theorem Sound.standing?_promote (sound : analysis.Sound) (specifier : Specifier) (number : Nat) :
    (Survey.promote analysis specifier).forest.standing? number = analysis.forest.standing? number := by
  unfold Survey.promote
  split
  · rfl
  · next owner known =>
    split
    · rfl
    · obtain ⟨node, found, -, first⟩ := sound.owners specifier owner known
      rw [Forest.standing?, Forest.get?_share, Forest.standing?, Option.map_map]
      by_cases own : owner = number
      · subst own
        simp [found, Role.isFirst_iff.1 first]
      · simp [own, Function.comp_def]

theorem childrenOf_promote (analysis : Analysis) (specifier : Specifier) (number : Nat) :
    (Survey.promote analysis specifier).forest.childrenOf number = analysis.forest.childrenOf number := by
  unfold Survey.promote
  split
  · rfl
  · split
    · rfl
    · rw [Forest.childrenOf, Forest.get?_share, Forest.childrenOf, Option.map_map]
      congr 2
      funext node
      simp only [Function.comp_apply]
      split <;> rfl

end Analysis

namespace Survey

theorem roleOf_ne_dynamic (survey : Survey graph) (path : List (Visit graph)) (specifier : Specifier) :
    survey.roleOf path specifier ≠ .dynamic := by
  unfold roleOf
  repeat' split
  all_goals simp

theorem occur_adds {survey : Survey graph} (sound : survey.analysis.Sound) {parent? : Option Nat}
    (within : ∀ parent ∈ parent?, parent < survey.next) (target : Specifier) (isPreloaded : Bool)
    (role : Role) :
    survey.analysis.forest.Adds (survey.occur parent? target isPreloaded role).analysis.forest parent? target
      role := by
  obtain ⟨forest, grows, same⟩ := occur_eq survey within target isPreloaded role
  rw [same]
  -- promoting the target first neither adds nodes nor moves them
  by_cases shared : role = .shared
  · rw [if_pos shared] at grows
    have size := size_promote survey.analysis target
    obtain ⟨within', size', standing, children⟩ :=
      grows.adds rfl fun parent isParent => size ▸ within parent isParent
    rw [size] at within' size'
    simp only [size, sound.standing?_promote, Analysis.childrenOf_promote] at standing children
    exact ⟨within', size', standing, children⟩
  · rw [if_neg shared] at grows
    exact grows.adds rfl within

end Survey

/-- The roots of the trees of all entries. -/
def Analysis.roots (analysis : Analysis) : List Nat := analysis.entries.flatMap (·.roots)

/-- The node of a visit has a child for each import that is not pending any more. -/
structure Mirrored (forest : Forest) (visit : Visit graph) : Prop where
  label : forest.standing? visit.number = some (visit.specifier, .first false)
  children : ∃ done, graph.dependencies visit.specifier = done ++ visit.pending.map (·.val) ∧
    List.Forall₂ forest.Follows done (forest.childrenOf visit.number)

/-- A forest on the way: the last tree ends with the nodes on the path, and the children of all other nodes are
complete. -/
structure Planted (graph : ModuleGraph) (roots : List Nat) (path : List (Visit graph)) (forest : Forest) :
    Prop where
  ordered : forest.Ordered roots
  spine : forest.Spine roots (path.map (·.number))
  onPath : ∀ visit ∈ path, Mirrored forest visit
  offPath : ∀ number specifier, forest.standing? number = some (specifier, .first false) →
    (∀ visit ∈ path, visit.number ≠ number) →
    List.Forall₂ forest.Follows (graph.dependencies specifier) (forest.childrenOf number)
  stubs : ∀ number specifier role, forest.standing? number = some (specifier, role) → role ≠ .first false →
    forest.childrenOf number = []
  firsts : ∀ number specifier role, forest.standing? number = some (specifier, role) → role ≠ .dynamic →
    graph.IsBundled specifier → ∃ owner ≤ number, forest.standing? owner = some (specifier, .first false)

theorem planted_empty (graph : ModuleGraph) : Planted graph [] [] .empty where
  ordered := rfl
  spine := .nil
  onPath visit member := by cases member
  offPath number specifier found := by simp [Forest.standing?, Forest.get?, Forest.empty] at found
  stubs number specifier role found := by simp [Forest.standing?, Forest.get?, Forest.empty] at found
  firsts number specifier role found := by simp [Forest.standing?, Forest.get?, Forest.empty] at found

section Add

variable {forest after : Forest} {parent? : Option Nat} {target : Specifier} {role : Role} {number : Nat}
  {specifier : Specifier} {visit : Visit graph} {pending : List (Step graph)}
  (adds : forest.Adds after parent? target role)

include adds

theorem Forest.Adds.childrenOf_of_ne (other : ∀ parent ∈ parent?, parent ≠ number) :
    after.childrenOf number = forest.childrenOf number := by
  rw [adds.children, if_neg fun isParent : parent? = some number => other number isParent rfl]

theorem Mirrored.of_ne (mirrored : Mirrored forest visit) (other : ∀ parent ∈ parent?, parent ≠ visit.number) :
    Mirrored after visit where
  label := adds.standing_of_old mirrored.label
  children := by
    obtain ⟨done, imports, follow⟩ := mirrored.children
    rw [adds.childrenOf_of_ne other]
    exact ⟨done, imports, follow.imp fun edge child => adds.follows⟩

variable (unshared : role ≠ .first true)

include unshared

theorem Forest.Adds.standing_new : after.standing? forest.size = some (target, role) := by
  rw [adds.standing, if_pos rfl, Role.unshared_of_ne unshared]

theorem Forest.Adds.standing_cases {found : Specifier × Role} (label : after.standing? number = some found) :
    number = forest.size ∧ found = (target, role) ∨ forest.standing? number = some found := by
  by_cases own : number = forest.size
  · subst own
    exact .inl ⟨rfl, Option.some.inj (label.symm.trans (adds.standing_new unshared))⟩
  · rw [adds.standing, if_neg own] at label
    exact .inr label

theorem mirrored_new (first : role = .first false) :
    Mirrored after (⟨forest.size, target, stepsFrom graph target⟩ : Visit graph) where
  label := first ▸ adds.standing_new unshared
  children := by
    refine ⟨[], ?_, ?_⟩
    · rw [List.nil_append, stepsFrom, List.attachWith_map_subtype_val]
    · rw [adds.childrenOf_new]
      exact .nil

omit adds in
theorem Mirrored.step {step : Step graph}
    (mirrored : Mirrored forest (⟨number, specifier, step :: pending⟩ : Visit graph))
    (adds : forest.Adds after (some number) step.val.target role)
    (kind : role = .dynamic ↔ step.val.isDynamic = true) :
    Mirrored after (⟨number, specifier, pending⟩ : Visit graph) where
  label := adds.standing_of_old mirrored.label
  children := by
    obtain ⟨done, imports, follow⟩ := mirrored.children
    refine ⟨done ++ [step.val], by simpa using imports, ?_⟩
    rw [adds.children, if_pos rfl]
    have follows : after.Follows step.val forest.size :=
      Forest.follows_iff.2 ⟨role, adds.standing_new unshared, kind⟩
    exact List.rel_append (follow.imp fun edge child => adds.follows) (.cons follows .nil)

variable {roots : List Nat} {path : List (Visit graph)} (planted : Planted graph roots path forest)

include planted

theorem Planted.offPath_add (found : after.standing? number = some (specifier, .first false))
    (old : role = .first false → number ≠ forest.size) (other : ∀ parent ∈ parent?, parent ≠ number)
    (away : ∀ visit ∈ path, visit.number ≠ number) :
    List.Forall₂ after.Follows (graph.dependencies specifier) (after.childrenOf number) := by
  rcases adds.standing_cases unshared found with ⟨own, same⟩ | there
  · exact absurd own (old (Prod.mk.inj same).2.symm)
  · rw [adds.childrenOf_of_ne other]
    exact (planted.offPath number specifier there away).imp fun edge child => adds.follows

theorem Planted.stubs_add
    (parents : ∀ parent ∈ parent?, ∃ owner, forest.standing? parent = some (owner, .first false))
    {kind : Role} (found : after.standing? number = some (specifier, kind)) (later : kind ≠ .first false) :
    after.childrenOf number = [] := by
  rcases adds.standing_cases unshared found with ⟨rfl, -⟩ | old
  · exact adds.childrenOf_new
  · rw [adds.childrenOf_of_ne]
    · exact planted.stubs _ _ _ old later
    · rintro parent isParent rfl
      obtain ⟨owner, first⟩ := parents parent isParent
      exact later (Prod.mk.inj (Option.some.inj (old.symm.trans first))).2

theorem Planted.firsts_add
    (known : role ≠ .dynamic → role ≠ .first false → graph.IsBundled target →
      ∃ owner, forest.standing? owner = some (target, .first false))
    {kind : Role} (found : after.standing? number = some (specifier, kind)) (isStatic : kind ≠ .dynamic)
    (bundled : graph.IsBundled specifier) :
    ∃ owner ≤ number, after.standing? owner = some (specifier, .first false) := by
  rcases adds.standing_cases unshared found with ⟨rfl, same⟩ | old
  · obtain ⟨rfl, rfl⟩ := Prod.mk.inj same
    by_cases first : kind = .first false
    · exact ⟨forest.size, Nat.le_refl _, first ▸ found⟩
    · obtain ⟨owner, label⟩ := known isStatic first bundled
      exact ⟨owner, Nat.le_of_lt (Forest.lt_size_of_standing label), adds.standing_of_old label⟩
  · obtain ⟨owner, before, label⟩ := planted.firsts _ _ _ old isStatic bundled
    exact ⟨owner, before, adds.standing_of_old label⟩

end Add

namespace Planted

variable {forest after : Forest} {roots : List Nat} {path outer : List (Visit graph)} {target : Specifier}
  {role : Role} {number : Nat} {specifier : Specifier} {pending : List (Step graph)}

theorem root (planted : Planted graph roots [] forest) (adds : forest.Adds after none target role)
    (unshared : role ≠ .first true)
    (known : role ≠ .dynamic → role ≠ .first false → graph.IsBundled target →
      ∃ owner, forest.standing? owner = some (target, .first false)) :
    Planted graph (roots ++ [forest.size])
      (if role.isFirst then [⟨forest.size, target, stepsFrom graph target⟩] else []) after where
  ordered := planted.ordered.asRoot adds
  spine := by
    split
    · exact .root rfl
    · exact .nil
  onPath visit member := by
    split at member
    · next first =>
      obtain rfl := List.mem_singleton.1 member
      exact mirrored_new adds unshared (Role.eq_first unshared first)
    · cases member
  offPath number specifier found away := by
    refine offPath_add adds unshared planted found ?_ (by simp) (by simp)
    rintro rfl same
    exact away ⟨forest.size, target, stepsFrom graph target⟩ (by simp [Role.isFirst]) same.symm
  stubs number specifier kind := stubs_add adds unshared planted (by simp)
  firsts number specifier kind := firsts_add adds unshared planted known

/-- One more child of the innermost node on the path, for the next of its imports. -/
theorem child {step : Step graph}
    (planted : Planted graph roots (⟨number, specifier, step :: pending⟩ :: outer) forest)
    (adds : forest.Adds after (some number) step.val.target role) (unshared : role ≠ .first true)
    (kind : role = .dynamic ↔ step.val.isDynamic = true)
    (known : role ≠ .dynamic → role ≠ .first false → graph.IsBundled step.val.target →
      ∃ owner, forest.standing? owner = some (step.val.target, .first false)) :
    Planted graph roots
      (if role.isFirst then
        ⟨forest.size, step.val.target, stepsFrom graph step.val.target⟩ :: ⟨number, specifier, pending⟩ :: outer
      else ⟨number, specifier, pending⟩ :: outer) after := by
  have own : Mirrored forest (⟨number, specifier, step :: pending⟩ : Visit graph) :=
    planted.onPath _ List.mem_cons_self
  have spine : after.Spine roots (number :: outer.map (·.number)) := planted.spine.adds adds
  -- what holds of the old path, whether or not the new node is on the path
  have inner : ∀ visit ∈ (⟨number, specifier, pending⟩ :: outer : List (Visit graph)), Mirrored after visit := by
    refine List.forall_mem_cons.2 ⟨own.step unshared adds kind, fun visit member => ?_⟩
    refine (planted.onPath visit (List.mem_cons_of_mem _ member)).of_ne adds ?_
    rintro parent ⟨⟩
    exact Nat.ne_of_gt (planted.spine.lt _ (List.mem_map_of_mem member))
  refine
    { ordered := planted.ordered.belowLast planted.spine adds
      spine := ?_
      onPath := fun visit member => ?_
      offPath := fun other owner found away => ?_
      stubs := fun other owner later => stubs_add adds unshared planted ?_
      firsts := fun other owner later => firsts_add adds unshared planted known }
  · split
    · exact .step (by rw [adds.children, if_pos rfl]) spine
    · exact spine
  · split at member
    · next first =>
      rcases List.mem_cons.1 member with rfl | old
      · exact mirrored_new adds unshared (Role.eq_first unshared first)
      · exact inner visit old
    · exact inner visit member
  · have away' : ∀ visit ∈ (⟨number, specifier, pending⟩ :: outer : List (Visit graph)),
        visit.number ≠ other := by
      intro visit member
      refine away visit ?_
      split
      · exact List.mem_cons_of_mem _ member
      · exact member
    obtain ⟨apart, others⟩ := List.forall_mem_cons.1 away'
    refine offPath_add adds unshared planted found ?_ (by rintro parent ⟨⟩; exact apart)
      (List.forall_mem_cons.2 ⟨apart, others⟩)
    rintro rfl same
    exact away ⟨forest.size, step.val.target, stepsFrom graph step.val.target⟩ (by simp [Role.isFirst]) same.symm
  · rintro parent ⟨⟩
    exact ⟨specifier, own.label⟩

theorem leave (planted : Planted graph roots (⟨number, specifier, []⟩ :: outer) forest) :
    Planted graph roots outer forest where
  ordered := planted.ordered
  spine := planted.spine.tail
  onPath visit member := planted.onPath visit (List.mem_cons_of_mem _ member)
  offPath other owner found away := by
    by_cases own : number = other
    · subst own
      obtain ⟨label, done, imports, follow⟩ := planted.onPath _ List.mem_cons_self
      obtain ⟨rfl, -⟩ := Prod.mk.inj (Option.some.inj (found.symm.trans label))
      rw [List.map_nil, List.append_nil] at imports
      exact imports ▸ follow
    · exact planted.offPath other owner found (List.forall_mem_cons.2 ⟨own, away⟩)
  stubs := planted.stubs
  firsts := planted.firsts

variable {base : Analysis} {needed : List Specifier} {survey : Survey graph}

theorem known_of_decided {role : Role} (walking : Walking base needed path survey)
    {decidedOn : List (Visit graph)} (decided : Decided survey decidedOn target role)
    (owned : ∀ visit ∈ decidedOn, visit.specifier ∈ survey.owned) (later : role ≠ .first false)
    (bundled : graph.IsBundled target) :
    ∃ owner, survey.analysis.forest.standing? owner = some (target, .first false) := by
  have notFirst : role.isFirst = false := by
    rw [Bool.eq_false_iff, Ne, Role.isFirst_iff, Role.unshared_of_ne decided.unshared]
    exact later
  obtain ⟨owner, known⟩ :=
    (decided.again walking.toSurveys owned).1 (decided.included.2 bundled) notFirst
  exact ⟨owner, walking.sound.standing_of_owner known⟩

theorem within (planted : Planted graph roots (⟨number, specifier, pending⟩ :: outer) forest) :
    ∀ parent ∈ some number, parent < forest.size := by
  rintro parent ⟨⟩
  exact Forest.lt_size_of_standing (planted.onPath _ List.mem_cons_self).label

theorem static {step : Step graph}
    (planted : Planted graph roots (⟨number, specifier, step :: pending⟩ :: outer) survey.analysis.forest)
    (walking : Walking base needed (⟨number, specifier, step :: pending⟩ :: outer) survey)
    (isStatic : ¬ step.val.isDynamic = true) (isPreloaded : Bool)
    (is : survey.roleOf (⟨number, specifier, pending⟩ :: outer) step.val.target = role) :
    Planted graph roots
      (if role.isFirst then
        ⟨survey.next, step.val.target, stepsFrom graph step.val.target⟩ :: ⟨number, specifier, pending⟩ :: outer
      else ⟨number, specifier, pending⟩ :: outer)
      (survey.occur (some number) step.val.target isPreloaded role).analysis.forest := by
  have decided : Decided survey (⟨number, specifier, pending⟩ :: outer) step.val.target role :=
    is ▸ decided_roleOf survey _ _
  have owned : ∀ visit ∈ (⟨number, specifier, pending⟩ :: outer : List (Visit graph)),
      visit.specifier ∈ survey.owned := by
    refine List.forall_mem_cons.2 ⟨(walking.onPath _ List.mem_cons_self).2, fun visit member => ?_⟩
    exact (walking.onPath visit (List.mem_cons_of_mem _ member)).2
  have adds := occur_adds walking.sound planted.within step.val.target isPreloaded role
  refine planted.child adds decided.unshared ?_ fun _ => known_of_decided walking decided owned
  exact iff_of_false (is ▸ roleOf_ne_dynamic _ _ _) isStatic

theorem dynamic {step : Step graph}
    (planted : Planted graph roots (⟨number, specifier, step :: pending⟩ :: outer) survey.analysis.forest)
    (walking : Walking base needed (⟨number, specifier, step :: pending⟩ :: outer) survey)
    (isDynamic : step.val.isDynamic = true) :
    Planted graph roots (⟨number, specifier, pending⟩ :: outer)
      (survey.occur (some number) step.val.target false .dynamic).analysis.forest :=
  planted.child (occur_adds walking.sound planted.within step.val.target false .dynamic) (by simp)
    (by simp [isDynamic]) (by simp)

theorem run (isPreloaded : Bool) (survey : Survey graph) (path : List (Visit graph))
    (walking : Walking base needed path survey)
    (planted : Planted graph roots path survey.analysis.forest) :
    Planted graph roots [] (run isPreloaded survey path).analysis.forest := by
  induction survey, path using run.induct isPreloaded with
  | case1 survey =>
    rw [Survey.run]
    exact planted
  | case2 survey number specifier outer ih =>
    rw [Survey.run]
    exact ih walking.leave planted.leave
  | case3 survey number specifier edge known pending outer path isDynamic occurred ih =>
    rw [Survey.run, if_pos isDynamic]
    exact ih (walking.dynamic isDynamic).2 (planted.dynamic walking isDynamic)
  | case4 survey number specifier edge known pending outer path isStatic role occurred first child ih =>
    rw [Survey.run, if_neg isStatic, dif_pos first]
    have walking' := (walking.static isStatic isPreloaded).2
    have planted' := planted.static walking isStatic isPreloaded rfl
    rw [if_pos first] at walking' planted'
    exact ih walking' planted'
  | case5 survey number specifier edge known pending outer path isStatic role occurred later ih =>
    rw [Survey.run, if_neg isStatic, dif_neg later]
    have walking' := (walking.static isStatic isPreloaded).2
    have planted' := planted.static walking isStatic isPreloaded rfl
    rw [if_neg later] at walking' planted'
    exact ih walking' planted'

theorem visitRoot (walking : Walking base needed [] survey)
    (planted : Planted graph roots [] survey.analysis.forest) (isPreloaded : Bool) (target : Specifier) :
    Planted graph (roots ++ [(visitRoot isPreloaded survey target).1]) []
      (visitRoot isPreloaded survey target).2.analysis.forest := by
  have decided := decided_roleOf survey [] target
  obtain ⟨-, walking', -⟩ := (walking.mono (fun _ => List.mem_append_left [target])).occurs none decided
    (by simp) (by simp) (fun included => .root (by simp) (decided.included.1 included)) isPreloaded
  have adds : survey.analysis.forest.Adds _ none target (survey.roleOf [] target) :=
    occur_adds walking.sound (by simp) target isPreloaded _
  have planted' := planted.root adds decided.unshared fun _ => known_of_decided walking decided (by simp)
  exact planted'.run isPreloaded _ _ walking'

theorem visitRoots (isPreloaded : Bool) (modules : List Specifier) (walking : Walking base needed [] survey)
    (numbers : List Nat) (planted : Planted graph (roots ++ numbers) [] survey.analysis.forest) :
    Planted graph (roots ++ (visitRoots isPreloaded (numbers, survey) modules).1) []
      (visitRoots isPreloaded (numbers, survey) modules).2.analysis.forest := by
  induction modules generalizing needed numbers survey with
  | nil => exact planted
  | cons specifier modules ih =>
    have planted' := planted.visitRoot walking isPreloaded specifier
    rw [List.append_assoc] at planted'
    rw [visitRoots_cons]
    exact ih (walking.visitRoot isPreloaded specifier).1 _ planted'

theorem visitEntry (mirrors : base.Mirrors graph) (planted : Planted graph base.roots [] base.forest)
    (entry : EntryPoint) (kind : EntryKind) :
    Planted graph (visitEntry graph base entry kind).1.roots [] (visitEntry graph base entry kind).1.forest := by
  have walked := (walking_start mirrors).visitRoots entry.isPreloaded entry.modules [] .nil (by simp)
  have planted' := Planted.visitRoots entry.isPreloaded entry.modules (walking_start mirrors) []
    ((List.append_nil base.roots).symm ▸ planted)
  rw [visitEntry_eq]
  generalize Survey.visitRoots entry.isPreloaded ([], ({ analysis := base } : Survey graph))
    entry.modules = result at walked planted' ⊢
  obtain ⟨numbers, survey⟩ := result
  obtain ⟨walking, -⟩ := walked
  simpa [Analysis.roots, walking.entries] using planted'

end Planted

theorem analyzeFrom_planted (base : Analysis) (names : List String) (starts : List Specifier)
    (waiting : List (EntryPoint × EntryKind)) (mirrors : base.Mirrors graph)
    (planted : Planted graph base.roots [] base.forest) :
    let after := analyzeFrom graph base names starts waiting
    after.Mirrors graph ∧ Planted graph after.roots [] after.forest := by
  induction base, names, starts, waiting using analyzeFrom.induct graph with
  | case1 base names starts =>
    rw [analyzeFrom]
    exact ⟨mirrors, planted⟩
  | case2 base names starts entry kind rest middle discovered visited named ih =>
    have entered := visitEntry_ok mirrors entry kind
    have planted' := planted.visitEntry mirrors entry kind
    rw [analyzeFrom]
    rw [visited] at entered planted' ⊢
    exact ih entered.mirrors planted'

/-- The trees of all entries as a forest over the nodes, against the imports of the graph. -/
structure Analysis.ImportTrees (graph : ModuleGraph) (analysis : Analysis) : Prop where
  below : ∀ number, ∀ child ∈ analysis.forest.childrenOf number, number < child
  /-- The roots of all entries and the children of all nodes are all nodes, each of them once. -/
  placed : (analysis.roots ++ (List.range analysis.forest.size).flatMap analysis.forest.childrenOf).Perm
    (List.range analysis.forest.size)
  /-- A first node has a child for each import of its module, in the order of the imports. -/
  imports : ∀ number node, analysis.forest.get? number = some node → analysis.forest.IsFirstOf graph number →
    List.Forall₂ analysis.forest.Follows (graph.dependencies node.specifier) node.children
  stubs : ∀ number node, analysis.forest.get? number = some node → ¬ analysis.forest.IsFirstOf graph number →
    node.children = []
  /-- From each node its tree can be seen, which shows the nodes from there in preorder. -/
  seen : ∀ number < analysis.forest.size, ∃ tree, analysis.forest.tree? number = some tree ∧
    tree.preorder = (analysis.forest.preorder number).filterMap analysis.forest.get?
  numbered : analysis.roots.flatMap analysis.forest.preorder = List.range analysis.forest.size
  /-- The trees of all entries show all nodes, each of them once. -/
  listed : treesPreorder (analysis.roots.filterMap analysis.forest.tree?) = analysis.forest.nodes.toList

namespace Planted

variable {analysis : Analysis} {number : Nat}

theorem isFirstOf_iff (planted : Planted graph analysis.roots [] analysis.forest)
    (mirrors : analysis.Mirrors graph) : analysis.forest.IsFirstOf graph number ↔
      ∃ specifier, analysis.forest.standing? number = some (specifier, .first false) := by
  constructor
  · rintro ⟨node, found, bundled, isStatic, earliest⟩
    have label : analysis.forest.standing? number = some (node.specifier, node.role.unshared) := by
      rw [Forest.standing?, found, Option.map_some]
    obtain ⟨owner, upTo, first⟩ :=
      planted.firsts _ _ _ label (Role.unshared_eq_dynamic.not.2 isStatic) bundled
    rcases Nat.eq_or_lt_of_le upTo with rfl | before
    · exact ⟨node.specifier, first⟩
    · obtain ⟨other, there, same⟩ := Option.map_eq_some_iff.1 first
      obtain ⟨own, isFirst⟩ := Prod.mk.inj same
      rw [earliest owner before other there own] at isFirst
      cases isFirst
  · rintro ⟨specifier, label⟩
    have known := mirrors.sound.owner_of_standing label
    obtain ⟨node, found, same⟩ := Option.map_eq_some_iff.1 label
    obtain ⟨rfl, first⟩ := Prod.mk.inj same
    refine ⟨node, found, mirrors.bundled _ ⟨number, known⟩, ?_, fun earlier before other there own => ?_⟩
    · rintro isDynamic
      rw [isDynamic] at first
      cases first
    · by_contra isStatic
      have label' : analysis.forest.standing? earlier = some (node.specifier, other.role.unshared) := by
        rw [Forest.standing?, there, Option.map_some, own]
      obtain ⟨owner, upTo, first'⟩ := planted.firsts _ _ _ label' (Role.unshared_eq_dynamic.not.2 isStatic)
        (mirrors.bundled _ ⟨number, known⟩)
      have same := Option.some.inj (known.symm.trans (mirrors.sound.owner_of_standing first'))
      omega

theorem importTrees (planted : Planted graph analysis.roots [] analysis.forest)
    (mirrors : analysis.Mirrors graph) : analysis.ImportTrees graph where
  below number child member := (Forest.bounds_of_mem_childrenOf member).1
  placed := planted.ordered.perm
  imports number node found isFirst := by
    obtain ⟨specifier, label⟩ := (planted.isFirstOf_iff mirrors).1 isFirst
    have follow := planted.offPath number specifier label (by simp)
    rw [Forest.standing?, found, Option.map_some, Option.some.injEq, Prod.mk.injEq] at label
    rwa [Forest.childrenOf_eq found, ← label.1] at follow
  stubs number node found later := by
    rw [← Forest.childrenOf_eq found]
    refine planted.stubs number node.specifier node.role.unshared ?_ fun first => later ?_
    · rw [Forest.standing?, found, Option.map_some]
    · refine (planted.isFirstOf_iff mirrors).2 ⟨node.specifier, ?_⟩
      rw [Forest.standing?, found, Option.map_some, first]
  seen number inside := Forest.exists_tree inside
  numbered := planted.ordered
  listed := planted.ordered.trees

end Planted

/-- In the analysis of any graph, nodes are numbered from above, each has one place, and only the first node of a
module has children, which are its imports; nodes for dynamic imports come without them. -/
theorem analyze_importTrees (graph : ModuleGraph) (entries : List EntryPoint) :
    (analyze graph entries).ImportTrees graph := by
  obtain ⟨mirrors, planted⟩ := analyzeFrom_planted {} (entries.map (·.name)) (entries.flatMap (·.modules))
    (entries.map (·, .sync)) (Analysis.mirrors_empty graph) (planted_empty graph)
  exact planted.importTrees mirrors

/-- A page that asks for a module by a dynamic import; this module imports another one. -/
def deferring : ModuleGraph :=
  (ModuleGraph.empty.insert
      { ModuleRecord.awaiting ⟨"/a.js"⟩ with
        dependencies := [{ target := ⟨"/b.js"⟩, isDynamic := true }] }).insert
    { ModuleRecord.awaiting ⟨"/b.js"⟩ with dependencies := [{ target := ⟨"/c.js"⟩ }] }

def asking : List EntryPoint := [{ name := "main", modules := [⟨"/a.js"⟩] }]

/-- The node for a dynamic import can come before the one with the children. -/
theorem children_after_dynamic :
    ¬ ∀ (graph : ModuleGraph) (entries : List EntryPoint) (number : Nat) (node : Occurrence),
      (analyze graph entries).forest.get? number = some node → node.children ≠ [] →
      ∀ earlier < number, ∀ other, (analyze graph entries).forest.get? earlier = some other →
        other.specifier ≠ node.specifier := by
  intro onlyFirst
  have asked : (analyze deferring asking).forest.get? 1 =
      some { specifier := ⟨"/b.js"⟩, isPreloaded := false, role := .dynamic } := by cbv
  have walked : (analyze deferring asking).forest.get? 2 =
      some { specifier := ⟨"/b.js"⟩, isPreloaded := false, role := .first false, children := [3] } := by cbv
  exact onlyFirst deferring asking 2 _ walked (List.cons_ne_nil _ _) 1 (by decide) _ asked rfl

end ModuleBuild.Bundle
