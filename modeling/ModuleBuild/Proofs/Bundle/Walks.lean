import ModuleBuild.Proofs.Bundle.Occurrences
import ModuleBuild.Proofs.Graph.Reach
/-!
The walk over one entry. It gives a first occurrence to every module that the entry reaches and no earlier one
did, mirrors all imports of these modules in the forest, and shares each module of an earlier entry to which
it comes from one of them.
-/

namespace ModuleBuild

open Relation

namespace ModuleGraph

/-- A module whose code goes into chunks: it has a record and is not external. -/
def IsBundled (graph : ModuleGraph) (specifier : Specifier) : Prop :=
  ∃ record, graph.get? specifier = some record ∧ record.isExternal = false

/-- A module needs the code of another one beside its own: it imports it statically. -/
def Pulls (graph : ModuleGraph) (specifier target : Specifier) : Prop :=
  (∃ edge ∈ graph.dependencies specifier, edge.isDynamic = false ∧ edge.target = target) ∧
    graph.IsBundled target

/-- A module imports another one dynamically. -/
def Defers (graph : ModuleGraph) (specifier target : Specifier) : Prop :=
  ∃ edge ∈ graph.dependencies specifier, edge.isDynamic = true ∧ edge.target = target

/-- The modules that have to be loaded with some others. -/
def Needs (graph : ModuleGraph) (roots : List Specifier) (specifier : Specifier) : Prop :=
  ∃ root ∈ roots, graph.IsBundled root ∧ ReflTransGen graph.Pulls root specifier

variable {graph : ModuleGraph} {roots : List Specifier} {specifier target : Specifier}

theorem Needs.root (member : specifier ∈ roots) (bundled : graph.IsBundled specifier) :
    graph.Needs roots specifier :=
  ⟨specifier, member, bundled, .refl⟩

theorem Needs.pulls (needs : graph.Needs roots specifier) (pulls : graph.Pulls specifier target) :
    graph.Needs roots target := by
  obtain ⟨root, member, bundled, leads⟩ := needs
  exact ⟨root, member, bundled, leads.tail pulls⟩

theorem Needs.mono {more : List Specifier} (needs : graph.Needs roots specifier)
    (subset : ∀ root ∈ roots, root ∈ more) : graph.Needs more specifier := by
  obtain ⟨root, member, rest⟩ := needs
  exact ⟨root, subset root member, rest⟩

end ModuleGraph

namespace Bundle

def Analysis.Knows (analysis : Analysis) (specifier : Specifier) : Prop :=
  ∃ owner, analysis.primary.get? specifier = some owner

theorem Analysis.Sound.knows_of_label {analysis : Analysis} (sound : analysis.Sound) {number : Nat}
    {target : Specifier} (label : analysis.forest.label? number = some (target, true)) :
    analysis.Knows target := by
  obtain ⟨node, found, same⟩ := Option.map_eq_some_iff.1 label
  obtain ⟨rfl, included⟩ := Prod.mk.inj same
  exact sound.included number node found included

theorem Analysis.Sound.knows_of_lists {analysis : Analysis} (sound : analysis.Sound) {number : Nat}
    {target : Specifier} (lists : analysis.forest.Lists number target) : analysis.Knows target := by
  obtain ⟨-, -, child, -, label⟩ := lists
  exact sound.knows_of_label label

theorem Analysis.Sound.eq_of_owner {analysis : Analysis} (sound : analysis.Sound)
    {first second : Specifier} {number : Nat} (one : analysis.primary.get? first = some number)
    (two : analysis.primary.get? second = some number) : first = second := by
  obtain ⟨node, found, rfl, -⟩ := sound.owners first number one
  obtain ⟨node', found', rfl, -⟩ := sound.owners second number two
  rw [Option.some.inj (found.symm.trans found')]

namespace Survey

open ModuleGraph

variable {graph : ModuleGraph}

inductive Decided (survey : Survey graph) (path : List (Visit graph)) (target : Specifier) : Role → Prop
  | outside {role : Role} (unbundled : ¬ graph.IsBundled target) (idle : role.isIncluded = false) :
      Decided survey path target role
  | loop (bundled : graph.IsBundled target) (onPath : ∃ visit ∈ path, visit.specifier = target) :
      Decided survey path target .loop
  | revisit (bundled : graph.IsBundled target) (owned : target ∈ survey.owned) :
      Decided survey path target .revisit
  | shared (bundled : graph.IsBundled target) (offPath : ∀ visit ∈ path, visit.specifier ≠ target)
      (unowned : target ∉ survey.owned) {owner : Nat}
      (known : survey.analysis.primary.get? target = some owner) : Decided survey path target .shared
  | first (bundled : graph.IsBundled target) (absent : survey.analysis.primary.get? target = none) :
      Decided survey path target (.first false)

theorem decided_roleOf (survey : Survey graph) (path : List (Visit graph)) (target : Specifier) :
    Decided survey path target (survey.roleOf path target) := by
  cases found : graph.get? target with
  | none =>
    simp only [roleOf, found]
    exact .outside (by simp [IsBundled, found]) rfl
  | some record =>
    cases external : record.isExternal with
    | true =>
      simp only [roleOf, found, external, if_true]
      exact .outside (by simp [IsBundled, found, external]) rfl
    | false =>
      have bundled : graph.IsBundled target := ⟨record, found, external⟩
      simp only [roleOf, found, external, Bool.false_eq_true, if_false]
      split
      · next onPath => exact .loop bundled (by simpa using onPath)
      · next offPath =>
        split
        · next owned => exact .revisit bundled owned
        · next unowned =>
          rw [OrderedMap.contains]
          cases known : survey.analysis.primary.get? target with
          | none => exact .first bundled known
          | some owner => exact .shared bundled (by simpa using offPath) unowned known

theorem Decided.included {survey : Survey graph} {path : List (Visit graph)} {target : Specifier}
    {role : Role} (decided : Decided survey path target role) :
    role.isIncluded = true ↔ graph.IsBundled target := by
  cases decided with
  | outside unbundled idle => simp [unbundled, idle]
  | loop bundled | revisit bundled | shared bundled | first bundled => simp [bundled, Role.isIncluded]

structure Extends (first second : Analysis) : Prop where
  kept : ∀ number label, first.forest.label? number = some label → second.forest.label? number = some label
  knows : ∀ specifier, first.Knows specifier → second.Knows specifier
  shared : ∀ specifier, first.isShared specifier = true → second.isShared specifier = true

theorem Extends.refl (analysis : Analysis) : Extends analysis analysis :=
  ⟨fun _ _ => id, fun _ => id, fun _ => id⟩

theorem Extends.trans {first second third : Analysis} (one : Extends first second)
    (two : Extends second third) : Extends first third :=
  ⟨fun number label found => two.kept number label (one.kept number label found),
    fun specifier known => two.knows specifier (one.knows specifier known),
    fun specifier shared => two.shared specifier (one.shared specifier shared)⟩

structure Occurs (before after : Survey graph) (parent? : Option Nat) (target : Specifier) (role : Role) :
    Prop where
  sound : after.analysis.Sound
  kept : ∀ number label, before.analysis.forest.label? number = some label →
    after.analysis.forest.label? number = some label
  label : after.analysis.forest.label? before.next = some (target, role.isIncluded)
  lists : ∀ number other, after.analysis.forest.Lists number other ↔
    before.analysis.forest.Lists number other ∨
      parent? = some number ∧ other = target ∧ role.isIncluded = true
  primary : ∀ other, after.analysis.primary.get? other =
    if role.isFirst = true ∧ target = other then some before.next
    else before.analysis.primary.get? other
  shared : ∀ other, after.analysis.isShared other = true ↔
    before.analysis.isShared other = true ∨ role = .shared ∧ other = target
  owned : after.owned = if role.isFirst then target :: before.owned else before.owned
  discovered : after.discovered = before.discovered
  entries : after.analysis.entries = before.analysis.entries

theorem size_promote (analysis : Analysis) (specifier : Specifier) :
    (promote analysis specifier).forest.size = analysis.forest.size := by
  unfold promote
  split
  · rfl
  · split
    · rfl
    · simp [Forest.size, Forest.share]

theorem entries_promote (analysis : Analysis) (specifier : Specifier) :
    (promote analysis specifier).entries = analysis.entries := by
  unfold promote
  split
  · rfl
  · split <;> rfl

theorem occur_eq (survey : Survey graph) {parent? : Option Nat}
    (within : ∀ parent ∈ parent?, parent < survey.next) (target : Specifier) (isPreloaded : Bool)
    (role : Role) :
    let base := if role = .shared then promote survey.analysis target else survey.analysis
    ∃ forest, base.forest.Grows forest parent? { specifier := target, isPreloaded, role } ∧
      survey.occur parent? target isPreloaded role =
        { survey with
          analysis := base.grown forest { specifier := target, isPreloaded, role }
          owned := if role.isFirst then target :: survey.owned else survey.owned } := by
  intro base
  have size : base.forest.size = survey.next := by
    by_cases shared : role = .shared
    · simp only [base, if_pos shared]
      exact size_promote _ _
    · simp only [base, if_neg shared]
      rfl
  cases parent? with
  | none =>
    refine ⟨_, Forest.grows_none _ _ _ _, ?_⟩
    cases role <;> rfl
  | some parent =>
    refine ⟨_, Forest.grows_some _ _ _ _ (size ▸ within parent rfl), ?_⟩
    cases role <;> rfl

theorem occur_ok {survey : Survey graph} (sound : survey.analysis.Sound) {parent? : Option Nat}
    (within : ∀ parent ∈ parent?, parent < survey.next) (target : Specifier) (isPreloaded : Bool)
    {role : Role} (unshared : role ≠ .first true)
    (fresh : role.isFirst → survey.analysis.primary.get? target = none)
    (later : role.isIncluded → role.isFirst = false →
      ∃ owner, survey.analysis.primary.get? target = some owner) :
    Occurs survey (survey.occur parent? target isPreloaded role) parent? target role := by
  obtain ⟨forest, grows, same⟩ := occur_eq survey within target isPreloaded role
  rw [same]
  obtain ⟨base, is⟩ : ∃ base, base =
      if role = .shared then promote survey.analysis target else survey.analysis := ⟨_, rfl⟩
  rw [← is] at grows ⊢
  -- promoting comes first and only adds the target to the shared modules
  have promoted : base.Sound ∧ base.forest.size = survey.next ∧
      (∀ number, base.forest.label? number = survey.analysis.forest.label? number) ∧
      (∀ number other, base.forest.Lists number other ↔ survey.analysis.forest.Lists number other) ∧
      (∀ other, base.isShared other = true ↔
        survey.analysis.isShared other = true ∨ role = .shared ∧ other = target) ∧
      base.primary = survey.analysis.primary ∧ base.entries = survey.analysis.entries := by
    by_cases shared : role = .shared
    · rw [if_pos shared] at is
      subst shared is
      obtain ⟨owner, known⟩ := later rfl rfl
      obtain ⟨sound', size, labels, lists, shares⟩ := sound.promote known
      exact ⟨sound', size, labels, lists, by simpa using shares, primary_promote _ _, entries_promote _ _⟩
    · rw [if_neg shared] at is
      subst is
      exact ⟨sound, rfl, fun _ => rfl, fun _ _ => .rfl, by simp [shared], rfl, rfl⟩
  obtain ⟨sound', size, labels, lists, shares, primary, entries⟩ := promoted
  have fresh' : role.isFirst → base.primary.get? target = none := primary ▸ fresh
  have later' : role.isIncluded → role.isFirst = false →
      ∃ owner, base.primary.get? target = some owner := primary ▸ later
  refine
    { sound := sound'.grow grows unshared fresh' later'
      kept := fun number label found => ?_
      label := ?_
      lists := fun number other => ?_
      primary := fun other => ?_
      shared := fun other =>
        (sound'.isShared_grown grows unshared fresh' later' other).trans (shares other)
      owned := rfl
      discovered := rfl
      entries := entries }
  · refine (grows.label? number).trans ?_
    rw [labels, if_neg, found]
    rintro rfl
    obtain ⟨node, there, -⟩ := Option.map_eq_some_iff.1 found
    exact absurd (Forest.lt_size_of_get? there) (by rw [size, next]; omega)
  · exact (grows.label? survey.next).trans (if_pos size.symm)
  · exact (grows.lists rfl (size ▸ within) number other).trans (by rw [lists])
  · rw [Analysis.primary_grown, size, primary]

variable {base : Analysis} {roots : List Specifier}
  {survey after : Survey graph} {parent? : Option Nat} {target : Specifier} {role : Role}

/-- A survey of an entry from some of its modules, on top of what is known from earlier entries. -/
structure Surveys (base : Analysis) (roots : List Specifier) (survey : Survey graph) : Prop where
  sound : survey.analysis.Sound
  extend : Extends base survey.analysis
  entries : survey.analysis.entries = base.entries
  known : ∀ specifier, survey.analysis.Knows specifier ↔ base.Knows specifier ∨ specifier ∈ survey.owned
  apart : ∀ specifier ∈ survey.owned, ¬ base.Knows specifier
  bundled : ∀ specifier, survey.analysis.Knows specifier → graph.IsBundled specifier
  needed : ∀ specifier ∈ survey.owned, graph.Needs roots specifier
  lists : ∀ specifier number target, survey.analysis.primary.get? specifier = some number →
    survey.analysis.forest.Lists number target → graph.Pulls specifier target
  shared : ∀ specifier, survey.analysis.isShared specifier = true →
    base.isShared specifier = true ∨ base.Knows specifier ∧ graph.Needs roots specifier
  discovered : ∀ target ∈ survey.discovered, ∃ specifier ∈ survey.owned, graph.Defers specifier target.val

/-- An import was followed, if its target goes into the same chunk, or its target was noted. -/
structure Walked (base : Analysis) (survey : Survey graph) (specifier : Specifier) (number : Nat)
    (edge : DependencyEdge) : Prop where
  lists : edge.isDynamic = false → graph.IsBundled edge.target →
    survey.analysis.forest.Lists number edge.target
  shared : edge.isDynamic = false → specifier ∈ survey.owned → base.Knows edge.target →
    survey.analysis.isShared edge.target = true
  discovered : edge.isDynamic = true → specifier ∈ survey.owned →
    ∃ target ∈ survey.discovered, target.val = edge.target

/-- A survey on its way: all imports were walked but for those that are pending on the path. -/
structure Walking (base : Analysis) (roots : List Specifier) (path : List (Visit graph))
    (survey : Survey graph) : Prop extends Surveys base roots survey where
  onPath : ∀ visit ∈ path, survey.analysis.primary.get? visit.specifier = some visit.number ∧
    visit.specifier ∈ survey.owned
  pending : ∀ visit ∈ path, ∀ step ∈ visit.pending, step.val ∈ graph.dependencies visit.specifier
  walked : ∀ specifier number, survey.analysis.primary.get? specifier = some number →
    ∀ edge ∈ graph.dependencies specifier, Walked base survey specifier number edge ∨
      ∃ visit ∈ path, visit.specifier = specifier ∧ ∃ step ∈ visit.pending, step.val = edge

theorem Occurs.knows (occurs : Occurs survey after parent? target role) (specifier : Specifier) :
    after.analysis.Knows specifier ↔
      survey.analysis.Knows specifier ∨ role.isFirst = true ∧ target = specifier := by
  unfold Analysis.Knows
  simp only [occurs.primary]
  split
  · next own => simp [own]
  · next other => simp [other]

theorem Occurs.owner (occurs : Occurs survey after parent? target role)
    (absent : role.isFirst → survey.analysis.primary.get? target = none) {specifier : Specifier}
    {number : Nat} (known : survey.analysis.primary.get? specifier = some number) :
    after.analysis.primary.get? specifier = some number := by
  rw [occurs.primary, if_neg, known]
  rintro ⟨first, rfl⟩
  cases (absent first).symm.trans known

theorem Occurs.mem_owned (occurs : Occurs survey after parent? target role) (specifier : Specifier) :
    specifier ∈ after.owned ↔ specifier ∈ survey.owned ∨ role.isFirst = true ∧ specifier = target := by
  rw [occurs.owned]
  split
  · next first => simp [first, or_comm]
  · next later => simp [later]

theorem Occurs.extend (occurs : Occurs survey after parent? target role) :
    Extends survey.analysis after.analysis where
  kept := occurs.kept
  knows specifier known := (occurs.knows specifier).2 (.inl known)
  shared specifier shared := (occurs.shared specifier).2 (.inl shared)

theorem Surveys.occur (surveys : Surveys base roots survey)
    (occurs : Occurs survey after parent? target role)
    (below : ∀ number, parent? = some number → ∃ specifier,
      survey.analysis.primary.get? specifier = some number ∧
        (role.isIncluded = true → graph.Pulls specifier target))
    (needed : role.isIncluded = true → graph.Needs roots target)
    (first : role.isFirst = true →
      survey.analysis.primary.get? target = none ∧ graph.IsBundled target)
    (shared : role = .shared → base.Knows target) : Surveys base roots after := by
  have unknown (isFirst : role.isFirst = true) : ¬ survey.analysis.Knows target := by
    rintro ⟨owner, known⟩
    cases (first isFirst).1.symm.trans known
  refine
    { sound := occurs.sound
      extend := surveys.extend.trans occurs.extend
      entries := occurs.entries.trans surveys.entries
      known := fun specifier => ?_
      apart := fun specifier owned => ?_
      bundled := fun specifier knows => ?_
      needed := fun specifier owned => ?_
      lists := fun specifier number other known lists => ?_
      shared := fun specifier shares => ?_
      discovered := fun other member => ?_ }
  · rw [occurs.knows, surveys.known, occurs.mem_owned, or_assoc, eq_comm (a := target)]
  · rcases (occurs.mem_owned specifier).1 owned with old | ⟨isFirst, rfl⟩
    · exact surveys.apart specifier old
    · exact fun knows => unknown isFirst ((surveys.known specifier).2 (.inl knows))
  · rcases (occurs.knows specifier).1 knows with old | ⟨isFirst, rfl⟩
    · exact surveys.bundled specifier old
    · exact (first isFirst).2
  · rcases (occurs.mem_owned specifier).1 owned with old | ⟨isFirst, rfl⟩
    · exact surveys.needed specifier old
    · exact needed (Analysis.isIncluded_of_isFirst isFirst)
  · rw [occurs.primary] at known
    rw [occurs.lists] at lists
    split at known
    · next own =>
      -- The new node has no children yet.
      obtain rfl := Option.some.inj known
      exfalso
      rcases lists with ⟨node, found, -⟩ | ⟨isParent, -⟩
      · exact absurd (Forest.lt_size_of_get? found) (Nat.lt_irrefl _)
      · obtain ⟨parent, owner, -⟩ := below _ isParent
        obtain ⟨node, found, -⟩ := surveys.sound.owners parent _ owner
        exact absurd (Forest.lt_size_of_get? found) (Nat.lt_irrefl _)
    · rcases lists with old | ⟨isParent, rfl, included⟩
      · exact surveys.lists specifier number other known old
      · obtain ⟨parent, owner, pulls⟩ := below number isParent
        rw [← surveys.sound.eq_of_owner owner known]
        exact pulls included
  · rcases (occurs.shared specifier).1 shares with old | ⟨isShared, rfl⟩
    · exact surveys.shared specifier old
    · exact .inr ⟨shared isShared, needed (by rw [isShared]; rfl)⟩
  · rw [occurs.discovered] at member
    obtain ⟨specifier, owned, defers⟩ := surveys.discovered other member
    exact ⟨specifier, (occurs.mem_owned specifier).2 (.inl owned), defers⟩

theorem Walked.occur {specifier : Specifier} {number : Nat} {edge : DependencyEdge}
    (walked : Walked base survey specifier number edge)
    (occurs : Occurs survey after parent? target role)
    (old : specifier ∈ after.owned → specifier ∈ survey.owned) :
    Walked base after specifier number edge where
  lists isStatic bundled := (occurs.lists number edge.target).2 (.inl (walked.lists isStatic bundled))
  shared isStatic owned knows :=
    (occurs.shared edge.target).2 (.inl (walked.shared isStatic (old owned) knows))
  discovered isDynamic owned := by
    rw [occurs.discovered]
    exact walked.discovered isDynamic (old owned)

theorem mem_stepsFrom {specifier : Specifier} {edge : DependencyEdge} :
    (∃ step ∈ stepsFrom graph specifier, step.val = edge) ↔ edge ∈ graph.dependencies specifier := by
  simpa [stepsFrom, List.mem_attachWith] using target_mem_ends

/-- Adding an occurrence leaves a walk where it is. A first occurrence goes on the path. -/
theorem Walking.occur {path : List (Visit graph)} (walking : Walking base roots path survey)
    (occurs : Occurs survey after parent? target role) (surveys : Surveys base roots after)
    (absent : role.isFirst → survey.analysis.primary.get? target = none) :
    Walking base roots
      (if role.isFirst then ⟨survey.next, target, stepsFrom graph target⟩ :: path else path) after := by
  have visits {visit : Visit graph}
      (member : visit ∈ if role.isFirst then ⟨survey.next, target, stepsFrom graph target⟩ :: path
        else path) :
      role.isFirst = true ∧ visit = ⟨survey.next, target, stepsFrom graph target⟩ ∨ visit ∈ path := by
    split at member
    · next first => exact (List.mem_cons.1 member).imp_left (⟨first, ·⟩)
    · exact .inr member
  have old {visit : Visit graph} (member : visit ∈ path) :
      visit ∈ if role.isFirst then ⟨survey.next, target, stepsFrom graph target⟩ :: path else path := by
    split
    · exact List.mem_cons_of_mem _ member
    · exact member
  refine { surveys with
    onPath := fun visit member => ?_
    pending := fun visit member => ?_
    walked := fun specifier number known edge inside => ?_ }
  · rcases visits member with ⟨first, rfl⟩ | later
    · exact ⟨(occurs.primary _).trans (if_pos ⟨first, rfl⟩), (occurs.mem_owned _).2 (.inr ⟨first, rfl⟩)⟩
    · obtain ⟨known, owned⟩ := walking.onPath visit later
      exact ⟨occurs.owner absent known, (occurs.mem_owned _).2 (.inl owned)⟩
  · rcases visits member with ⟨first, rfl⟩ | later
    · exact fun step inside => mem_stepsFrom.1 ⟨step, inside, rfl⟩
    · exact walking.pending visit later
  · rw [occurs.primary] at known
    split at known
    · next own =>
      obtain ⟨first, rfl⟩ := own
      refine .inr ⟨⟨survey.next, target, stepsFrom graph target⟩, ?_, rfl, mem_stepsFrom.2 inside⟩
      rw [if_pos first]
      exact List.mem_cons_self
    · next other =>
      refine (walking.walked specifier number known edge inside).imp (fun walked => ?_) ?_
      · refine walked.occur occurs fun owned => ((occurs.mem_owned specifier).1 owned).resolve_right ?_
        rintro ⟨first, rfl⟩
        exact other ⟨first, rfl⟩
      · rintro ⟨visit, member, rest⟩
        exact ⟨visit, old member, rest⟩

theorem Walking.advance (inner : List (Visit graph)) {outer : List (Visit graph)} {number : Nat}
    {specifier : Specifier} {step : Step graph} {pending : List (Step graph)}
    (walking : Walking base roots (inner ++ ⟨number, specifier, step :: pending⟩ :: outer) survey)
    (walked : Walked base survey specifier number step.val) :
    Walking base roots (inner ++ ⟨number, specifier, pending⟩ :: outer) survey := by
  have visits {visit : Visit graph} (member : visit ∈ inner ++ ⟨number, specifier, pending⟩ :: outer) :
      visit = ⟨number, specifier, pending⟩ ∨
        visit ∈ inner ++ ⟨number, specifier, step :: pending⟩ :: outer := by
    simp only [List.mem_append, List.mem_cons] at member ⊢
    tauto
  have own : (⟨number, specifier, step :: pending⟩ : Visit graph) ∈
      inner ++ ⟨number, specifier, step :: pending⟩ :: outer := by simp
  refine { walking.toSurveys with
    onPath := fun visit member => ?_
    pending := fun visit member => ?_
    walked := fun other owner known edge inside => ?_ }
  · rcases visits member with rfl | old
    · exact walking.onPath ⟨number, specifier, step :: pending⟩ own
    · exact walking.onPath visit old
  · rcases visits member with rfl | old
    · exact fun next inside => walking.pending _ own next (List.mem_cons_of_mem _ inside)
    · exact walking.pending visit old
  · rcases walking.walked other owner known edge inside with done | ⟨visit, member, rfl, next, waits, rfl⟩
    · exact .inl done
    -- Of what was pending, only the import that was walked is not any more.
    · simp only [List.mem_append, List.mem_cons] at member
      rcases member with inside' | rfl | outside
      · exact .inr ⟨visit, by simp [inside'], rfl, next, waits, rfl⟩
      · rcases List.mem_cons.1 waits with rfl | left
        · obtain rfl := Option.some.inj (known.symm.trans (walking.onPath _ own).1)
          exact .inl walked
        · exact .inr ⟨⟨number, specifier, pending⟩, by simp, rfl, next, left, rfl⟩
      · exact .inr ⟨visit, by simp [outside], rfl, next, waits, rfl⟩

theorem Walking.leave {outer : List (Visit graph)} {number : Nat} {specifier : Specifier}
    (walking : Walking base roots (⟨number, specifier, []⟩ :: outer) survey) :
    Walking base roots outer survey := by
  refine { walking.toSurveys with
    onPath := fun visit member => walking.onPath visit (List.mem_cons_of_mem _ member)
    pending := fun visit member => walking.pending visit (List.mem_cons_of_mem _ member)
    walked := fun other owner known edge inside => ?_ }
  refine (walking.walked other owner known edge inside).imp_right ?_
  rintro ⟨visit, member, rest⟩
  rcases List.mem_cons.1 member with rfl | later
  · obtain ⟨-, step, waits, -⟩ := rest
    cases waits
  · exact ⟨visit, later, rest⟩

theorem Walking.discover {path : List (Visit graph)} (walking : Walking base roots path survey)
    {specifier : Specifier} (owned : specifier ∈ survey.owned) (target : ModuleGraph.Walk.End graph .all)
    (defers : graph.Defers specifier target.val) :
    Walking base roots path (survey.discover target) := by
  refine { walking with
    discovered := fun other member => ?_
    walked := fun other number known edge inside => ?_ }
  · rcases List.mem_cons.1 member with rfl | old
    · exact ⟨specifier, owned, defers⟩
    · exact walking.discovered other old
  · refine (walking.walked other number known edge inside).imp_left fun walked =>
      ⟨walked.lists, walked.shared, fun isDynamic owned => ?_⟩
    obtain ⟨noted, member, same⟩ := walked.discovered isDynamic owned
    exact ⟨noted, List.mem_cons_of_mem _ member, same⟩

theorem Decided.unshared {path : List (Visit graph)} (decided : Decided survey path target role) :
    role ≠ .first true := by
  cases decided with
  | outside unbundled idle =>
    rintro rfl
    cases idle
  | _ => simp

theorem Decided.absent {path : List (Visit graph)} (decided : Decided survey path target role)
    (first : role.isFirst = true) :
    survey.analysis.primary.get? target = none ∧ graph.IsBundled target := by
  cases decided with
  | outside unbundled idle =>
    rw [Analysis.isIncluded_of_isFirst first] at idle
    cases idle
  | first bundled absent => exact ⟨absent, bundled⟩
  | _ => cases first

/-- What occurs again is known, from this entry or from an earlier one; in the second case it is shared. -/
theorem Decided.again {path : List (Visit graph)} (decided : Decided survey path target role)
    (surveys : Surveys base roots survey) (owned : ∀ visit ∈ path, visit.specifier ∈ survey.owned) :
    (role.isIncluded = true → role.isFirst = false → survey.analysis.Knows target) ∧
      (role = .shared → base.Knows target) ∧
      (graph.IsBundled target → base.Knows target → role = .shared) := by
  have apart (member : target ∈ survey.owned) :
      survey.analysis.Knows target ∧ ¬ base.Knows target :=
    ⟨(surveys.known target).2 (.inr member), surveys.apart target member⟩
  cases decided with
  | outside unbundled idle =>
    refine ⟨fun included => ?_, ?_, fun bundled => absurd bundled unbundled⟩
    · rw [idle] at included
      cases included
    · rintro rfl
      cases idle
  | loop bundled onPath =>
    obtain ⟨visit, member, rfl⟩ := onPath
    obtain ⟨knows, fresh⟩ := apart (owned visit member)
    exact ⟨fun _ _ => knows, by simp, fun _ known => absurd known fresh⟩
  | revisit bundled member =>
    obtain ⟨knows, fresh⟩ := apart member
    exact ⟨fun _ _ => knows, by simp, fun _ known => absurd known fresh⟩
  | @shared bundled offPath unowned owner known =>
    have knows : survey.analysis.Knows target := ⟨owner, known⟩
    exact ⟨fun _ _ => knows, fun _ => ((surveys.known target).1 knows).resolve_right unowned,
      fun _ _ => rfl⟩
  | first bundled absent =>
    refine ⟨fun _ notFirst => absurd notFirst (by simp [Role.isFirst]), by simp, fun _ known => ?_⟩
    obtain ⟨owner, known⟩ := (surveys.known target).2 (.inl known)
    cases absent.symm.trans known

/-- One more occurrence of a module that the entry needs. -/
theorem Walking.occurs {path decidedOn : List (Visit graph)} (parent? : Option Nat)
    (walking : Walking base roots path survey)
    (decided : Decided survey decidedOn target role)
    (owned : ∀ visit ∈ decidedOn, visit.specifier ∈ survey.owned)
    (below : ∀ number, parent? = some number → ∃ specifier,
      survey.analysis.primary.get? specifier = some number ∧
        (role.isIncluded = true → graph.Pulls specifier target))
    (needed : role.isIncluded = true → graph.Needs roots target) (isPreloaded : Bool) :
    let after := survey.occur parent? target isPreloaded role
    Occurs survey after parent? target role ∧
      Walking base roots
        (if role.isFirst then ⟨survey.next, target, stepsFrom graph target⟩ :: path else path) after ∧
      (graph.IsBundled target → base.Knows target → after.analysis.isShared target = true) := by
  intro after
  obtain ⟨later, earlier, shares⟩ := decided.again walking.toSurveys owned
  have within : ∀ parent ∈ parent?, parent < survey.next := by
    intro parent isParent
    obtain ⟨specifier, known, -⟩ := below parent isParent
    obtain ⟨node, found, -⟩ := walking.sound.owners specifier parent known
    exact Forest.lt_size_of_get? found
  have occurs : Occurs survey after parent? target role :=
    occur_ok walking.sound within target isPreloaded decided.unshared
      (fun first => (decided.absent first).1) later
  have surveys : Surveys base roots after :=
    walking.toSurveys.occur occurs below needed decided.absent earlier
  exact ⟨occurs, walking.occur occurs surveys fun first => (decided.absent first).1,
    fun bundled known => (occurs.shared target).2 (.inr ⟨shares bundled known, rfl⟩)⟩

theorem Walking.static {outer : List (Visit graph)} {number : Nat} {specifier : Specifier}
    {step : Step graph} {pending : List (Step graph)}
    (walking : Walking base roots (⟨number, specifier, step :: pending⟩ :: outer) survey)
    (isStatic : ¬ step.val.isDynamic = true) (isPreloaded : Bool) :
    let role := survey.roleOf (⟨number, specifier, pending⟩ :: outer) step.val.target
    let after := survey.occur (some number) step.val.target isPreloaded role
    Extends survey.analysis after.analysis ∧
      Walking base roots
        (if role.isFirst then
          ⟨survey.next, step.val.target, stepsFrom graph step.val.target⟩ ::
            ⟨number, specifier, pending⟩ :: outer
        else ⟨number, specifier, pending⟩ :: outer) after := by
  intro role after
  obtain ⟨known, isOwned⟩ := walking.onPath _ List.mem_cons_self
  have inside := walking.pending _ List.mem_cons_self step List.mem_cons_self
  have decided : Decided survey (⟨number, specifier, pending⟩ :: outer) step.val.target role :=
    decided_roleOf survey _ _
  have owned : ∀ visit ∈ (⟨number, specifier, pending⟩ :: outer : List (Visit graph)),
      visit.specifier ∈ survey.owned := by
    intro visit member
    rcases List.mem_cons.1 member with rfl | later
    · exact isOwned
    · exact (walking.onPath visit (List.mem_cons_of_mem _ later)).2
  have pulls (included : role.isIncluded = true) : graph.Pulls specifier step.val.target :=
    ⟨⟨step.val, inside, by simpa using isStatic, rfl⟩, decided.included.1 included⟩
  obtain ⟨occurs, walking', shared⟩ := walking.occurs (some number) decided owned
    (fun _ same => ⟨specifier, Option.some.inj same ▸ known, pulls⟩)
    (fun included => (walking.needed specifier isOwned).pulls (pulls included)) isPreloaded
  have walked : Walked base after specifier number step.val :=
    { lists := fun _ bundled =>
        (occurs.lists _ _).2 (.inr ⟨rfl, rfl, decided.included.2 bundled⟩)
      shared := fun _ _ knows => shared
        (walking.bundled _ ((walking.known _).2 (.inl knows))) knows
      discovered := fun isDynamic => absurd isDynamic isStatic }
  refine ⟨occurs.extend, ?_⟩
  -- The walked import is on top of the path, or below the visit of its target.
  by_cases first : role.isFirst = true
  · rw [if_pos first] at walking' ⊢
    exact Walking.advance [_] walking' walked
  · rw [if_neg first] at walking' ⊢
    exact Walking.advance [] walking' walked

theorem Walking.dynamic {outer : List (Visit graph)} {number : Nat} {specifier : Specifier}
    {step : Step graph} {pending : List (Step graph)}
    (walking : Walking base roots (⟨number, specifier, step :: pending⟩ :: outer) survey)
    (isDynamic : step.val.isDynamic = true) :
    let after := (survey.occur (some number) step.val.target false .dynamic).discover
      ⟨step.val.target, step.property⟩
    Extends survey.analysis after.analysis ∧
      Walking base roots (⟨number, specifier, pending⟩ :: outer) after := by
  intro after
  obtain ⟨known, isOwned⟩ := walking.onPath _ List.mem_cons_self
  have inside := walking.pending _ List.mem_cons_self step List.mem_cons_self
  have occurs : Occurs survey (survey.occur (some number) step.val.target false .dynamic)
      (some number) step.val.target .dynamic := by
    refine occur_ok walking.sound ?_ _ _ (by simp) (by simp [Role.isFirst]) (by simp [Role.isIncluded])
    rintro parent ⟨⟩
    obtain ⟨node, found, -⟩ := walking.sound.owners specifier number known
    exact Forest.lt_size_of_get? found
  have surveys := walking.toSurveys.occur occurs
    (by rintro parent ⟨⟩; exact ⟨specifier, known, by simp [Role.isIncluded]⟩)
    (by simp [Role.isIncluded]) (by simp [Role.isFirst]) (by simp)
  have walking' := walking.occur occurs surveys (by simp [Role.isFirst])
  have isOwned' := (occurs.mem_owned specifier).2 (.inl isOwned)
  refine ⟨occurs.extend, ?_⟩
  have walked : Walked base after specifier number step.val :=
    { lists := fun isStatic => absurd isDynamic (by simp [isStatic])
      shared := fun isStatic => absurd isDynamic (by simp [isStatic])
      discovered := fun _ _ => ⟨_, List.mem_cons_self, rfl⟩ }
  exact Walking.advance [] (walking'.discover isOwned' _ ⟨step.val, inside, isDynamic, rfl⟩)
    walked

theorem Walking.run (isPreloaded : Bool) (survey : Survey graph) (path : List (Visit graph))
    (walking : Walking base roots path survey) :
    Walking base roots [] (run isPreloaded survey path) ∧
      Extends survey.analysis (run isPreloaded survey path).analysis := by
  induction survey, path using run.induct isPreloaded with
  | case1 survey =>
    rw [Survey.run]
    exact ⟨walking, .refl _⟩
  | case2 survey number specifier outer ih =>
    rw [Survey.run]
    exact ih walking.leave
  | case3 survey number specifier edge known pending outer path isDynamic occurred ih =>
    rw [Survey.run, if_pos isDynamic]
    obtain ⟨extend, walking'⟩ := walking.dynamic isDynamic
    exact (ih walking').imp_right extend.trans
  | case4 survey number specifier edge known pending outer path isStatic role occurred first child ih =>
    rw [Survey.run, if_neg isStatic, dif_pos first]
    obtain ⟨extend, walking'⟩ := walking.static isStatic isPreloaded
    rw [if_pos first] at walking'
    exact (ih walking').imp_right extend.trans
  | case5 survey number specifier edge known pending outer path isStatic role occurred later ih =>
    rw [Survey.run, if_neg isStatic, dif_neg later]
    obtain ⟨extend, walking'⟩ := walking.static isStatic isPreloaded
    rw [if_neg later] at walking'
    exact (ih walking').imp_right extend.trans

end Survey

end Bundle

end ModuleBuild
