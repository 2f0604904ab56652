import ModuleBuild.Proofs.Bundle.Walks
import Mathlib.Data.List.Forall2
/-!
What the walk over one entry adds to what is known from earlier ones. The order in which modules are met
does not show: the entry takes in what it needs, and below the modules that get shared lies all that it needs
and an earlier entry needs too.
-/

namespace ModuleBuild.Bundle

open ModuleGraph Relation Survey

variable {graph : ModuleGraph} {base : Analysis} {roots : List Specifier} {survey : Survey graph}

/-- The forest mirrors the imports of all modules that have an occurrence as code. -/
structure Analysis.Mirrors (graph : ModuleGraph) (analysis : Analysis) : Prop where
  sound : analysis.Sound
  bundled : ∀ specifier, analysis.Knows specifier → graph.IsBundled specifier
  lists : ∀ specifier number target, analysis.primary.get? specifier = some number →
    (analysis.forest.Lists number target ↔ graph.Pulls specifier target)

theorem Analysis.mirrors_empty (graph : ModuleGraph) : Analysis.Mirrors graph {} where
  sound := Analysis.sound_empty
  bundled specifier := by
    rintro ⟨owner, known⟩
    cases known
  lists specifier number target known := by cases known

theorem Analysis.Mirrors.knows_of_pulls {analysis : Analysis} (mirrors : analysis.Mirrors graph)
    {specifier target : Specifier} (known : analysis.Knows specifier)
    (pulls : graph.Pulls specifier target) : analysis.Knows target := by
  obtain ⟨number, owner⟩ := known
  exact mirrors.sound.knows_of_lists ((mirrors.lists specifier number target owner).2 pulls)

/-- A node stands for a module, as code if it has any. -/
def Forest.StandsFor (graph : ModuleGraph) (forest : Forest) (number : Nat) (specifier : Specifier) : Prop :=
  ∃ included, forest.label? number = some (specifier, included) ∧
    (included = true ↔ graph.IsBundled specifier)

namespace Survey

theorem walking_start (mirrors : base.Mirrors graph) :
    Walking base [] [] ({ analysis := base } : Survey graph) where
  sound := mirrors.sound
  extend := .refl base
  entries := rfl
  known specifier := by simp
  apart specifier owned := by cases owned
  bundled := mirrors.bundled
  needed specifier owned := by cases owned
  lists specifier number target known := (mirrors.lists specifier number target known).1
  shared specifier := .inl
  discovered target member := by cases member
  onPath visit member := by cases member
  pending visit member := by cases member
  walked specifier number known edge inside := by
    left
    refine ⟨fun isStatic bundled => ?_, fun _ owned => absurd owned List.not_mem_nil,
      fun _ owned => absurd owned List.not_mem_nil⟩
    exact (mirrors.lists specifier number edge.target known).2 ⟨⟨edge, inside, isStatic, rfl⟩, bundled⟩

theorem Walking.mono {more : List Specifier} {path : List (Visit graph)}
    (walking : Walking base roots path survey) (subset : ∀ root ∈ roots, root ∈ more) :
    Walking base more path survey :=
  { walking with
    needed := fun specifier owned => (walking.needed specifier owned).mono subset
    shared := fun specifier shared =>
      (walking.shared specifier shared).imp_right (.imp_right (·.mono subset)) }

theorem Walking.mirrors (walking : Walking base roots [] survey) : survey.analysis.Mirrors graph where
  sound := walking.sound
  bundled := walking.bundled
  lists specifier number target known := by
    refine ⟨walking.lists specifier number target known, ?_⟩
    rintro ⟨⟨edge, inside, isStatic, rfl⟩, bundled⟩
    rcases walking.walked specifier number known edge inside with walked | ⟨visit, none, -⟩
    · exact walked.lists isStatic bundled
    · cases none

/-- A module that an entry starts from is known after its walk, and shared if it was known before. -/
def Started (graph : ModuleGraph) (base after : Analysis) (root : Specifier) : Prop :=
  graph.IsBundled root → after.Knows root ∧ (base.Knows root → after.isShared root = true)

theorem Started.extends {first second : Analysis} {root : Specifier} (started : Started graph base first root)
    (extend : Extends first second) : Started graph base second root := by
  intro bundled
  obtain ⟨known, shared⟩ := started bundled
  exact ⟨extend.knows root known, fun earlier => extend.shared root (shared earlier)⟩

theorem Walking.visitRoot (walking : Walking base roots [] survey) (isPreloaded : Bool)
    (target : Specifier) :
    let (number, after) := visitRoot isPreloaded survey target
    Walking base (roots ++ [target]) [] after ∧ Extends survey.analysis after.analysis ∧
      after.analysis.forest.StandsFor graph number target ∧ Started graph base after.analysis target := by
  have decided := decided_roleOf survey [] target
  obtain ⟨occurs, walking', shared⟩ :=
    (walking.mono (fun _ => List.mem_append_left [target])).occurs none decided (by simp) (by simp)
      (fun included => .root (by simp) (decided.included.1 included)) isPreloaded
  obtain ⟨done, extend⟩ := walking'.run isPreloaded
  have whole := occurs.extend.trans extend
  refine ⟨done, whole, ⟨_, extend.kept _ _ occurs.label, decided.included⟩, fun bundled => ⟨?_, ?_⟩⟩
  · rw [← decided.included] at bundled
    have label := occurs.label
    rw [bundled] at label
    exact extend.knows target (occurs.sound.knows_of_label label)
  · exact fun known => extend.shared target (shared bundled known)

def visitRoots (isPreloaded : Bool) (state : List Nat × Survey graph) (modules : List Specifier) :
    List Nat × Survey graph :=
  modules.foldl (fun (roots, survey) specifier =>
    let (number, survey) := visitRoot isPreloaded survey specifier
    (roots ++ [number], survey)) state

theorem visitRoots_cons (isPreloaded : Bool) (numbers : List Nat) (survey : Survey graph)
    (specifier : Specifier) (modules : List Specifier) :
    visitRoots isPreloaded (numbers, survey) (specifier :: modules) =
      visitRoots isPreloaded (numbers ++ [(visitRoot isPreloaded survey specifier).1],
        (visitRoot isPreloaded survey specifier).2) modules :=
  rfl

theorem visitEntry_eq (graph : ModuleGraph) (analysis : Analysis) (entry : EntryPoint) (kind : EntryKind) :
    visitEntry graph analysis entry kind =
      let (roots, survey) := visitRoots entry.isPreloaded ([], ({ analysis } : Survey graph)) entry.modules
      ({ survey.analysis with
          entries := survey.analysis.entries ++
            [{ name := entry.name, kind, isPreloaded := entry.isPreloaded, roots }] },
        survey.discovered.reverse) :=
  rfl

theorem Walking.visitRoots (isPreloaded : Bool) (modules : List Specifier)
    (walking : Walking base roots [] survey) (numbers : List Nat)
    (stand : List.Forall₂ (survey.analysis.forest.StandsFor graph) numbers roots)
    (started : ∀ root ∈ roots, Started graph base survey.analysis root) :
    let (numbers', after) := Survey.visitRoots isPreloaded (numbers, survey) modules
    Walking base (roots ++ modules) [] after ∧
      List.Forall₂ (after.analysis.forest.StandsFor graph) numbers' (roots ++ modules) ∧
      ∀ root ∈ roots ++ modules, Started graph base after.analysis root := by
  induction modules generalizing roots numbers survey with
  | nil =>
    rw [List.append_nil]
    exact ⟨walking, stand, started⟩
  | cons specifier modules ih =>
    have step := walking.visitRoot isPreloaded specifier
    rw [visitRoots_cons]
    generalize Survey.visitRoot isPreloaded survey specifier = result at step ⊢
    obtain ⟨number, middle⟩ := result
    obtain ⟨walking', extend, stands, begun⟩ := step
    have stand' : List.Forall₂ (middle.analysis.forest.StandsFor graph) (numbers ++ [number])
        (roots ++ [specifier]) := by
      refine List.rel_append (stand.imp ?_) (.cons stands .nil)
      rintro other root ⟨included, label, isIncluded⟩
      exact ⟨included, extend.kept other _ label, isIncluded⟩
    have rest := ih walking' (numbers ++ [number]) stand' (by
      intro root member
      rcases List.mem_append.1 member with old | new
      · exact (started root old).extends extend
      · rwa [List.mem_singleton.1 new])
    rw [List.append_assoc] at rest
    exact rest

end Survey

def Analysis.SharesBelow (graph : ModuleGraph) (analysis : Analysis) (specifier : Specifier) : Prop :=
  ∃ top, analysis.isShared top = true ∧ ReflTransGen graph.Pulls top specifier

structure Entered (graph : ModuleGraph) (base after : Analysis) (entry : EntryPoint) (kind : EntryKind)
    (discovered : List (ModuleGraph.Walk.End graph .all)) : Prop where
  mirrors : after.Mirrors graph
  extend : Extends base after
  knows : ∀ specifier, after.Knows specifier ↔ base.Knows specifier ∨ graph.Needs entry.modules specifier
  shares : ∀ specifier, after.SharesBelow graph specifier ↔
    base.SharesBelow graph specifier ∨ base.Knows specifier ∧ graph.Needs entry.modules specifier
  discovered : ∀ target, (∃ found ∈ discovered, found.val = target) ↔
    ∃ specifier, ¬ base.Knows specifier ∧ graph.Needs entry.modules specifier ∧
      graph.Defers specifier target
  entries : ∃ roots, after.entries = base.entries ++
      [{ name := entry.name, kind, isPreloaded := entry.isPreloaded, roots }] ∧
    List.Forall₂ (after.forest.StandsFor graph) roots entry.modules

namespace Survey

variable (walking : Walking base roots [] survey)
  (started : ∀ root ∈ roots, Started graph base survey.analysis root)

include walking started

theorem Walking.knows_iff (specifier : Specifier) :
    survey.analysis.Knows specifier ↔ base.Knows specifier ∨ graph.Needs roots specifier := by
  rw [walking.known]
  constructor
  · exact Or.imp_right (walking.needed specifier)
  · rintro (known | ⟨root, member, bundled, leads⟩)
    · exact .inl known
    · rw [← walking.known]
      induction leads with
      | refl => exact (started root member bundled).1
      | tail _ pulls ih => exact walking.mirrors.knows_of_pulls ih pulls

/-- On the way from the start of an entry to a module that was known before it, the first module that was
known before gets shared. -/
theorem Walking.sharesBelow {specifier : Specifier} (known : base.Knows specifier)
    (needs : graph.Needs roots specifier) : survey.analysis.SharesBelow graph specifier := by
  obtain ⟨root, member, bundled, leads⟩ := needs
  have along : survey.analysis.SharesBelow graph specifier ∨
      ¬ base.Knows specifier ∧ survey.analysis.Knows specifier := by
    clear known
    induction leads with
    | refl =>
      obtain ⟨knows, shared⟩ := started root member bundled
      by_cases earlier : base.Knows root
      · exact .inl ⟨root, shared earlier, .refl⟩
      · exact .inr ⟨earlier, knows⟩
    | @tail middle next _ pulls ih =>
      rcases ih with ⟨top, shared, below⟩ | ⟨fresh, knows⟩
      · exact .inl ⟨top, shared, below.tail pulls⟩
      by_cases earlier : base.Knows next
      -- here the way leaves what is new in this entry, and the walk shared the module
      · obtain ⟨number, owner⟩ := knows
        have owned := ((walking.known middle).1 ⟨number, owner⟩).resolve_left fresh
        obtain ⟨⟨edge, inside, isStatic, rfl⟩, -⟩ := pulls
        rcases walking.walked middle number owner edge inside with walked | ⟨visit, none, -⟩
        · exact .inl ⟨_, walked.shared isStatic owned earlier, .refl⟩
        · cases none
      · exact .inr ⟨earlier, walking.mirrors.knows_of_pulls knows pulls⟩
  exact along.resolve_right fun ⟨fresh, _⟩ => fresh known

theorem Walking.sharesBelow_iff (mirrors : base.Mirrors graph) (specifier : Specifier) :
    survey.analysis.SharesBelow graph specifier ↔
      base.SharesBelow graph specifier ∨ base.Knows specifier ∧ graph.Needs roots specifier := by
  constructor
  · rintro ⟨top, shared, below⟩
    rcases walking.shared top shared with earlier | known
    · exact .inl ⟨top, earlier, below⟩
    · right
      induction below with
      | refl => exact known
      | tail _ pulls ih => exact ⟨mirrors.knows_of_pulls ih.1 pulls, ih.2.pulls pulls⟩
  · rintro (⟨top, shared, below⟩ | ⟨known, needs⟩)
    · exact ⟨top, walking.extend.shared top shared, below⟩
    · exact walking.sharesBelow started known needs

theorem Walking.discovered_iff (target : Specifier) :
    (∃ found ∈ survey.discovered, found.val = target) ↔
      ∃ specifier, ¬ base.Knows specifier ∧ graph.Needs roots specifier ∧
        graph.Defers specifier target := by
  constructor
  · rintro ⟨found, member, rfl⟩
    obtain ⟨specifier, owned, defers⟩ := walking.discovered found member
    exact ⟨specifier, walking.apart specifier owned, walking.needed specifier owned, defers⟩
  · rintro ⟨specifier, fresh, needs, edge, inside, isDynamic, rfl⟩
    obtain ⟨number, owner⟩ := (walking.knows_iff started specifier).2 (.inr needs)
    have owned := ((walking.known specifier).1 ⟨number, owner⟩).resolve_left fresh
    rcases walking.walked specifier number owner edge inside with walked | ⟨visit, none, -⟩
    · exact walked.discovered isDynamic owned
    · cases none

omit walking started

theorem visitEntry_ok (mirrors : base.Mirrors graph) (entry : EntryPoint) (kind : EntryKind) :
    let (after, discovered) := visitEntry graph base entry kind
    Entered graph base after entry kind discovered := by
  have walked := (walking_start mirrors).visitRoots entry.isPreloaded entry.modules [] .nil (by simp)
  rw [visitEntry_eq]
  generalize Survey.visitRoots entry.isPreloaded ([], ({ analysis := base } : Survey graph))
    entry.modules = result at walked ⊢
  obtain ⟨numbers, survey⟩ := result
  obtain ⟨walking, stand, started⟩ := walked
  rw [List.nil_append] at walking stand started
  obtain ⟨sound, bundled, lists⟩ := walking.mirrors
  refine
    { mirrors := ⟨⟨sound.owners, sound.first, sound.included, sound.shared⟩, bundled, lists⟩
      extend := ⟨walking.extend.kept, walking.extend.knows, walking.extend.shared⟩
      knows := walking.knows_iff started
      shares := walking.sharesBelow_iff started mirrors
      discovered := fun target => ?_
      entries := ⟨numbers, by rw [walking.entries], stand⟩ }
  simpa using walking.discovered_iff started target

end Survey

end ModuleBuild.Bundle
