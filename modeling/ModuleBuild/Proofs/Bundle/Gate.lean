import ModuleBuild.Bundle.Gate
import ModuleBuild.Proofs.Graph.HashLocality
import ModuleBuild.Proofs.Graph.Reach
/-!
The gate before a bundle is exact. The walks from the entries share what they have met, and together
meet everything that imports of either kind lead to. A module without a record is never rejected where
it is met, but each such module that no entry names has an importer that is checked.
-/

namespace ModuleBuild

open Relation

namespace ModuleGraph

/-- A module that may go into a bundle: left alone, or compiled and up to date. -/
def IsShippable (graph : ModuleGraph) (specifier : Specifier) : Prop :=
  ∃ record, graph.get? specifier = some record ∧
    (record.isExternal ∨ record.state = .ready ∧ graph.isCurrent record)

theorem follows_all (graph : ModuleGraph) (importer target : Specifier) :
    graph.Follows .all importer target ↔ graph.Imports importer target :=
  List.mem_map

end ModuleGraph

namespace Bundle

open ModuleGraph

variable {graph : ModuleGraph}

/-! ## What the walks meet -/

def gathering : Visitor (List (Specifier × Option ModuleRecord)) where
  enter met record? _ found := ((met, record?) :: found, .continue)

/-- Walks on from each of some modules, except where earlier walks led. -/
def walkFrom (graph : ModuleGraph) (modules : List Specifier)
    (start : List Specifier × List (Specifier × Option ModuleRecord)) :
    List Specifier × List (Specifier × Option ModuleRecord) :=
  modules.foldl (fun (traced, found) specifier =>
    let result := graph.walk specifier .all traced gathering found
    (result.traced, result.state)) start

theorem reachedFrom_eq (graph : ModuleGraph) (modules : List Specifier) :
    reachedFrom graph modules = (walkFrom graph modules ([], [])).2.reverse :=
  rfl

/-- What was met and gathered by walks from some roots: all that imports lead to, with the records. -/
structure Gathered (graph : ModuleGraph) (roots traced : List Specifier)
    (found : List (Specifier × Option ModuleRecord)) : Prop where
  listed : ∀ specifier record?,
    (specifier, record?) ∈ found ↔ specifier ∈ traced ∧ record? = graph.get? specifier
  reached : ∀ specifier ∈ traced, ∃ root ∈ roots, ReflTransGen graph.Imports root specifier
  started : ∀ root ∈ roots, root ∈ traced
  closed : ∀ specifier ∈ traced, ∀ target, graph.Imports specifier target → target ∈ traced

theorem listed_cons {specifier : Specifier} {traced : List Specifier}
    {found : List (Specifier × Option ModuleRecord)}
    (listed : ∀ other record?,
      (other, record?) ∈ found ↔ other ∈ traced ∧ record? = graph.get? other)
    (other : Specifier) (record? : Option ModuleRecord) :
    (other, record?) ∈ (specifier, graph.get? specifier) :: found ↔
      other ∈ specifier :: traced ∧ record? = graph.get? other := by
  rw [List.mem_cons, List.mem_cons, Prod.mk.injEq, listed]
  constructor
  · rintro (⟨rfl, rfl⟩ | ⟨old, same⟩)
    · exact ⟨.inl rfl, rfl⟩
    · exact ⟨.inr old, same⟩
  · rintro ⟨rfl | old, same⟩
    · exact .inl ⟨rfl, same⟩
    · exact .inr ⟨old, same⟩

theorem Gathered.walk {roots traced : List Specifier}
    {found : List (Specifier × Option ModuleRecord)} (gathered : Gathered graph roots traced found)
    (root : Specifier) :
    let result := graph.walk root .all traced gathering found
    Gathered graph (roots ++ [root]) result.traced result.state := by
  by_cases met : root ∈ traced
  · -- an earlier walk led here, and on to everything below
    simp only [ModuleGraph.walk, if_pos met]
    refine
      { gathered with
        reached := fun specifier member => ?_
        started := fun other member => ?_ }
    · obtain ⟨earlier, inside, leads⟩ := gathered.reached specifier member
      exact ⟨earlier, List.mem_append_left _ inside, leads⟩
    · rcases List.mem_append.1 member with old | new
      · exact gathered.started other old
      · exact List.mem_singleton.1 new ▸ met
  · simp only [ModuleGraph.walk, if_neg met, gathering]
    -- what is met stays below the roots; that it is closed under imports follows from what is still to come
    let within (specifier : Specifier) : Prop :=
      ∃ start ∈ roots ++ [root], ReflTransGen graph.Imports start specifier
    have spreads (specifier child : Specifier) (inside : within specifier)
        (follows : graph.Follows .all specifier child) : within child := by
      obtain ⟨start, member, leads⟩ := inside
      exact ⟨start, member, leads.tail ((graph.follows_all _ _).1 follows)⟩
    have own : within root := ⟨root, by simp, .refl⟩
    have reached (specifier : Specifier) (member : specifier ∈ root :: traced) :
        within specifier := by
      rcases List.mem_cons.1 member with rfl | old
      · exact own
      · obtain ⟨start, inside, leads⟩ := gathered.reached specifier old
        exact ⟨start, List.mem_append_left _ inside, leads⟩
    obtain ⟨listed, reached⟩ := @Walk.run_induction _ graph .all gathering
      (fun traced found =>
        (∀ other record?,
          (other, record?) ∈ found ↔ other ∈ traced ∧ record? = graph.get? other) ∧
        ∀ specifier ∈ traced, within specifier)
      within spreads
      (fun met depth traced found inside _ _ kept =>
        ⟨listed_cons kept.1, List.forall_mem_cons.2 ⟨inside, kept.2⟩⟩)
      (fun _ _ _ kept => kept) (fun _ _ _ _ _ kept => kept)
      [Walk.frame graph .all root] (root :: traced) ((root, graph.get? root) :: found)
      (by
        intro frame member next waits
        rw [List.mem_singleton.1 member] at waits
        exact spreads _ _ own (Walk.mem_frame.1 waits))
      ⟨listed_cons gathered.listed, reached⟩
    have covered : Walk.Covered (fun _ => False) [Walk.frame graph .all root] (root :: traced) := by
      refine Walk.covered_frame fun other member _ child follows => .inl ?_
      exact List.mem_cons_of_mem _
        (gathered.closed other member child ((graph.follows_all _ _).1 follows))
    obtain ⟨closed, kept⟩ := Walk.run_closed gathering (by simp [gathering]) (by simp [gathering])
      _ _ ((root, graph.get? root) :: found) covered
    refine ⟨listed, reached, fun other member => kept other ?_, fun specifier member target imports =>
      closed specifier member not_false target ((graph.follows_all _ _).2 imports)⟩
    rcases List.mem_append.1 member with old | new
    · exact List.mem_cons_of_mem _ (gathered.started other old)
    · exact List.mem_singleton.1 new ▸ List.mem_cons_self

theorem Gathered.walkFrom {traced : List Specifier}
    {found : List (Specifier × Option ModuleRecord)} (modules : List Specifier)
    {roots : List Specifier} (gathered : Gathered graph roots traced found) :
    let result := walkFrom graph modules (traced, found)
    Gathered graph (roots ++ modules) result.1 result.2 := by
  induction modules generalizing roots traced found with
  | nil => simpa [Bundle.walkFrom] using gathered
  | cons specifier rest ih =>
    rw [List.append_cons]
    exact ih (gathered.walk specifier)

theorem mem_reachedFrom (graph : ModuleGraph) (modules : List Specifier) (specifier : Specifier)
    (record? : Option ModuleRecord) :
    (specifier, record?) ∈ reachedFrom graph modules ↔
      (∃ root ∈ modules, ReflTransGen graph.Imports root specifier) ∧
        record? = graph.get? specifier := by
  have nothing : Gathered graph [] [] [] := ⟨by simp, by simp, by simp, by simp⟩
  have gathered := nothing.walkFrom modules
  rw [List.nil_append] at gathered
  rw [reachedFrom_eq, List.mem_reverse, gathered.listed, and_congr_left_iff]
  rintro -
  constructor
  · exact gathered.reached specifier
  · rintro ⟨root, member, leads⟩
    induction leads with
    | refl => exact gathered.started root member
    | tail _ imports met => exact gathered.closed _ met _ imports

/-! ## What is let through -/

/-- A module without a record passes by itself unless an entry names it; its importers do not. -/
theorem fault?_eq_none_iff (graph : ModuleGraph) (modules : List Specifier) (specifier : Specifier) :
    fault? graph modules specifier (graph.get? specifier) = none ↔
      match graph.get? specifier with
      | none => specifier ∉ modules
      | some record =>
        record.isExternal ∨
          record.state = .ready ∧ graph.isCurrent record ∧
            ∀ edge ∈ record.dependencies, graph.contains edge.target := by
  unfold fault?
  cases graph.get? specifier with
  | none => simp
  | some record =>
    cases isExternal : record.isExternal with
    | true => simp [isExternal]
    | false =>
      cases compiled : record.state with
      | errored reason => simp [isExternal, compiled]
      | pending => simp [isExternal, compiled]
      | ready => cases current : graph.isCurrent record <;> simp [isExternal, compiled, current]

theorem check_eq_ok (graph : ModuleGraph) (entries : List EntryPoint) :
    check graph entries = .ok () ↔
      ∀ root ∈ entries.flatMap (·.modules), ∀ specifier,
        ReflTransGen graph.Imports root specifier →
          fault? graph (entries.flatMap (·.modules)) specifier (graph.get? specifier) = none := by
  have passes : check graph entries = .ok () ↔
      ∀ met ∈ reachedFrom graph (entries.flatMap (·.modules)),
        fault? graph (entries.flatMap (·.modules)) met.1 met.2 = none := by
    rw [← List.findSome?_eq_none_iff, check]
    split <;> simp_all
  rw [passes]
  constructor
  · intro clear root member specifier leads
    exact clear (specifier, graph.get? specifier)
      ((mem_reachedFrom _ _ _ _).2 ⟨⟨root, member, leads⟩, rfl⟩)
  · rintro clear ⟨specifier, record?⟩ member
    obtain ⟨⟨root, inside, leads⟩, rfl⟩ := (mem_reachedFrom _ _ _ _).1 member
    exact clear root inside specifier leads

/-- The gate is exact: it passes if and only if everything that imports of either kind lead to from the
entries is left alone, or compiled and up to date. -/
theorem check_eq_ok_iff_shippable (graph : ModuleGraph) (entries : List EntryPoint)
    (bare : ∀ record ∈ graph.modules, record.isExternal → record.dependencies = []) :
    check graph entries = .ok () ↔
      ∀ entry ∈ entries, ∀ root ∈ entry.modules, ∀ specifier,
        ReflTransGen graph.Imports root specifier → graph.IsShippable specifier := by
  rw [check_eq_ok]
  constructor
  · intro clear entry listed root named specifier leads
    have member : root ∈ entries.flatMap (·.modules) :=
      List.mem_flatMap.2 ⟨entry, listed, named⟩
    have own := (fault?_eq_none_iff _ _ _).1 (clear root member specifier leads)
    cases found : graph.get? specifier with
    | some record =>
      rw [found] at own
      exact ⟨record, found, own.imp_right fun ready => ⟨ready.1, ready.2.1⟩⟩
    | none =>
      rw [found] at own
      -- no entry names it, so an importer was met, and that importer has a record
      cases leads with
      | refl => exact absurd member own
      | @tail importer _ before imports =>
        obtain ⟨record, there⟩ := imports.get?
        obtain ⟨edge, written, rfl⟩ := imports
        rw [dependencies_of_get? there] at written
        have above := (fault?_eq_none_iff _ _ _).1 (clear root member importer before)
        rw [there] at above
        rcases above with isExternal | ⟨-, -, complete⟩
        · rw [bare record (mem_modules_of_get? there) isExternal] at written
          exact absurd written List.not_mem_nil
        · have known := complete edge written
          rw [contains_eq, found] at known
          exact absurd known (by simp)
  · intro shippable root member specifier leads
    obtain ⟨entry, listed, named⟩ := List.mem_flatMap.1 member
    obtain ⟨record, found, fine⟩ := shippable entry listed root named specifier leads
    rw [fault?_eq_none_iff, found]
    refine fine.imp_right fun ready => ⟨ready.1, ready.2, fun edge written => ?_⟩
    have imports : graph.Imports specifier edge.target :=
      ⟨edge, dependencies_of_get? found ▸ written, rfl⟩
    obtain ⟨target, there, -⟩ :=
      shippable entry listed root named edge.target (leads.tail imports)
    simp [contains_eq, there]

/-! ## A page -/

/-- A page loads a part when it is asked for; the part imports the page, and leaves a library alone. -/
def page : ModuleGraph :=
  ModuleGraph.empty
    |>.insert
      { specifier := ⟨"/page.js"⟩
        sourceHash := "page"
        contentHash := "page"
        dependencies := [{ target := ⟨"/part.js"⟩, isDynamic := true }]
        state := .ready }
    |>.insert
      { specifier := ⟨"/part.js"⟩
        sourceHash := "part"
        contentHash := foldHashes "part" ["page"]
        dependencies := [{ target := ⟨"/page.js"⟩ }, { target := ⟨"library"⟩, isDynamic := true }]
        state := .ready }
    |>.insert (.external ⟨"library"⟩)

theorem isShippable_page {specifier : Specifier}
    (leads : ReflTransGen page.Imports ⟨"/page.js"⟩ specifier) : page.IsShippable specifier := by
  have page_view : page.foldView? ⟨"/page.js"⟩ = some ("page", []) := rfl
  have part_view : page.foldView? ⟨"/part.js"⟩ = some ("part", [⟨"/page.js"⟩]) := rfl
  have closed : ∀ importer ∈ page.specifiers, ∀ edge ∈ page.dependencies importer,
      edge.target ∈ page.specifiers := by decide
  have inside : specifier ∈ page.specifiers := by
    induction leads with
    | refl => decide
    | tail _ imports member =>
      obtain ⟨edge, written, rfl⟩ := imports
      exact closed _ member edge written
  have names : page.specifiers = [⟨"/page.js"⟩, ⟨"/part.js"⟩, ⟨"library"⟩] := rfl
  rw [names] at inside
  simp only [List.mem_cons, List.not_mem_nil, or_false] at inside
  rcases inside with rfl | rfl | rfl
  · refine ⟨_, rfl, .inr ⟨rfl, ?_⟩⟩
    rw [isCurrent, contentHash?_of_leaf page_view]
    rfl
  · refine ⟨_, rfl, .inr ⟨rfl, ?_⟩⟩
    rw [isCurrent, contentHash?_over_leaf part_view page_view (by decide)]
    exact beq_self_eq_true _
  · exact ⟨_, rfl, .inl rfl⟩

/-- The page is let through as it stands, but not once the part that it may load is gone. -/
theorem check_eq_ok_iff_shippable_page :
    let entries : List EntryPoint := [{ name := "main", modules := [⟨"/page.js"⟩] }]
    check page entries = .ok () ∧ check (page.erase ⟨"/part.js"⟩).1 entries ≠ .ok () := by
  intro entries
  constructor
  · refine (check_eq_ok_iff_shippable page entries (by decide)).2 ?_
    intro entry listed root named specifier leads
    rw [List.mem_singleton.1 listed] at named
    rw [List.mem_singleton.1 named] at leads
    exact isShippable_page leads
  · rw [Ne, check_eq_ok_iff_shippable _ entries (by decide)]
    intro shippable
    obtain ⟨record, found, -⟩ :=
      shippable _ (List.mem_singleton_self _) ⟨"/page.js"⟩ (List.mem_singleton_self _) ⟨"/part.js"⟩
        (.single ⟨{ target := ⟨"/part.js"⟩, isDynamic := true }, by decide, rfl⟩)
    rw [get?_erase, if_pos rfl] at found
    cases found

end Bundle

end ModuleBuild
