import ModuleBuild.Graph.Basic
import Mathlib.Logic.Relation
import Mathlib.Tactic.ByContra
import Mathlib.Tactic.Tauto
/-!
What the changes of a module graph do to its records, and that the importers it keeps are always
those that the records tell.
-/

namespace ModuleBuild.ModuleGraph

/-! ## Records after a change -/

theorem contains_eq (graph : ModuleGraph) (specifier : Specifier) :
    graph.contains specifier = (graph.get? specifier).isSome := rfl

theorem get?_insert (graph : ModuleGraph) (record : ModuleRecord) (other : Specifier) :
    (graph.insert record).get? other =
      if record.specifier = other then some record else graph.get? other :=
  OrderedMap.get?_insert graph.records record.specifier other record

theorem getOrCreate_eq (graph : ModuleGraph) (specifier : Specifier) :
    graph.getOrCreate specifier =
      (graph.mention specifier, (graph.get? specifier).getD (.awaiting specifier),
        (graph.get? specifier).isNone) := by
  unfold mention getOrCreate
  cases graph.get? specifier <;> rfl

theorem get?_mention (graph : ModuleGraph) (specifier other : Specifier) :
    (graph.mention specifier).get? other =
      if specifier = other then some ((graph.get? specifier).getD (.awaiting specifier))
      else graph.get? other := by
  unfold mention getOrCreate
  cases found : graph.get? specifier with
  | none => exact OrderedMap.get?_insert graph.records specifier other _
  | some record =>
    by_cases same : specifier = other
    · subst same
      simp [found]
    · simp [same]

theorem mention_of_get? {graph : ModuleGraph} {specifier : Specifier} {record : ModuleRecord}
    (found : graph.get? specifier = some record) : graph.mention specifier = graph := by
  simp [mention, getOrCreate, found]

theorem update_of_get? {graph : ModuleGraph} {specifier : Specifier} {record : ModuleRecord}
    (change : ModuleRecord → ModuleRecord) (found : graph.get? specifier = some record) :
    graph.update specifier change = .ok (graph.modify specifier change, change record) := by
  simp [modify, update, found]

theorem modify_of_get?_eq_none {graph : ModuleGraph} {specifier : Specifier}
    (change : ModuleRecord → ModuleRecord) (absent : graph.get? specifier = none) :
    graph.modify specifier change = graph := by
  simp [modify, update, absent]

theorem get?_modify (graph : ModuleGraph) (specifier other : Specifier)
    (change : ModuleRecord → ModuleRecord) :
    (graph.modify specifier change).get? other =
      if specifier = other then (graph.get? specifier).map change else graph.get? other := by
  cases found : graph.get? specifier with
  | none =>
    rw [modify_of_get?_eq_none change found]
    split
    · next same => rw [← same, found, Option.map_none]
    · rfl
  | some record =>
    simp only [modify, update, found, Option.map_some]
    exact OrderedMap.get?_insert graph.records specifier other _

theorem get?_erase (graph : ModuleGraph) (specifier other : Specifier) :
    (graph.erase specifier).1.get? other =
      if specifier = other then none else graph.get? other := by
  cases found : graph.get? specifier with
  | none =>
    simp only [erase, found]
    split
    · next same => rw [← same, found]
    · rfl
  | some record =>
    simp only [erase, found]
    exact OrderedMap.get?_erase graph.records specifier other

theorem get?_of_get?_erase {graph : ModuleGraph} {changed other : Specifier}
    {record : ModuleRecord} (there : (graph.erase changed).1.get? other = some record) :
    other ≠ changed ∧ graph.get? other = some record := by
  rw [get?_erase] at there
  split at there
  · cases there
  · next differ => exact ⟨Ne.symm differ, there⟩

theorem erase_snd (graph : ModuleGraph) (specifier : Specifier) :
    (graph.erase specifier).2 = graph.get? specifier := by
  unfold erase
  cases found : graph.get? specifier <;> rfl

/-! ## Importers -/

/-- A module has an edge to another. -/
def Imports (graph : ModuleGraph) (importer target : Specifier) : Prop :=
  ∃ edge ∈ graph.dependencies importer, edge.target = target

theorem dependencies_of_get? {graph : ModuleGraph} {specifier : Specifier} {record : ModuleRecord}
    (found : graph.get? specifier = some record) :
    graph.dependencies specifier = record.dependencies := by
  simp [dependencies, found]

theorem dependencies_of_get?_eq_none {graph : ModuleGraph} {specifier : Specifier}
    (absent : graph.get? specifier = none) : graph.dependencies specifier = [] := by
  simp [dependencies, absent]

theorem dependencies_congr {first second : ModuleGraph} {specifier : Specifier}
    (same : first.get? specifier = second.get? specifier) :
    first.dependencies specifier = second.dependencies specifier := by
  simp [dependencies, same]

theorem imports_congr {first second : ModuleGraph} {importer : Specifier} (target : Specifier)
    (same : first.dependencies importer = second.dependencies importer) :
    first.Imports importer target ↔ second.Imports importer target := by
  rw [Imports, Imports, same]

theorem Imports.get? {graph : ModuleGraph} {importer target : Specifier}
    (imports : graph.Imports importer target) : ∃ record, graph.get? importer = some record := by
  obtain ⟨edge, member, -⟩ := imports
  cases found : graph.get? importer with
  | none => simp [dependencies_of_get?_eq_none found] at member
  | some record => exact ⟨record, rfl⟩

/-- Records stand under their own names, and the importers of a module are those with an edge to it.
-/
structure Indexed (graph : ModuleGraph) : Prop where
  keyed : ∀ {specifier record}, graph.get? specifier = some record → record.specifier = specifier
  linked : ∀ importer target, importer ∈ graph.importersOf target ↔ graph.Imports importer target

theorem mem_dependents {graph : ModuleGraph} (indexed : graph.Indexed)
    {importer target : Specifier} :
    importer ∈ graph.dependents target ↔ graph.Imports importer target := by
  rw [dependents, List.mem_mergeSort]
  exact indexed.linked importer target

theorem record_or_importer {graph : ModuleGraph} (indexed : graph.Indexed) {specifier : Specifier}
    (known : ¬ ((graph.get? specifier).isNone && (graph.dependents specifier).isEmpty) = true) :
    (∃ record, graph.get? specifier = some record) ∨
      ∃ importer record, graph.get? importer = some record ∧
        ∃ edge ∈ record.dependencies, edge.target = specifier := by
  cases found : graph.get? specifier with
  | some record => exact .inl ⟨record, rfl⟩
  | none =>
    simp only [found, Option.isNone_none, Bool.true_and, List.isEmpty_iff] at known
    obtain ⟨importer, member⟩ := List.exists_mem_of_ne_nil _ known
    have imports := (mem_dependents indexed).1 member
    obtain ⟨record, there⟩ := imports.get?
    obtain ⟨edge, inside, target⟩ := imports
    exact .inr ⟨importer, record, there, edge, dependencies_of_get? there ▸ inside, target⟩

abbrev ImporterMap := OrderedMap Specifier (List Specifier)

theorem mem_link (importer : Specifier) (edges : List DependencyEdge) (importers : ImporterMap)
    (other target : Specifier) :
    other ∈ ((link importer edges importers).get? target).getD [] ↔
      other ∈ (importers.get? target).getD [] ∨
        other = importer ∧ ∃ edge ∈ edges, edge.target = target := by
  unfold link
  induction edges generalizing importers with
  | nil => simp
  | cons edge edges ih =>
    rw [List.foldl_cons, ih]
    simp only [List.mem_cons, exists_eq_or_imp]
    by_cases known : importer ∈ (importers.get? edge.target).getD []
    · rw [if_pos known]
      constructor
      · tauto
      · rintro (old | ⟨rfl, rfl | later⟩)
        · exact .inl old
        · exact .inl known
        · exact .inr ⟨rfl, later⟩
    · rw [if_neg known, OrderedMap.get?_insert]
      by_cases same : edge.target = target
      · subst same
        rw [if_pos rfl, Option.getD_some, List.mem_cons]
        tauto
      · rw [if_neg same]
        tauto

/-- Of the lists of importers, only that of the given target changes, and it loses just the importer.
-/
theorem mem_unlink_one (importer : Specifier) (edge : DependencyEdge) (importers : ImporterMap)
    (other target : Specifier) :
    other ∈ ((unlink importer [edge] importers).get? target).getD [] ↔
      other ∈ (importers.get? target).getD [] ∧ ¬ (other = importer ∧ edge.target = target) := by
  simp only [unlink, List.foldl_cons, List.foldl_nil]
  cases found : importers.get? edge.target with
  | none =>
    by_cases same : edge.target = target
    · subst same
      simp [found]
    · simp [same]
  | some known =>
    by_cases alone : (known.filter (· ≠ importer)).isEmpty = true
    · have none : other ∈ known → other = importer := by
        intro member
        by_contra distinct
        have kept : other ∈ known.filter (· ≠ importer) := by simp [member, distinct]
        rw [List.isEmpty_iff.1 alone] at kept
        exact absurd kept List.not_mem_nil
      simp only [if_pos alone, OrderedMap.get?_erase]
      by_cases same : edge.target = target
      · subst same
        rw [if_pos rfl, found]
        simpa using none
      · simp [same]
    · simp only [if_neg alone, OrderedMap.get?_insert]
      by_cases same : edge.target = target
      · subst same
        rw [if_pos rfl, found]
        simp
      · simp [same]

theorem mem_unlink (importer : Specifier) (edges : List DependencyEdge) (importers : ImporterMap)
    (other target : Specifier) :
    other ∈ ((unlink importer edges importers).get? target).getD [] ↔
      other ∈ (importers.get? target).getD [] ∧
        ¬ (other = importer ∧ ∃ edge ∈ edges, edge.target = target) := by
  induction edges generalizing importers with
  | nil => simp [unlink]
  | cons edge edges ih =>
    have first : unlink importer (edge :: edges) importers =
        unlink importer edges (unlink importer [edge] importers) := rfl
    rw [first, ih, mem_unlink_one, and_assoc, ← not_or, ← and_or_left]
    simp only [List.mem_cons, exists_eq_or_imp]

theorem mem_importersOf_insert {graph : ModuleGraph} (indexed : graph.Indexed)
    (record : ModuleRecord) (other target : Specifier) :
    other ∈ (graph.insert record).importersOf target ↔
      if other = record.specifier then ∃ edge ∈ record.dependencies, edge.target = target
      else other ∈ graph.importersOf target := by
  have own := indexed.linked record.specifier target
  simp only [Imports, importersOf] at own
  simp only [importersOf, insert, mem_link]
  cases found : graph.get? record.specifier with
  | none =>
    rw [dependencies_of_get?_eq_none found] at own
    by_cases same : other = record.specifier
    · subst same
      simp [own]
    · simp [same]
  | some previous =>
    rw [dependencies_of_get? found] at own
    simp only [mem_unlink, indexed.keyed found]
    by_cases same : other = record.specifier
    · subst same
      simp only [own, and_not_self_iff, false_or, true_and, if_true]
    · simp [same]

theorem Indexed.empty : ModuleGraph.Indexed {} where
  keyed found := by simp [get?] at found
  linked importer target := by
    simp [importersOf, Imports, dependencies, get?]

theorem Indexed.insert {graph : ModuleGraph} (indexed : graph.Indexed) (record : ModuleRecord) :
    (graph.insert record).Indexed where
  keyed {specifier found?} found := by
    rw [get?_insert] at found
    split at found
    · next same => rw [← Option.some.inj found, same]
    · exact indexed.keyed found
  linked importer target := by
    rw [mem_importersOf_insert indexed]
    split
    · next same =>
      subst same
      rw [Imports, dependencies_of_get? (by rw [get?_insert, if_pos rfl])]
    · next distinct =>
      rw [indexed.linked]
      refine imports_congr target (dependencies_congr ?_)
      rw [get?_insert, if_neg (Ne.symm distinct)]

theorem Indexed.mention {graph : ModuleGraph} (indexed : graph.Indexed) (specifier : Specifier) :
    (graph.mention specifier).Indexed where
  keyed {other record} found := by
    rw [get?_mention] at found
    split at found
    · next same =>
      subst same
      cases known : graph.get? specifier with
      | none => rw [known] at found; rw [← Option.some.inj found]; rfl
      | some old => rw [known] at found; exact indexed.keyed (known.trans found)
    · exact indexed.keyed found
  linked importer target := by
    have kept : (graph.mention specifier).importersOf target = graph.importersOf target := by
      unfold ModuleGraph.mention getOrCreate
      cases graph.get? specifier <;> rfl
    rw [kept, indexed.linked]
    refine imports_congr target ?_
    cases known : graph.get? specifier with
    | some old => rw [mention_of_get? known]
    | none =>
      by_cases same : specifier = importer
      · subst same
        rw [dependencies_of_get?_eq_none known, dependencies_of_get? (by
          rw [get?_mention, if_pos rfl])]
        simp [known, ModuleRecord.awaiting]
      · exact dependencies_congr (by rw [get?_mention, if_neg same])

theorem Indexed.of_same_edges {first second : ModuleGraph} (indexed : first.Indexed)
    (importers : second.importers = first.importers)
    (edges : ∀ specifier, second.dependencies specifier = first.dependencies specifier)
    (keyed : ∀ {specifier record}, second.get? specifier = some record →
      record.specifier = specifier) : second.Indexed where
  keyed := keyed
  linked importer target := by
    rw [importersOf, importers, imports_congr target (edges importer)]
    exact indexed.linked importer target

theorem modify_eq_insert {graph : ModuleGraph} (indexed : graph.Indexed) {specifier : Specifier}
    {record : ModuleRecord} (found : graph.get? specifier = some record)
    {change : ModuleRecord → ModuleRecord} (named : (change record).specifier = record.specifier)
    (rewired : (change record).dependencies ≠ record.dependencies) :
    graph.modify specifier change = graph.insert (change record) := by
  have own := indexed.keyed found
  rw [own] at named
  simp only [modify, update, found, ModuleGraph.insert, named, own, rewired, if_false]

theorem modify_keeps_importers {graph : ModuleGraph} {specifier : Specifier}
    {change : ModuleRecord → ModuleRecord}
    (kept : ∀ record, graph.get? specifier = some record →
      (change record).dependencies = record.dependencies) :
    (graph.modify specifier change).importers = graph.importers := by
  cases found : graph.get? specifier with
  | none => rw [modify_of_get?_eq_none change found]
  | some record => simp [modify, update, found, kept record found]

theorem Indexed.modify {graph : ModuleGraph} (indexed : graph.Indexed) (specifier : Specifier)
    {change : ModuleRecord → ModuleRecord}
    (named : ∀ record, (change record).specifier = record.specifier) :
    (graph.modify specifier change).Indexed := by
  cases found : graph.get? specifier with
  | none => rwa [modify_of_get?_eq_none change found]
  | some record =>
    by_cases kept : (change record).dependencies = record.dependencies
    · refine indexed.of_same_edges (modify_keeps_importers fun other located => ?_) ?_ ?_
      · rw [found] at located
        rw [← Option.some.inj located, kept]
      · intro other
        by_cases same : specifier = other
        · subst same
          have changed : (graph.modify specifier change).get? specifier = some (change record) := by
            rw [get?_modify, if_pos rfl, found, Option.map_some]
          rw [dependencies_of_get? found, dependencies_of_get? changed, kept]
        · exact dependencies_congr (by rw [get?_modify, if_neg same])
      · intro other changed located
        rw [get?_modify, found] at located
        split at located
        · next same => rw [← Option.some.inj located, named record, indexed.keyed found, same]
        · exact indexed.keyed located
    · rw [modify_eq_insert indexed found (named record) kept]
      exact indexed.insert _

theorem Indexed.erase {graph : ModuleGraph} (indexed : graph.Indexed) (specifier : Specifier) :
    (graph.erase specifier).1.Indexed := by
  cases found : graph.get? specifier with
  | none =>
    simp only [ModuleGraph.erase, found]
    exact indexed
  | some record =>
    constructor
    · intro other left located
      rw [get?_erase] at located
      split at located
      · cases located
      · exact indexed.keyed located
    · intro importer target
      have importers : importer ∈ (graph.erase specifier).1.importersOf target ↔
          importer ∈ graph.importersOf target ∧
            ¬ (importer = specifier ∧ ∃ edge ∈ record.dependencies, edge.target = target) := by
        simp only [ModuleGraph.erase, found, importersOf, mem_unlink, indexed.keyed found]
      rw [importers, indexed.linked]
      by_cases same : importer = specifier
      · subst same
        rw [Imports, Imports, dependencies_of_get? found,
          dependencies_of_get?_eq_none (by rw [get?_erase, if_pos rfl])]
        simp
      · simp only [same, false_and, not_false_eq_true, and_true]
        refine imports_congr target (dependencies_congr ?_)
        rw [get?_erase, if_neg (Ne.symm same)]

end ModuleBuild.ModuleGraph
