import ModuleBuild.Proofs.Graph.Importers
import Mathlib.Data.List.Nodup
/-!
The module graph as a list of records. However it is changed, a graph answers as a list does in which
no two records have one name, and its importers are what can be read off the records.
-/

namespace ModuleBuild

/-! ## Changes and answers -/

/-- A change to a module graph. The function that updates a record keeps the name it is filed under. -/
inductive Mutation where
  | getOrCreate (specifier : Specifier)
  | insert (record : ModuleRecord)
  | update (specifier : Specifier) (change : ModuleRecord → ModuleRecord)
      (named : ∀ record, record.specifier = specifier → (change record).specifier = specifier)
  | setDependencies (specifier : Specifier) (edges : List DependencyEdge)
  | remove (specifier : Specifier)
  | clear

namespace Mutation

inductive Answer where
  | done
  | record (record : ModuleRecord) (isNew : Bool)
  | changed (result : Except ModuleGraph.UnknownModule ModuleRecord)
  | removed (record? : Option ModuleRecord)

/-- The answer of an update; a graph is left as it was by one that fails. -/
def ofUpdate (graph : ModuleGraph) :
    Except ModuleGraph.UnknownModule (ModuleGraph × ModuleRecord) → ModuleGraph × Answer
  | .ok (changed, record) => (changed, .changed (.ok record))
  | .error unknown => (graph, .changed (.error unknown))

def apply (graph : ModuleGraph) : Mutation → ModuleGraph × Answer
  | getOrCreate specifier =>
    let (graph, record, isNew) := graph.getOrCreate specifier
    (graph, .record record isNew)
  | insert record => (graph.insert record, .done)
  | update specifier change _ => ofUpdate graph (graph.update specifier change)
  | setDependencies specifier edges => ofUpdate graph (graph.setDependencies specifier edges)
  | remove specifier =>
    let (graph, record?) := graph.erase specifier
    (graph, .removed record?)
  | clear => (graph.clear, .done)

end Mutation

/-! ## The list of records -/

namespace RecordList

def named? (specifier : Specifier) (records : List ModuleRecord) : Option ModuleRecord :=
  records.find? (·.specifier = specifier)

/-- Sets a record: in place of the one with its name, or else at the end. -/
def put (record : ModuleRecord) (records : List ModuleRecord) : List ModuleRecord :=
  if record.specifier ∈ records.map (·.specifier) then
    records.map fun other => if other.specifier = record.specifier then record else other
  else records ++ [record]

def update (records : List ModuleRecord) (specifier : Specifier)
    (change : ModuleRecord → ModuleRecord) : List ModuleRecord × Mutation.Answer :=
  match named? specifier records with
  | some record => (put (change record) records, .changed (.ok (change record)))
  | none => (records, .changed (.error ⟨specifier⟩))

def apply (records : List ModuleRecord) : Mutation → List ModuleRecord × Mutation.Answer
  | .getOrCreate specifier =>
    match named? specifier records with
    | some record => (records, .record record false)
    | none => (records ++ [.awaiting specifier], .record (.awaiting specifier) true)
  | .insert record => (put record records, .done)
  | .update specifier change _ => update records specifier change
  | .setDependencies specifier edges =>
    update records specifier fun record => { record with dependencies := edges }
  | .remove specifier =>
    (records.filter (·.specifier ≠ specifier), .removed (named? specifier records))
  | .clear => ([], .done)

end RecordList

/-- Makes changes one after another and gathers the answers. -/
def replay {σ : Type} (apply : σ → Mutation → σ × Mutation.Answer) :
    List Mutation → σ → σ × List Mutation.Answer
  | [], state => (state, [])
  | mutation :: later, state =>
    let (next, answer) := apply state mutation
    let (last, answers) := replay apply later next
    (last, answer :: answers)

/-- All that a graph shows of itself is read off a list of records without repeated names: the records in
their order, the record of each name, and the importers of each name, sorted and without repetition. -/
structure ModuleGraph.Shows (graph : ModuleGraph) (records : List ModuleRecord) : Prop where
  modules : graph.modules = records
  specifiers : graph.specifiers = records.map (·.specifier)
  distinct : (records.map (·.specifier)).Nodup
  filed : ∀ specifier, graph.get? specifier = RecordList.named? specifier records
  sorted : ∀ target, (graph.dependents target).Pairwise (·.text < ·.text)
  dependents : ∀ importer target, importer ∈ graph.dependents target ↔
    ∃ record ∈ records, record.specifier = importer ∧ ∃ edge ∈ record.dependencies, edge.target = target
  unknown : ∀ specifier, specifier ∉ records.map (·.specifier) →
    (∀ change named, (Mutation.update specifier change named).apply graph =
      (graph, .changed (.error ⟨specifier⟩))) ∧
    ∀ edges, (Mutation.setDependencies specifier edges).apply graph =
      (graph, .changed (.error ⟨specifier⟩))

/-! ## Importers as sets -/

namespace ModuleGraph

def Unrepeated (importers : ImporterMap) : Prop :=
  ∀ target, ((importers.get? target).getD []).Nodup

theorem Unrepeated.link (importer : Specifier) (edges : List DependencyEdge)
    {importers : ImporterMap} (unrepeated : Unrepeated importers) :
    Unrepeated (link importer edges importers) := by
  unfold ModuleGraph.link
  induction edges generalizing importers with
  | nil => exact unrepeated
  | cons edge edges ih =>
    rw [List.foldl_cons]
    apply ih
    by_cases known : importer ∈ (importers.get? edge.target).getD []
    · rwa [if_pos known]
    · intro target
      rw [if_neg known, OrderedMap.get?_insert]
      split
      · exact List.nodup_cons.2 ⟨known, unrepeated edge.target⟩
      · exact unrepeated target

theorem Unrepeated.unlink (importer : Specifier) (edges : List DependencyEdge)
    {importers : ImporterMap} (unrepeated : Unrepeated importers) :
    Unrepeated (unlink importer edges importers) := by
  unfold ModuleGraph.unlink
  induction edges generalizing importers with
  | nil => exact unrepeated
  | cons edge edges ih =>
    rw [List.foldl_cons]
    apply ih
    intro target
    cases found : importers.get? edge.target with
    | none => exact unrepeated target
    | some known =>
      have own : known.Nodup := by simpa [found] using unrepeated edge.target
      dsimp only
      split
      · rw [OrderedMap.get?_erase]
        split
        · exact List.nodup_nil
        · exact unrepeated target
      · rw [OrderedMap.get?_insert]
        split
        · exact own.filter _
        · exact unrepeated target

theorem text_lt_of_isLE {first second : Specifier} (le : (compare first second).isLE)
    (distinct : first ≠ second) : first.text < second.text := by
  change (compare first.text second.text).isLE at le
  cases order : compare first.text second.text with
  | lt => exact compareOfLessAndEq_eq_lt.1 order
  | eq => exact absurd (congrArg Specifier.mk (Std.LawfulEqCmp.eq_of_compare order)) distinct
  | gt => simp [order] at le

theorem pairwise_dependents {graph : ModuleGraph} (unrepeated : Unrepeated graph.importers)
    (target : Specifier) : (graph.dependents target).Pairwise (·.text < ·.text) := by
  have transitive (first second third : Specifier) (le : (compare first second).isLE)
      (le' : (compare second third).isLE) : (compare first third).isLE := by
    change (compare first.text second.text).isLE at le
    show (compare first.text third.text).isLE
    exact Std.TransCmp.isLE_trans le le'
  have total (first second : Specifier) :
      ((compare first second).isLE || (compare second first).isLE) = true := by
    show ((compare first.text second.text).isLE || (compare second.text first.text).isLE) = true
    have swap : compare first.text second.text = (compare second.text first.text).swap :=
      Std.OrientedCmp.eq_swap
    rw [swap]
    cases compare second.text first.text <;> rfl
  have ordered := List.pairwise_mergeSort transitive total (graph.importersOf target)
  have distinct : (graph.dependents target).Nodup :=
    (List.mergeSort_perm _ _).nodup_iff.2 (unrepeated target)
  exact ordered.imp₂ (fun _ _ => text_lt_of_isLE) distinct

end ModuleGraph

/-! ## The records of a graph -/

def filing (record : ModuleRecord) : Specifier × ModuleRecord := (record.specifier, record)

namespace RecordList

variable {records : List ModuleRecord}

theorem lookup_filing (specifier : Specifier) (records : List ModuleRecord) :
    OrderedMap.lookup specifier (records.map filing) = named? specifier records := by
  induction records with
  | nil => rfl
  | cons record rest ih =>
    unfold named? at ih ⊢
    by_cases same : record.specifier = specifier
    · simp [OrderedMap.lookup, filing, same]
    · simp [OrderedMap.lookup, filing, same, ih]

theorem specifier_of_named? {specifier : Specifier} {record : ModuleRecord}
    (found : named? specifier records = some record) :
    record ∈ records ∧ record.specifier = specifier :=
  ⟨List.mem_of_find?_eq_some found, by simpa using List.find?_some found⟩

theorem named?_of_mem {record : ModuleRecord} (distinct : (records.map (·.specifier)).Nodup)
    (member : record ∈ records) : named? record.specifier records = some record := by
  obtain ⟨other, found⟩ : ∃ other, named? record.specifier records = some other :=
    Option.isSome_iff_exists.1 (List.find?_isSome.2 ⟨record, member, by simp⟩)
  obtain ⟨inside, named⟩ := specifier_of_named? found
  rw [found, List.inj_on_of_nodup_map distinct inside member named]

theorem named?_eq_none_iff (specifier : Specifier) (records : List ModuleRecord) :
    named? specifier records = none ↔ specifier ∉ records.map (·.specifier) := by
  simp [named?]

theorem put_cons {record other : ModuleRecord} {rest : List ModuleRecord}
    (fresh : other.specifier ∉ rest.map (·.specifier)) :
    put record (other :: rest) =
      if other.specifier = record.specifier then record :: rest else other :: put record rest := by
  unfold put
  by_cases same : other.specifier = record.specifier
  · have kept : rest.map (fun other => if other.specifier = record.specifier then record else other) =
        rest := by
      refine (List.map_congr_left fun later member => ?_).trans (List.map_id' rest)
      rw [if_neg fun also => fresh (List.mem_map.2 ⟨later, member, also.trans same.symm⟩)]
    simp [same, kept]
  · have distinct : record.specifier ≠ other.specifier := Ne.symm same
    simp only [List.map_cons, List.mem_cons, distinct, same, false_or, if_false]
    split <;> rfl

theorem assign_filing (record : ModuleRecord) (distinct : (records.map (·.specifier)).Nodup) :
    OrderedMap.assign record.specifier record (records.map filing) = (put record records).map filing := by
  induction records with
  | nil => rfl
  | cons other rest ih =>
    obtain ⟨fresh, distinct⟩ := List.nodup_cons.1 distinct
    rw [put_cons fresh, List.map_cons]
    by_cases same : other.specifier = record.specifier
    · simp [OrderedMap.assign, filing, same]
    · rw [if_neg same, List.map_cons, ← ih distinct]
      simp [OrderedMap.assign, filing, same]

theorem filter_filing (specifier : Specifier) (records : List ModuleRecord) :
    (records.map filing).filter (fun entry => entry.1 ≠ specifier) =
      (records.filter (·.specifier ≠ specifier)).map filing := by
  rw [List.filter_map]
  rfl

end RecordList

namespace ModuleGraph

open RecordList

/-- A graph consists of a list of records, each under its own name, and of their importers. -/
structure Holds (graph : ModuleGraph) (records : List ModuleRecord) : Prop where
  entries : graph.records.entries = records.map filing
  indexed : graph.Indexed
  unrepeated : Unrepeated graph.importers

variable {graph : ModuleGraph} {records : List ModuleRecord}

theorem Holds.distinct (holds : graph.Holds records) : (records.map (·.specifier)).Nodup := by
  have distinct := graph.records.distinct
  rwa [holds.entries, List.map_map] at distinct

theorem Holds.get?_eq (holds : graph.Holds records) (specifier : Specifier) :
    graph.get? specifier = named? specifier records := by
  rw [get?, OrderedMap.get?, holds.entries, lookup_filing]

theorem holds_empty : Holds .empty [] where
  entries := rfl
  indexed := .empty
  unrepeated := fun _ => List.nodup_nil

theorem Holds.insert (holds : graph.Holds records) (record : ModuleRecord) :
    (graph.insert record).Holds (put record records) where
  entries := by
    rw [← assign_filing record holds.distinct, ← holds.entries]
    rfl
  indexed := holds.indexed.insert record
  unrepeated := by
    apply Unrepeated.link
    cases graph.get? record.specifier with
    | none => exact holds.unrepeated
    | some previous => exact holds.unrepeated.unlink _ _

theorem Holds.mention (holds : graph.Holds records) {specifier : Specifier}
    (absent : named? specifier records = none) :
    (graph.mention specifier).Holds (records ++ [.awaiting specifier]) := by
  have added : put (.awaiting specifier) records = records ++ [.awaiting specifier] :=
    if_neg ((named?_eq_none_iff _ _).1 absent)
  have after : graph.mention specifier =
      { graph with records := graph.records.insert specifier (.awaiting specifier) } := by
    simp [ModuleGraph.mention, getOrCreate, holds.get?_eq, absent]
  constructor
  · rw [after, ← added, ← assign_filing _ holds.distinct, ← holds.entries]
    rfl
  · exact holds.indexed.mention specifier
  · rw [after]
    exact holds.unrepeated

theorem Holds.modify (holds : graph.Holds records) {specifier : Specifier} {record : ModuleRecord}
    (found : named? specifier records = some record) {change : ModuleRecord → ModuleRecord}
    (named : ∀ other, other.specifier = specifier → (change other).specifier = specifier) :
    (graph.modify specifier change).Holds (put (change record) records) := by
  have there : graph.get? specifier = some record := (holds.get?_eq specifier).trans found
  have own : record.specifier = specifier := (specifier_of_named? found).2
  constructor
  · rw [← assign_filing _ holds.distinct, ← holds.entries, named record own]
    simp only [ModuleGraph.modify, ModuleGraph.update, there]
    rfl
  · -- only the record in place is changed, so the change may be taken to keep all names
    let keeping (other : ModuleRecord) : ModuleRecord :=
      if other.specifier = specifier then change other else other
    have same : graph.modify specifier change = graph.modify specifier keeping := by
      simp only [ModuleGraph.modify, ModuleGraph.update, there, keeping, own, if_true]
    rw [same]
    refine holds.indexed.modify specifier fun other => ?_
    simp only [keeping]
    split
    · next isOwn => rw [named other isOwn, isOwn]
    · rfl
  · simp only [ModuleGraph.modify, ModuleGraph.update, there]
    split
    · exact holds.unrepeated
    · exact (holds.unrepeated.unlink _ _).link _ _

theorem Holds.erase (holds : graph.Holds records) (specifier : Specifier) :
    (graph.erase specifier).1.Holds (records.filter (·.specifier ≠ specifier)) := by
  cases found : graph.get? specifier with
  | none =>
    have absent := (named?_eq_none_iff _ _).1 ((holds.get?_eq specifier).symm.trans found)
    have kept : records.filter (·.specifier ≠ specifier) = records := by
      apply List.filter_eq_self.2
      intro record member
      exact decide_eq_true fun same => absent (List.mem_map.2 ⟨record, member, same⟩)
    rw [kept]
    simp only [ModuleGraph.erase, found]
    exact holds
  | some record =>
    constructor
    · rw [← filter_filing, ← holds.entries]
      simp only [ModuleGraph.erase, found]
      rfl
    · exact holds.indexed.erase specifier
    · simp only [ModuleGraph.erase, found]
      exact holds.unrepeated.unlink _ _

theorem Holds.update (holds : graph.Holds records) {specifier : Specifier}
    {change : ModuleRecord → ModuleRecord}
    (named : ∀ record, record.specifier = specifier → (change record).specifier = specifier) :
    (Mutation.ofUpdate graph (graph.update specifier change)).2 =
        (RecordList.update records specifier change).2 ∧
      (Mutation.ofUpdate graph (graph.update specifier change)).1.Holds
        (RecordList.update records specifier change).1 := by
  cases found : named? specifier records with
  | none =>
    have absent : graph.get? specifier = none := (holds.get?_eq specifier).trans found
    simp only [ModuleGraph.update, absent, Mutation.ofUpdate, RecordList.update, found]
    exact ⟨trivial, holds⟩
  | some record =>
    rw [update_of_get? change ((holds.get?_eq specifier).trans found)]
    simp only [Mutation.ofUpdate, RecordList.update, found]
    exact ⟨trivial, holds.modify found named⟩

/-- One change has the same answer and effect on a graph and on its list of records. -/
theorem Holds.apply (holds : graph.Holds records) (mutation : Mutation) :
    (mutation.apply graph).2 = (RecordList.apply records mutation).2 ∧
      (mutation.apply graph).1.Holds (RecordList.apply records mutation).1 := by
  cases mutation with
  | getOrCreate specifier =>
    simp only [Mutation.apply, RecordList.apply, getOrCreate_eq, holds.get?_eq]
    cases found : named? specifier records with
    | none => exact ⟨rfl, holds.mention found⟩
    | some record =>
      rw [mention_of_get? ((holds.get?_eq specifier).trans found)]
      exact ⟨rfl, holds⟩
  | insert record => exact ⟨rfl, holds.insert record⟩
  | update specifier change named => exact holds.update named
  | setDependencies specifier edges => exact holds.update fun _ same => same
  | remove specifier =>
    refine ⟨?_, holds.erase specifier⟩
    simp only [Mutation.apply, RecordList.apply, erase_snd, holds.get?_eq]
  | clear => exact ⟨rfl, holds_empty⟩

theorem Holds.replay (holds : graph.Holds records) (mutations : List Mutation) :
    let after := replay Mutation.apply mutations graph
    let expected := replay RecordList.apply mutations records
    after.2 = expected.2 ∧ after.1.Holds expected.1 := by
  induction mutations generalizing graph records with
  | nil => exact ⟨rfl, holds⟩
  | cons mutation later ih =>
    obtain ⟨answer, held⟩ := holds.apply mutation
    obtain ⟨answers, last⟩ := ih held
    exact ⟨congrArg₂ List.cons answer answers, last⟩

theorem Holds.shows (holds : graph.Holds records) : graph.Shows records where
  modules := by
    rw [modules, OrderedMap.values, holds.entries, List.map_map]
    exact List.map_id' records
  specifiers := by
    rw [specifiers, OrderedMap.keys, holds.entries, List.map_map]
    rfl
  distinct := holds.distinct
  filed := holds.get?_eq
  sorted := pairwise_dependents holds.unrepeated
  dependents importer target := by
    rw [mem_dependents holds.indexed]
    constructor
    · intro imports
      obtain ⟨record, found⟩ := imports.get?
      obtain ⟨edge, written, leads⟩ := imports
      rw [dependencies_of_get? found] at written
      rw [holds.get?_eq] at found
      obtain ⟨member, named⟩ := specifier_of_named? found
      exact ⟨record, member, named, edge, written, leads⟩
    · rintro ⟨record, member, rfl, edge, written, leads⟩
      have found := (holds.get?_eq _).trans (named?_of_mem holds.distinct member)
      exact ⟨edge, dependencies_of_get? found ▸ written, leads⟩
  unknown specifier absent := by
    have nothing : graph.get? specifier = none :=
      (holds.get?_eq specifier).trans ((named?_eq_none_iff _ _).2 absent)
    constructor
    · intro change named
      simp [Mutation.apply, Mutation.ofUpdate, ModuleGraph.update, nothing]
    · intro edges
      simp [Mutation.apply, Mutation.ofUpdate, setDependencies, ModuleGraph.update, nothing]

end ModuleGraph

/-- However a module graph is changed from the empty one on, it answers as a list of records does, and
shows what that list holds. -/
theorem ModuleGraph.replay_refines_list (mutations : List Mutation) :
    let after := replay Mutation.apply mutations ModuleGraph.empty
    let expected := replay RecordList.apply mutations []
    after.2 = expected.2 ∧ after.1.Shows expected.1 :=
  let ⟨answers, holds⟩ := ModuleGraph.holds_empty.replay mutations
  ⟨answers, holds.shows⟩

-- A module that is taken out keeps its importer, named once for two edges, and comes back last.
example :
    let after := replay Mutation.apply
      [.getOrCreate ⟨"/b.js"⟩,
        .insert
          { specifier := ⟨"/a.js"⟩
            dependencies := [{ target := ⟨"/b.js"⟩ }, { target := ⟨"/b.js"⟩, isDynamic := true }] },
        .remove ⟨"/b.js"⟩, .getOrCreate ⟨"/b.js"⟩] ModuleGraph.empty
    after.1.specifiers = [⟨"/a.js"⟩, ⟨"/b.js"⟩] ∧ after.1.importersOf ⟨"/b.js"⟩ = [⟨"/a.js"⟩] := by
  decide

end ModuleBuild
