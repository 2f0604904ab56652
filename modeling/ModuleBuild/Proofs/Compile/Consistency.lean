import ModuleBuild.Proofs.Compile.Refresh
/-!
Modules whose stored output agrees with the graph. A refresh makes one module consistent and takes
nothing away from the others, since no key belongs to two modules; so refreshing some modules one after
another, in any order, makes all of them consistent.
-/

namespace ModuleBuild.Workspace

open Relation

/-- There is code for a module, under a key of its own. -/
def HasCode (store : ArtifactStore) (record : ModuleRecord) (code : Bytes) : Prop :=
  ∃ output hash, record.output? = some output ∧ output.key = artifactKey record.specifier hash ∧
    store.blobs.get? output.key = some code

/-- The output of a module agrees with the graph: its content hash is the one that follows from the
graph, its code is stored under the key that belongs to the hash, and the slots of its imports lie
apart inside the code, each as wide as a token, and hold the tokens that follow from the graph. -/
structure Consistent (graph : ModuleGraph) (store : ArtifactStore) (record : ModuleRecord) :
    Prop where
  hashed : graph.contentHash? record.specifier = some record.contentHash
  stored : ∃ output code, record.output? = some output ∧
    output.key = artifactKey record.specifier record.contentHash ∧
    store.blobs.get? output.key = some code ∧ SlotsFit record.dependencies code.length ∧
    Stamped graph record.dependencies code

theorem Consistent.hasCode {graph : ModuleGraph} {store : ArtifactStore} {record : ModuleRecord}
    (consistent : Consistent graph store record) :
    ∃ code, HasCode store record code ∧ SlotsFit record.dependencies code.length := by
  obtain ⟨output, code, own, key, stored, fit, -⟩ := consistent.stored
  exact ⟨code, ⟨output, _, own, key, stored⟩, fit⟩

theorem HasCode.eq {store : ArtifactStore} {record : ModuleRecord} {first second : Bytes}
    (one : HasCode store record first) (two : HasCode store record second) : first = second := by
  obtain ⟨output, _, output?, -, stored⟩ := one
  obtain ⟨output', _, output?', -, stored'⟩ := two
  obtain rfl := Option.some.inj (output?.symm.trans output?')
  exact Option.some.inj (stored.symm.trans stored')

theorem HasCode.congr {first second : ArtifactStore} {record : ModuleRecord} {code : Bytes}
    (has : HasCode first record code)
    (same : ∀ hash, second.blobs.get? (artifactKey record.specifier hash) =
      first.blobs.get? (artifactKey record.specifier hash)) : HasCode second record code := by
  obtain ⟨output, hash, own, key, stored⟩ := has
  exact ⟨output, hash, own, key, by rw [key, same, ← key, stored]⟩

theorem Consistent.congr {first second : ModuleGraph} {one two : ArtifactStore}
    {record : ModuleRecord} (consistent : Consistent first one record)
    (hash : second.contentHash? record.specifier = first.contentHash? record.specifier)
    (imports : ∀ edge ∈ record.dependencies, edge.isDynamic = false →
      second.contentHash? edge.target = first.contentHash? edge.target)
    (blobs : ∀ hash, two.blobs.get? (artifactKey record.specifier hash) =
      one.blobs.get? (artifactKey record.specifier hash)) :
    Consistent second two record := by
  obtain ⟨output, code, own, key, stored, fit, stamped⟩ := consistent.stored
  exact ⟨hash.trans consistent.hashed,
    output, code, own, key, by rw [key, blobs, ← key, stored], fit, stamped.congr imports⟩

theorem HasCode.owns {store : ArtifactStore} {record : ModuleRecord} {code : Bytes}
    (has : HasCode store record code) :
    ∀ old, record.output? = some old → ∃ hash, old.key = artifactKey record.specifier hash := by
  obtain ⟨output, hash, output?, key, -⟩ := has
  intro old old?
  rw [output?, Option.some.injEq] at old?
  exact ⟨hash, old? ▸ key⟩

namespace Refreshes

variable {before after : Workspace} {record result : ModuleRecord} {hash : String} {code : Bytes}
  (refreshes : Refreshes before after record result hash code)

include refreshes

theorem consistent (found : before.graph.get? record.specifier = some record)
    (fit : SlotsFit record.dependencies code.length) :
    Consistent after.graph after.store result := by
  obtain ⟨length, updated, -⟩ := refreshes.updated
  obtain ⟨written, stored, agree, stamped⟩ := refreshes.stored
  have hash : result.contentHash = hash := by rw [updated]
  constructor
  · rw [refreshes.specifier, refreshes.contentHash? found, refreshes.hashed, hash]
  · refine ⟨⟨artifactKey record.specifier _, length⟩, written, ?_, ?_, stored, ?_, ?_⟩
    · rw [updated]
    · rw [refreshes.specifier, hash]
    · rw [refreshes.dependencies, ← agree.length]
      exact fit
    · rw [refreshes.dependencies, refreshes.stamped_iff found]
      exact stamped

theorem blobs_other {modules : Specifier → Prop} (distinct : DigestsDistinct modules)
    (own : modules record.specifier)
    (owned : ∀ old, record.output? = some old →
      ∃ hash, old.key = artifactKey record.specifier hash)
    {other : Specifier} (known : modules other) (differ : other ≠ record.specifier)
    (otherHash : String) :
    after.store.blobs.get? (artifactKey other otherHash) =
      before.store.blobs.get? (artifactKey other otherHash) := by
  refine refreshes.blobs _ (distinct.artifactKey_ne known own differ _ _) fun old output => ?_
  obtain ⟨oldHash, key⟩ := owned old output
  rw [key]
  exact distinct.artifactKey_ne known own differ _ _

/-- After a refresh there still is code for every module, for the refreshed one its new code. -/
theorem supplied {modules : Specifier → Prop} (distinct : DigestsDistinct modules)
    (own : modules record.specifier) (found : before.graph.get? record.specifier = some record)
    (has : HasCode before.store record code) (fit : SlotsFit record.dependencies code.length)
    (indexed : before.graph.Indexed) {other : Specifier} (known : modules other)
    (earlier : ∀ old, before.graph.get? other = some old → old.folds →
      ∃ code, HasCode before.store old code ∧ SlotsFit old.dependencies code.length) :
    ∀ latest, after.graph.get? other = some latest → latest.folds →
      ∃ code, HasCode after.store latest code ∧ SlotsFit latest.dependencies code.length := by
  intro latest located folds
  by_cases same : other = record.specifier
  · subst same
    rw [refreshes.get?_self, Option.some.injEq] at located
    exact located ▸ (refreshes.consistent found fit).hasCode
  · rw [refreshes.get?_other same] at located
    obtain ⟨held, has', fit'⟩ := earlier latest located folds
    obtain rfl := indexed.keyed located
    exact ⟨held, has'.congr (refreshes.blobs_other distinct own has.owns known same), fit'⟩

end Refreshes

/-- One of some modules is refreshed from the code that is stored for it. -/
def RefreshStep (touched : Specifier → Prop) (before after : Workspace) : Prop :=
  ∃ record result hash code, touched record.specifier ∧
    before.graph.get? record.specifier = some record ∧ record.folds ∧
    HasCode before.store record code ∧ SlotsFit record.dependencies code.length ∧
    Refreshes before after record result hash code

abbrev RefreshSteps (touched : Specifier → Prop) : Workspace → Workspace → Prop :=
  ReflTransGen (RefreshStep touched)

theorem RefreshSteps.mono {touched more : Specifier → Prop} {before after : Workspace}
    (steps : RefreshSteps touched before after) (wider : ∀ other, touched other → more other) :
    RefreshSteps more before after :=
  ReflTransGen.mono (fun _ _ ⟨record, result, hash, code, own, rest⟩ =>
    ⟨record, result, hash, code, wider _ own, rest⟩) _ _ steps

namespace RefreshSteps

variable {touched modules : Specifier → Prop} {before after : Workspace}
  (steps : RefreshSteps touched before after)

include steps

theorem foldView? (other : Specifier) :
    after.graph.foldView? other = before.graph.foldView? other := by
  induction steps with
  | refl => rfl
  | tail _ step same =>
    obtain ⟨record, result, hash, code, -, found, -, -, -, refreshes⟩ := step
    rw [refreshes.foldView? found, same]

theorem contentHash? (other : Specifier) :
    after.graph.contentHash? other = before.graph.contentHash? other :=
  ModuleGraph.contentHash?_congr fun _ _ => steps.foldView? _

theorem faults : after.store.faults = before.store.faults := by
  induction steps with
  | refl => rfl
  | tail _ step same =>
    obtain ⟨record, result, hash, code, -, -, -, -, -, refreshes⟩ := step
    rw [refreshes.setup.faults, same]

theorem indexed (start : before.graph.Indexed) : after.graph.Indexed := by
  induction steps with
  | refl => exact start
  | tail _ step kept =>
    obtain ⟨record, result, hash, code, -, found, -, -, -, refreshes⟩ := step
    exact refreshes.indexed found kept

theorem get?_other {other : Specifier} (untouched : ¬ touched other) :
    after.graph.get? other = before.graph.get? other := by
  induction steps with
  | refl => rfl
  | tail _ step same =>
    obtain ⟨record, result, hash, code, own, -, -, -, -, refreshes⟩ := step
    have differ : other ≠ record.specifier := fun equal => untouched (equal ▸ own)
    rw [refreshes.get?_other differ, same]

theorem blobs_other (distinct : DigestsDistinct modules)
    (within : ∀ other, touched other → modules other) {other : Specifier} (known : modules other)
    (untouched : ¬ touched other) (hash : String) :
    after.store.blobs.get? (artifactKey other hash) =
      before.store.blobs.get? (artifactKey other hash) := by
  induction steps with
  | refl => rfl
  | tail _ step same =>
    obtain ⟨record, result, _, code, own, -, -, has, -, refreshes⟩ := step
    have differ : other ≠ record.specifier := fun equal => untouched (equal ▸ own)
    rw [refreshes.blobs_other distinct (within _ own) has.owns known differ, same]

theorem sidecars_other {other : Specifier} (untouched : ¬ touched other) :
    after.store.sidecars.get? other = before.store.sidecars.get? other := by
  induction steps with
  | refl => rfl
  | tail _ step same =>
    obtain ⟨record, result, hash, code, own, -, -, -, -, refreshes⟩ := step
    have differ : other ≠ record.specifier := fun equal => untouched (equal ▸ own)
    rw [refreshes.sidecars other differ, same]

/-- A refreshed module keeps all of its record but content hash, output and state. -/
theorem get?_touched {other : Specifier} {record : ModuleRecord}
    (found : before.graph.get? other = some record) (ready : record.state = .ready) :
    ∃ contentHash output?, after.graph.get? other =
      some { record with contentHash, output? } := by
  induction steps with
  | refl => exact ⟨record.contentHash, record.output?, found⟩
  | tail _ step kept =>
    obtain ⟨contentHash, output?, same⟩ := kept
    obtain ⟨refreshed, result, hash, code, -, found', -, -, -, refreshes⟩ := step
    by_cases own : other = refreshed.specifier
    · obtain ⟨length, updated, -⟩ := refreshes.updated
      rw [own, found', Option.some.injEq] at same
      refine ⟨hash, some ⟨artifactKey refreshed.specifier hash, length⟩, ?_⟩
      rw [own, refreshes.get?_self, updated, same, ready]
    · exact ⟨contentHash, output?, by rw [refreshes.get?_other own, same]⟩

/-- Of stored code only the bytes in slots of imports that have hashes change. -/
theorem hasCode_stamped (distinct : DigestsDistinct modules)
    (within : ∀ other, touched other → modules other) {other : Specifier} (known : modules other)
    {record : ModuleRecord} {code : Bytes} (found : before.graph.get? other = some record)
    (keyed : record.specifier = other) (has : HasCode before.store record code) :
    ∃ result written, after.graph.get? other = some result ∧ result.specifier = other ∧
      result.dependencies = record.dependencies ∧ HasCode after.store result written ∧
      AgreeOutside (stampSlots before.graph record.dependencies) code written := by
  induction steps with
  | refl => exact ⟨record, code, found, keyed, rfl, has, .refl _ _⟩
  | tail earlier step kept =>
    obtain ⟨latest, held, located, named, edges, has', agree⟩ := kept
    obtain ⟨refreshed, result, hash, code', own, found', -, has'', -, refreshes⟩ := step
    by_cases same : other = refreshed.specifier
    · subst same
      obtain rfl := Option.some.inj (located.symm.trans found')
      obtain rfl := has'.eq has''
      obtain ⟨written, stored, patched, -⟩ := refreshes.stored
      obtain ⟨length, updated, -⟩ := refreshes.updated
      rw [edges, stampSlots_congr _ (RefreshSteps.contentHash? earlier)] at patched
      refine ⟨result, written, refreshes.get?_self, refreshes.specifier,
        refreshes.dependencies.trans edges, ⟨_, hash, by rw [updated], ?_, stored⟩, agree.trans patched⟩
      rw [refreshes.specifier]
    · refine ⟨latest, held, by rw [refreshes.get?_other same, located], named, edges, ?_, agree⟩
      refine has'.congr fun hash => ?_
      rw [named]
      exact refreshes.blobs_other distinct (within _ own) has''.owns known same hash

/-- Of stored code only the bytes in slots of imports change. -/
theorem hasCode (distinct : DigestsDistinct modules)
    (within : ∀ other, touched other → modules other) {other : Specifier} (known : modules other)
    {record : ModuleRecord} {code : Bytes} (found : before.graph.get? other = some record)
    (keyed : record.specifier = other) (has : HasCode before.store record code) :
    ∃ result written, after.graph.get? other = some result ∧ result.specifier = other ∧
      result.dependencies = record.dependencies ∧ HasCode after.store result written ∧
      AgreeOutside (slotsOf record.dependencies) code written := by
  obtain ⟨result, written, located, named, edges, has', agree⟩ :=
    steps.hasCode_stamped distinct within known found keyed has
  exact ⟨result, written, located, named, edges, has', agree.mono (stampSlots_subset _ _)⟩

theorem consistent_other (distinct : DigestsDistinct modules)
    (within : ∀ other, touched other → modules other) {record : ModuleRecord}
    (known : modules record.specifier) (untouched : ¬ touched record.specifier)
    (consistent : Consistent before.graph before.store record) :
    Consistent after.graph after.store record :=
  consistent.congr (steps.contentHash? _) (fun _ _ _ => steps.contentHash? _)
    fun hash => steps.blobs_other distinct within known untouched hash

end RefreshSteps

/-- Refreshing some modules one after another fails for none of them and makes those that take part in
content hashes consistent, if there is code for each that its slots fit. -/
theorem refreshAll_ok {modules : Specifier → Prop} (distinct : DigestsDistinct modules)
    (work : List Specifier) (within : ∀ other ∈ work, modules other) (workspace : Workspace)
    (propagation : Propagation) (inOrder : workspace.store.faults = .empty)
    (indexed : workspace.graph.Indexed) (tokens : HasTokens workspace.graph)
    (supplied : ∀ other ∈ work, ∀ record, workspace.graph.get? other = some record → record.folds →
      ∃ code, HasCode workspace.store record code ∧ SlotsFit record.dependencies code.length) :
    let (result, after) := refreshAll workspace propagation work
    result.failures = propagation.failures ∧ RefreshSteps (· ∈ work) workspace after ∧
      ∀ other ∈ work, ∀ record, after.graph.get? other = some record → record.folds →
        Consistent after.graph after.store record := by
  induction work generalizing workspace propagation with
  | nil => exact ⟨rfl, .refl, by simp⟩
  | cons first rest ih =>
    have within' := fun other member => within other (List.mem_cons_of_mem first member)
    have supplied' := fun other member => supplied other (List.mem_cons_of_mem first member)
    cases view : workspace.graph.foldView? first with
    | none =>
      rw [refreshAll, refresh_idle view]
      obtain ⟨failures, steps, consistent⟩ :=
        ih within' workspace propagation inOrder indexed tokens supplied'
      refine ⟨failures, steps.mono fun _ => List.mem_cons_of_mem first, ?_⟩
      intro other member record found folds
      rcases List.mem_cons.1 member with rfl | later
      · have view' := steps.foldView? other
        rw [view, ModuleGraph.foldView?_of_get? found folds] at view'
        cases view'
      · exact consistent other later record found folds
    | some seen =>
      obtain ⟨record, found, folds, -⟩ := ModuleGraph.foldView?_eq_some view
      obtain rfl := indexed.keyed found
      obtain ⟨code, has, fit⟩ := supplied _ List.mem_cons_self record found folds
      obtain ⟨output, -, own, -, stored⟩ := id has
      obtain ⟨refreshed, middle, hash, refresh, refreshes, -⟩ :=
        refresh_ok inOrder found folds tokens fit (.inr ⟨rfl, output, own, stored⟩)
      have step : RefreshStep (· ∈ record.specifier :: rest) workspace middle :=
        ⟨record, refreshed.record, hash, code, List.mem_cons_self, found, folds, has, fit, refreshes⟩
      have one : RefreshSteps (· ∈ record.specifier :: rest) workspace middle := .single step
      have supplied'' := fun other (member : other ∈ rest) =>
        refreshes.supplied distinct (within _ List.mem_cons_self) found has fit indexed
          (within' other member) (supplied' other member)
      rw [refreshAll, refresh]
      obtain ⟨failures, steps, consistent⟩ := ih within' middle _
        (one.faults.trans inOrder) (one.indexed indexed)
        (fun other hash found => tokens other hash (one.contentHash? other ▸ found)) supplied''
      refine ⟨failures, .head step (steps.mono fun _ => List.mem_cons_of_mem _), ?_⟩
      intro other member latest located latestFolds
      -- the last refresh of a module is the one that counts
      by_cases later : other ∈ rest
      · exact consistent other later latest located latestFolds
      · obtain rfl := (List.mem_cons.1 member).resolve_right later
        rw [steps.get?_other later, refreshes.get?_self, Option.some.injEq] at located
        subst located
        refine steps.consistent_other distinct within' ?_ ?_ (refreshes.consistent found fit)
        · exact refreshes.specifier ▸ within _ List.mem_cons_self
        · exact refreshes.specifier ▸ later

end ModuleBuild.Workspace
