import ModuleBuild.Proofs.Compile.Consistency
/-!
Repairing the importers of a changed module. Whatever becomes of the module, a consistent graph is
consistent again afterwards, and only importers are written to.
-/

namespace ModuleBuild

open Relation

namespace ModuleGraph

/-- A graph with the record of one module replaced, or taken out. -/
def replace (graph : ModuleGraph) (specifier : Specifier) (replacement? : Option ModuleRecord) :
    ModuleGraph :=
  match replacement? with
  | some record => graph.insert record
  | none => (graph.erase specifier).1

theorem get?_replace (graph : ModuleGraph) {specifier : Specifier}
    {replacement? : Option ModuleRecord}
    (named : ∀ record ∈ replacement?, record.specifier = specifier) (other : Specifier) :
    (graph.replace specifier replacement?).get? other =
      if specifier = other then replacement? else graph.get? other := by
  cases replacement? with
  | none => exact get?_erase graph specifier other
  | some record =>
    obtain rfl := named record rfl
    exact get?_insert graph record other

theorem Indexed.replace {graph : ModuleGraph} (indexed : graph.Indexed) (specifier : Specifier)
    (replacement? : Option ModuleRecord) : (graph.replace specifier replacement?).Indexed := by
  cases replacement? with
  | none => exact indexed.erase specifier
  | some record => exact indexed.insert record

end ModuleGraph

namespace Workspace

/-- A source hash as it is found in records: empty before the source was loaded, then 64 characters
from which a token can be cut. -/
def HashShaped (hash : String) : Prop :=
  hash = "" ∨ hash.length = 64 ∧ (hashToken? hash).isSome

theorem HashShaped.hasToken {hash : String} (shaped : HashShaped hash) (loaded : hash ≠ "") :
    HasToken hash := by
  obtain ⟨long, cut⟩ := shaped.resolve_left loaded
  exact hasToken_of_hashToken? (by rw [long, tokenLength]; omega) cut

theorem folds_congr (first second : ModuleRecord) (external : first.isExternal = second.isExternal)
    (source : first.sourceHash = second.sourceHash) : first.folds = second.folds := by
  rw [ModuleRecord.folds, ModuleRecord.folds, external, source]

/-- Let all ready modules of a graph be consistent, and let one module be replaced by anything, or
taken out. Then repairing its importers fails for none of them and leaves all ready modules but the
changed one consistent. Records and blobs of modules that do not import the changed one, directly or
through others, stay as they are, and those of the changed one; of the others only content hash and
output change, and of their code only bytes in slots of imports. -/
theorem propagate_restores_consistency (workspace : Workspace)
    (inOrder : workspace.store.faults = .empty) (indexed : workspace.graph.Indexed)
    (shaped : ∀ specifier record, workspace.graph.get? specifier = some record →
      HashShaped record.sourceHash)
    (changed : Specifier)
    (distinct : DigestsDistinct fun specifier =>
      workspace.graph.contains specifier ∨ specifier = changed)
    (consistent : ∀ specifier record, workspace.graph.get? specifier = some record →
      record.isReady → record.folds → Consistent workspace.graph workspace.store record)
    (replacement? : Option ModuleRecord)
    (named : ∀ record ∈ replacement?, record.specifier = changed ∧ HashShaped record.sourceHash) :
    let before := { workspace with graph := workspace.graph.replace changed replacement? }
    let (propagation, after) := before.propagate changed
    propagation.failures = [] ∧
    (∀ specifier record, specifier ≠ changed → after.graph.get? specifier = some record →
      record.isReady → record.folds → Consistent after.graph after.store record) ∧
    (∀ specifier, specifier = changed ∨ ¬ TransGen before.graph.Imports specifier changed →
      after.graph.get? specifier = before.graph.get? specifier ∧
      (specifier = changed ∨ workspace.graph.contains specifier →
        ∀ hash, after.store.blobs.get? (artifactKey specifier hash) =
          before.store.blobs.get? (artifactKey specifier hash))) ∧
    ∀ specifier record, before.graph.get? specifier = some record →
      (∃ contentHash output?, after.graph.get? specifier =
        some { record with contentHash, output? }) ∧
      ∀ code, HasCode before.store record code → ∃ result written,
        after.graph.get? specifier = some result ∧ HasCode after.store result written ∧
        AgreeOutside (slotsOf record.dependencies) code written := by
  intro before
  have get? (other : Specifier) :
      before.graph.get? other = if changed = other then replacement? else workspace.graph.get? other :=
    ModuleGraph.get?_replace _ (fun record own => (named record own).1) other
  have old {other : Specifier} (differ : other ≠ changed) :
      before.graph.get? other = workspace.graph.get? other := by
    rw [get?, if_neg (Ne.symm differ)]
  have indexed' : before.graph.Indexed := indexed.replace changed replacement?
  have known {other : Specifier} {record : ModuleRecord}
      (found : before.graph.get? other = some record) :
      workspace.graph.contains other ∨ other = changed := by
    by_cases same : other = changed
    · exact .inr same
    · exact .inl (by rw [ModuleGraph.contains_eq, ← old same, found, Option.isSome_some])
  have tokens : HasTokens before.graph := by
    refine hasTokens_of_sources fun other record found folds => ?_
    have shape : HashShaped record.sourceHash := by
      rw [get?] at found
      split at found
      · exact (named record found).2
      · exact shaped other record found
    exact shape.hasToken (loaded_of_folds folds)
  have within : ∀ other ∈ affected before.graph changed,
      workspace.graph.contains other ∨ other = changed := by
    intro other member
    obtain ⟨-, -, record, found, -⟩ := (ModuleGraph.mem_affected indexed').1 member
    exact known found
  have supplied : ∀ other ∈ affected before.graph changed, ∀ record,
      before.graph.get? other = some record → record.folds →
        ∃ code, HasCode before.store record code ∧ SlotsFit record.dependencies code.length := by
    intro other member record found folds
    obtain ⟨differ, -, ready⟩ := (ModuleGraph.mem_affected indexed').1 member
    obtain ⟨same, located, ready⟩ := ready
    rw [found, Option.some.injEq] at located
    rw [old differ] at found
    exact (consistent other record found (located ▸ ready) folds).hasCode
  obtain ⟨failures, steps, repaired⟩ := refreshAll_ok distinct (affected before.graph changed) within
    before {} inOrder indexed' tokens supplied
  refine ⟨failures, ?_, ?_, ?_⟩
  · intro other record differ found ready folds
    by_cases touched : other ∈ affected before.graph changed
    · exact repaired other touched record found folds
    · rw [steps.get?_other touched] at found
      obtain rfl := indexed'.keyed found
      have apart : ¬ TransGen before.graph.Imports record.specifier changed := fun leads =>
        touched ((ModuleGraph.mem_affected indexed').2 ⟨differ, leads, record, found, ready⟩)
      have views : ∀ other, other ≠ changed →
          before.graph.foldView? other = workspace.graph.foldView? other := fun other differ =>
        ModuleGraph.foldView?_congr (old differ)
      refine steps.consistent_other distinct within (known found) touched
        ((consistent _ record (old differ ▸ found) ready folds).congr ?_ ?_ fun _ => rfl)
      · refine ModuleGraph.contentHash?_of_apart views fun target reached => ?_
        rintro rfl
        exact (reflTransGen_iff_eq_or_transGen.1 reached).elim (differ ·.symm) apart
      · intro edge member static
        refine ModuleGraph.contentHash?_of_apart views fun target reached => ?_
        rintro rfl
        refine apart (TransGen.head' ⟨edge, ?_, rfl⟩ reached)
        rwa [ModuleGraph.dependencies_of_get? found]
  · intro other apart
    have untouched : other ∉ affected before.graph changed := by
      intro member
      obtain ⟨differ, leads, -⟩ := (ModuleGraph.mem_affected indexed').1 member
      exact apart.elim differ (· leads)
    refine ⟨steps.get?_other untouched, fun own hash => ?_⟩
    exact steps.blobs_other distinct within own.symm untouched hash
  · intro other record found
    refine ⟨?_, fun code has => ?_⟩
    · by_cases touched : other ∈ affected before.graph changed
      · obtain ⟨-, -, same, located, ready⟩ := (ModuleGraph.mem_affected indexed').1 touched
        rw [found, Option.some.injEq] at located
        refine steps.get?_touched found ?_
        simpa [located, ModuleRecord.isReady] using ready
      · exact ⟨record.contentHash, record.output?, by rw [steps.get?_other touched, found]⟩
    · obtain ⟨result, written, located, -, -, held, agree⟩ :=
        steps.hasCode distinct within (known found) found (indexed'.keyed found) has
      exact ⟨result, written, located, held, agree⟩

section Pair

def leafHash : String := String.ofList (List.replicate 64 'b')

def importerHash : String := String.ofList (List.replicate 64 'a')

def leafRecord : ModuleRecord :=
  { specifier := ⟨"/b.js"⟩
    sourceHash := leafHash
    contentHash := leafHash
    output? := some ⟨artifactKey ⟨"/b.js"⟩ leafHash, 0⟩
    state := .ready }

def importerRecord : ModuleRecord :=
  { specifier := ⟨"/a.js"⟩
    sourceHash := importerHash
    contentHash := foldHashes importerHash [leafHash]
    dependencies := [{ target := ⟨"/b.js"⟩, slot? := some ⟨0, 16⟩ }]
    output? := some ⟨artifactKey ⟨"/a.js"⟩ (foldHashes importerHash [leafHash]), 16⟩
    state := .ready }

/-- A module and another that imports it, with the token of the first in the code of the second. -/
def pair : Workspace where
  graph := (ModuleGraph.empty.insert leafRecord).insert importerRecord
  store :=
    { blobs := (OrderedMap.empty.insert (artifactKey ⟨"/b.js"⟩ leafHash) []).insert
        (artifactKey ⟨"/a.js"⟩ (foldHashes importerHash [leafHash]))
        (Utf8.encode (List.replicate 16 'b')) }

theorem get?_pair {specifier : Specifier} {record : ModuleRecord}
    (found : pair.graph.get? specifier = some record) :
    specifier = ⟨"/a.js"⟩ ∧ record = importerRecord ∨
      specifier = ⟨"/b.js"⟩ ∧ record = leafRecord := by
  simp only [pair, ModuleGraph.get?_insert] at found
  split at found
  · next same => exact .inl ⟨same.symm, (Option.some.inj found).symm⟩
  · split at found
    · next same => exact .inr ⟨same.symm, (Option.some.inj found).symm⟩
    · cases found

set_option maxRecDepth 20000 in
theorem ownerDigest_pair : ownerDigest ⟨"/a.js"⟩ ≠ ownerDigest ⟨"/b.js"⟩ := by decide +kernel

theorem distinct_pair :
    DigestsDistinct fun specifier => pair.graph.contains specifier ∨ specifier = ⟨"/b.js"⟩ := by
  have named {specifier : Specifier}
      (known : pair.graph.contains specifier = true ∨ specifier = ⟨"/b.js"⟩) :
      specifier = ⟨"/a.js"⟩ ∨ specifier = ⟨"/b.js"⟩ := by
    rcases known with inside | same
    · rw [ModuleGraph.contains_eq] at inside
      obtain ⟨record, found⟩ := Option.isSome_iff_exists.1 inside
      exact (get?_pair found).imp And.left And.left
    · exact .inr same
  intro first second one two same
  rcases named one with rfl | rfl <;> rcases named two with rfl | rfl
  · rfl
  · exact absurd same ownerDigest_pair
  · exact absurd same.symm ownerDigest_pair
  · rfl

theorem leaf_pair : pair.graph.contentHash? ⟨"/b.js"⟩ = some leafHash :=
  ModuleGraph.contentHash?_of_leaf (by decide +kernel)

theorem keys_pair (hash other : String) :
    artifactKey ⟨"/a.js"⟩ hash ≠ artifactKey ⟨"/b.js"⟩ other :=
  fun same => ownerDigest_pair (artifactKey_inj same).1

theorem fit_pair : SlotsFit importerRecord.dependencies 16 where
  width := by decide
  inside := by decide
  apart := by decide

theorem stamped_pair :
    Stamped pair.graph importerRecord.dependencies (Utf8.encode (List.replicate 16 'b')) := by
  intro edge member slot token stamp
  obtain rfl := List.mem_singleton.1 member
  obtain ⟨-, own, hash, text, hashed, cut, rfl⟩ := stamp?_eq_some stamp
  obtain rfl := Option.some.inj own
  rw [leaf_pair, Option.some.injEq] at hashed
  subst hashed
  have half : hashToken? leafHash = some (String.ofList (List.replicate 16 'b')) := by decide +kernel
  rw [half, Option.some.injEq] at cut
  subst cut
  decide +kernel

theorem consistent_pair (specifier : Specifier) (record : ModuleRecord)
    (found : pair.graph.get? specifier = some record) :
    Consistent pair.graph pair.store record := by
  rcases get?_pair found with ⟨-, rfl⟩ | ⟨-, rfl⟩
  · have importer : pair.graph.foldView? ⟨"/a.js"⟩ = some (importerHash, [⟨"/b.js"⟩]) := by
      decide +kernel
    refine ⟨ModuleGraph.contentHash?_over_leaf importer (by decide +kernel) (by decide), _,
      Utf8.encode (List.replicate 16 'b'), rfl, rfl, ?_, ?_, stamped_pair⟩
    · exact (OrderedMap.get?_insert _ _ _ _).trans (if_pos rfl)
    · exact fit_pair
  · refine ⟨leaf_pair, _, [], rfl, rfl, ?_, .nil 0, by simp [Stamped, leafRecord]⟩
    refine (OrderedMap.get?_insert _ _ _ _).trans ((if_neg (keys_pair _ _)).trans ?_)
    exact (OrderedMap.get?_insert _ _ _ _).trans (if_pos rfl)

theorem shaped_pair (specifier : Specifier) (record : ModuleRecord)
    (found : pair.graph.get? specifier = some record) : HashShaped record.sourceHash := by
  rcases get?_pair found with ⟨-, rfl⟩ | ⟨-, rfl⟩
  · exact .inr (by decide +kernel)
  · exact .inr (by decide +kernel)

/-- The importer of a module that is taken out is made consistent with a graph that lacks the module.
-/
theorem propagate_restores_consistency_pair :
    let before := { pair with graph := pair.graph.replace ⟨"/b.js"⟩ none }
    let (propagation, after) := before.propagate ⟨"/b.js"⟩
    propagation.failures = [] ∧ ∃ record, after.graph.get? ⟨"/a.js"⟩ = some record ∧
      Consistent after.graph after.store record := by
  obtain ⟨failures, consistent, -, kept⟩ := propagate_restores_consistency pair rfl
    ((ModuleGraph.Indexed.empty.insert _).insert _) shaped_pair ⟨"/b.js"⟩ distinct_pair
    (fun specifier record found _ _ => consistent_pair specifier record found) none (by simp)
  have before : (pair.graph.replace ⟨"/b.js"⟩ none).get? ⟨"/a.js"⟩ = some importerRecord := by
    rw [ModuleGraph.get?_replace _ (by simp), if_neg (by decide)]
    exact (ModuleGraph.get?_insert _ _ _).trans (if_pos rfl)
  obtain ⟨⟨contentHash, output?, found⟩, -⟩ := kept _ _ before
  have folds : importerRecord.folds := by decide +kernel
  have named : (⟨"/a.js"⟩ : Specifier) ≠ ⟨"/b.js"⟩ := by decide
  exact ⟨failures, _, found, consistent _ _ named found rfl 
    ((folds_congr _ importerRecord (by rfl) (by rfl)).trans folds)⟩

end Pair

end Workspace

end ModuleBuild
