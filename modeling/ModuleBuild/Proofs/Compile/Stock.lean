import ModuleBuild.Proofs.Compile.Grounded
import ModuleBuild.Proofs.Compile.Service
/-!
What is in the store, whatever specifiers are left alone and whatever the sources were: every ready module
that is compiled has its code there, a text with room for the tokens of its imports, and everything else in
the store is accounted for. No refresh fails in such a workspace.
-/

namespace ModuleBuild

open ModuleGraph Workspace ArtifactStore Pass Relation

/-- The output of a record is stored under a key of its module, and is as long as the record says. -/
def Filed (store : ArtifactStore) (record : ModuleRecord) : Prop :=
  ∀ output, record.output? = some output → ∃ hash code,
    output.key = artifactKey record.specifier hash ∧ store.blobs.get? output.key = some code ∧
      output.length = code.length

/-- A module has code, staged or stored: a text with room for the tokens of its imports. -/
structure Ample (store : ArtifactStore) (staged? : Option Bytes) (record : ModuleRecord) : Prop where
  compiled : record.isExternal = false
  hex : IsHex record.sourceHash
  filed : Filed store record
  code : ∃ code, (staged? = some code ∨ staged? = none ∧ HasCode store record code) ∧
    SlotsInText record.dependencies code

/-- What there is of a module. One that has output is ready, or waits to be settled. -/
inductive Stocked (store : ArtifactStore) (waiting? : Option (Option Bytes)) (record : ModuleRecord) : Prop
  | left (left : record.isExternal = true) (bare : record.output? = none)
      (hex : record.sourceHash = "" ∨ IsHex record.sourceHash)
  | bare (compiled : record.isExternal = false) (unready : record.isReady = false)
      (bare : record.output? = none) (hex : record.sourceHash = "" ∨ IsHex record.sourceHash)
  | ample (ample : Ample store waiting?.join record)
      (settled : record.isReady = true ∨ waiting?.isSome = true)

/-- The record of a module refers to a key. -/
def ModuleGraph.RefersTo (graph : ModuleGraph) (specifier : Specifier) (key : String) : Prop :=
  ∃ record output, graph.get? specifier = some record ∧ record.output? = some output ∧ output.key = key

/-- A sidecar belongs to a module that was loaded, and refers to a text with room for tokens: the code of the
module, if the module has any. -/
structure SidecarStocked (workspace : Workspace) (specifier : Specifier) (sidecar : Sidecar) : Prop where
  code : ∃ output hash code, sidecar.output? = some output ∧ output.key = artifactKey specifier hash ∧
    workspace.store.blobs.get? output.key = some code ∧ output.length = code.length ∧
    SlotsInText sidecar.dependencies code
  record : ∃ record, workspace.graph.get? specifier = some record ∧ record.isExternal = false ∧
    record.sourceHash ≠ "" ∧ ∀ output, record.output? = some output →
      ∃ noted, sidecar.output? = some noted ∧ noted.key = output.key

/-- A workspace whose store is accounted for; `astray` are the keys that no record refers to. -/
structure Stocks (astray : String → Prop) (backlog : Backlog) (workspace : Workspace) : Prop where
  inOrder : workspace.store.faults = .empty
  indexed : workspace.graph.Indexed
  record : ∀ {specifier record}, workspace.graph.get? specifier = some record →
    Stocked workspace.store (backlog specifier) record
  sidecar : ∀ {specifier sidecar}, workspace.store.sidecars.get? specifier = some sidecar →
    SidecarStocked workspace specifier sidecar
  keys : ∀ {key code}, workspace.store.blobs.get? key = some code →
    (∃ specifier, workspace.graph.RefersTo specifier key) ∨ astray key

theorem IsHex.ne_empty {hash : String} (hex : IsHex hash) : hash ≠ "" := by
  rintro rfl
  obtain ⟨bytes, empty⟩ := hex
  have long := tokenLength_le_hex bytes
  rw [← empty] at long
  exact absurd long (by decide)

theorem Filed.of_bare {store : ArtifactStore} {record : ModuleRecord} (bare : record.output? = none) :
    Filed store record := by
  intro output own
  cases bare.symm.trans own

theorem Filed.congr {first second : ArtifactStore} {record : ModuleRecord} (filed : Filed first record)
    (same : ∀ hash, second.blobs.get? (artifactKey record.specifier hash) =
      first.blobs.get? (artifactKey record.specifier hash)) : Filed second record := by
  intro output own
  obtain ⟨hash, code, key, stored, length⟩ := filed output own
  exact ⟨hash, code, key, by rw [key, same, ← key, stored], length⟩

theorem Filed.owned {store : ArtifactStore} {record : ModuleRecord} (filed : Filed store record) :
    OwnsOutput record.specifier record.output? := by
  intro output own
  obtain ⟨hash, _, key, -⟩ := filed output own
  exact ⟨hash, key⟩

namespace Ample

variable {store : ArtifactStore} {staged? : Option Bytes} {record : ModuleRecord}

theorem loaded (ample : Ample store staged? record) : record.sourceHash ≠ "" := ample.hex.ne_empty

theorem folds (ample : Ample store staged? record) : record.folds := by
  simp [ModuleRecord.folds, ample.compiled, ample.loaded]

theorem congr {second : ArtifactStore} (ample : Ample store staged? record)
    (same : ∀ hash, second.blobs.get? (artifactKey record.specifier hash) =
      store.blobs.get? (artifactKey record.specifier hash)) : Ample second staged? record := by
  obtain ⟨code, source, fits⟩ := ample.code
  exact ⟨ample.compiled, ample.hex, ample.filed.congr same,
    ⟨code, source.imp_right (.imp_right (·.congr same)), fits⟩⟩

theorem inText (ample : Ample store none record) {code : Bytes} (has : HasCode store record code) :
    SlotsInText record.dependencies code := by
  obtain ⟨output, _, own, -, stored⟩ := has
  obtain ⟨code', source, fits⟩ := ample.code
  obtain ⟨-, output', _, own', -, stored'⟩ := source.resolve_left nofun
  obtain rfl := Option.some.inj (own'.symm.trans own)
  obtain rfl := Option.some.inj (stored'.symm.trans stored)
  exact fits

end Ample

namespace Stocked

variable {store : ArtifactStore} {waiting? : Option (Option Bytes)} {record : ModuleRecord}

theorem hex (stocked : Stocked store waiting? record) :
    record.sourceHash = "" ∨ IsHex record.sourceHash := by
  cases stocked with
  | left _ _ hex => exact hex
  | bare _ _ _ hex => exact hex
  | ample ample => exact .inr ample.hex

theorem filed (stocked : Stocked store waiting? record) : Filed store record := by
  cases stocked with
  | left _ bare => exact .of_bare bare
  | bare _ _ bare => exact .of_bare bare
  | ample ample => exact ample.filed

theorem loaded (stocked : Stocked store waiting? record) {output : OutputReference}
    (own : record.output? = some output) : record.sourceHash ≠ "" := by
  cases stocked with
  | left _ bare => cases bare.symm.trans own
  | bare _ _ bare => cases bare.symm.trans own
  | ample ample => exact ample.loaded

theorem congr {second : ArtifactStore} (stocked : Stocked store waiting? record)
    (same : ∀ hash, second.blobs.get? (artifactKey record.specifier hash) =
      store.blobs.get? (artifactKey record.specifier hash)) : Stocked second waiting? record := by
  cases stocked with
  | left left bare hex => exact .left left bare hex
  | bare compiled unready bare hex => exact .bare compiled unready bare hex
  | ample ample settled => exact .ample (ample.congr same) settled

theorem of_ready (stocked : Stocked store none record) (ready : record.isReady = true)
    (compiled : record.isExternal = false) : Ample store none record := by
  cases stocked with
  | left left => cases compiled.symm.trans left
  | bare _ unready => cases unready.symm.trans ready
  | ample ample => exact ample

theorem output?_ne_none_iff (stocked : Stocked store none record) :
    record.output? ≠ none ↔ record.isReady = true ∧ record.isExternal = false := by
  cases stocked with
  | left left bare => simp [left, bare]
  | bare _ unready bare => simp [unready, bare]
  | ample ample settled =>
    obtain ⟨code, source, -⟩ := ample.code
    obtain ⟨-, output, -, own, -⟩ := source.resolve_left nofun
    have ready := settled.resolve_right nofun
    simp [own, ready, ample.compiled]

end Stocked

theorem SidecarStocked.congr {first second : Workspace} {specifier : Specifier} {sidecar : Sidecar}
    (stocked : SidecarStocked first specifier sidecar)
    (same : second.graph.get? specifier = first.graph.get? specifier)
    (blobs : ∀ hash, second.store.blobs.get? (artifactKey specifier hash) =
      first.store.blobs.get? (artifactKey specifier hash)) :
    SidecarStocked second specifier sidecar := by
  obtain ⟨output, hash, code, noted, key, stored, rest⟩ := stocked.code
  exact ⟨⟨output, hash, code, noted, key, by rw [key, blobs, ← key, stored], rest⟩, same ▸ stocked.record⟩

theorem Workspace.IsBlank.stocks {workspace : Workspace} (blank : workspace.IsBlank)
    (astray : String → Prop) : Stocks astray .clear workspace where
  inOrder := blank.inOrder
  indexed := blank.graph ▸ .empty
  record found := absurd found blank.not_found
  sidecar found := by simp [blank.sidecars] at found
  keys found := by simp [blank.blobs] at found

/-! ## Changes of one module -/

/-- One module is changed in a workspace, and others are mentioned. -/
structure Alters (specifier : Specifier) (first second : Workspace) : Prop where
  setup : SameSetup first.store second.store
  indexed : second.graph.Indexed
  others : ∀ other, other ≠ specifier →
    Mentioned other (first.graph.get? other) (second.graph.get? other)
  blobs : ∀ other record, first.graph.get? other = some record → other ≠ specifier → ∀ hash,
    second.store.blobs.get? (artifactKey other hash) = first.store.blobs.get? (artifactKey other hash)
  sidecars : ∀ other, other ≠ specifier →
    second.store.sidecars.get? other = first.store.sidecars.get? other

namespace Mentioned

variable {first second : ModuleGraph} {specifier : Specifier} {key : String}
  (mentioned : Mentioned specifier (first.get? specifier) (second.get? specifier))

include mentioned

theorem refersTo (loaded : ∀ record output, first.get? specifier = some record →
      record.output? = some output → record.sourceHash ≠ "")
    (refers : first.RefersTo specifier key) : second.RefersTo specifier key := by
  obtain ⟨record, output, found, own, same⟩ := refers
  exact ⟨record, output, mentioned.of_loaded found (loaded record output found own), own, same⟩

theorem of_refersTo (refers : second.RefersTo specifier key) : first.RefersTo specifier key := by
  obtain ⟨record, output, found, own, same⟩ := refers
  cases mentioned with
  | same kept => exact ⟨record, output, kept ▸ found, own, same⟩
  | created _ there =>
    obtain rfl := Option.some.inj (there.symm.trans found)
    cases own
  | external _ there =>
    obtain rfl := Option.some.inj (there.symm.trans found)
    cases own

end Mentioned

namespace Stocks

variable {astray more : String → Prop} {backlog later : Backlog} {first second workspace : Workspace}

theorem isHex (stocks : Stocks astray backlog workspace) :
    ∀ specifier hash, workspace.graph.contentHash? specifier = some hash → IsHex hash :=
  contentHash?_of_sources (fun _ imports hex => hex.foldHashes imports) fun _ _ found folds =>
    (stocks.record found).hex.resolve_left (loaded_of_folds folds)

theorem hasTokens (stocks : Stocks astray backlog workspace) : HasTokens workspace.graph :=
  fun specifier hash hashed => (stocks.isHex specifier hash hashed).hasToken

theorem keyed (stocks : Stocks astray backlog workspace) : workspace.graph.Keyed :=
  fun _ _ => stocks.indexed.keyed

theorem congr (stocks : Stocks astray backlog workspace) (same : later = backlog) :
    Stocks astray later workspace := same ▸ stocks

theorem mono (stocks : Stocks astray backlog workspace) (wider : ∀ key, astray key → more key) :
    Stocks more backlog workspace :=
  { stocks with keys := fun {key code} stored => (@Stocks.keys _ _ _ stocks key code stored).imp_right (wider key) }

/-- The store stays accounted for if one module changes, and what is left of it is accounted for. -/
theorem alter {specifier : Specifier} (stocks : Stocks astray backlog first)
    (alters : Alters specifier first second)
    (same : ∀ other, other ≠ specifier → later other = backlog other)
    (record : ∀ record, second.graph.get? specifier = some record →
      Stocked second.store (later specifier) record)
    (sidecar : ∀ sidecar, second.store.sidecars.get? specifier = some sidecar →
      SidecarStocked second specifier sidecar)
    (keys : ∀ key code, second.store.blobs.get? key = some code →
      second.graph.RefersTo specifier key ∨ more key ∨
        (∃ code, first.store.blobs.get? key = some code) ∧ ¬ first.graph.RefersTo specifier key)
    (wider : ∀ key, astray key → more key) : Stocks more later second where
  inOrder := alters.setup.faults.trans stocks.inOrder
  indexed := alters.indexed
  record := by
    intro other found located
    by_cases self : other = specifier
    · exact self ▸ record found (self ▸ located)
    · rw [same other self]
      cases alters.others other self with
      | same kept =>
        have there := kept ▸ located
        obtain rfl := stocks.indexed.keyed there
        exact (stocks.record there).congr (alters.blobs _ _ there self)
      | created _ located' =>
        obtain rfl := Option.some.inj (located'.symm.trans located)
        exact .bare rfl rfl rfl (.inl rfl)
      | external _ located' =>
        obtain rfl := Option.some.inj (located'.symm.trans located)
        exact .left rfl rfl (.inl rfl)
  sidecar := by
    intro other found located
    by_cases self : other = specifier
    · subst self
      exact sidecar found located
    · have stocked := stocks.sidecar (alters.sidecars other self ▸ located)
      obtain ⟨record, there, -, loaded, -⟩ := stocked.record
      have kept := (alters.others other self).of_loaded there loaded
      exact stocked.congr (kept.trans there.symm) (alters.blobs _ _ there self)
  keys := by
    intro key code stored
    rcases keys key code stored with own | known | ⟨⟨old, stored'⟩, apart⟩
    · exact .inl ⟨specifier, own⟩
    · exact .inr known
    -- a key that some other module refers to is still its own
    · refine (stocks.keys stored').imp ?_ (wider key)
      rintro ⟨other, refers⟩
      have differ : other ≠ specifier := by
        rintro rfl
        exact apart refers
      exact ⟨other, (alters.others other differ).refersTo
        (fun _ _ found own => (stocks.record found).loaded own) refers⟩

end Stocks

/-! ## Refreshes -/

section Refresh

variable {astray : String → Prop} {backlog : Backlog} {modules : Specifier → Prop}
  (distinct : DigestsDistinct modules) {before after : Workspace}
  (within : ∀ {specifier record}, before.graph.get? specifier = some record → modules specifier)
  (stocks : Stocks astray backlog before) {record result : ModuleRecord} {hash : String} {code : Bytes}
  (found : before.graph.get? record.specifier = some record) {staged? : Option Bytes}
  (ample : Ample before.store staged? record)

section Refreshed

variable (refreshes : Refreshes before after record result hash code)
  (length : ∀ output, result.output? = some output → output.length = code.length)

include distinct within stocks found ample refreshes

theorem Workspace.Refreshes.alters : Alters record.specifier before after where
  setup := refreshes.setup
  indexed := refreshes.indexed found stocks.indexed
  others _ differ := .same (refreshes.get?_other differ)
  blobs _ _ there differ :=
    refreshes.blobs_other distinct (within found) ample.filed.owned (within there) differ
  sidecars := refreshes.sidecars

omit distinct within found in
include length in
theorem Ample.refreshed (fits : SlotsInText record.dependencies code) : Ample after.store none result := by
  obtain ⟨size, updated, -⟩ := refreshes.updated
  obtain ⟨written, stored, agree, stamped⟩ := refreshes.stored
  refine
    { compiled := by rw [updated]; exact ample.compiled
      hex := by rw [updated]; exact ample.hex
      filed := fun output own => ⟨hash, written, ?_, ?_, (length output own).trans agree.length⟩
      code := ⟨written, .inr ⟨rfl, _, hash, by rw [updated], ?_, stored⟩, ?_⟩ }
  · rw [updated] at own ⊢
    obtain rfl := Option.some.inj own
    rfl
  · rw [updated] at own
    obtain rfl := Option.some.inj own
    exact stored
  · rw [updated]
  · rw [refreshes.dependencies]
    exact stamped.slotsInText stocks.isHex fits agree

omit distinct within in
include length in
theorem Workspace.Refreshes.sidecarStocked (fits : SlotsInText record.dependencies code)
    {sidecar : Sidecar} (there : after.store.sidecars.get? record.specifier = some sidecar) :
    SidecarStocked after record.specifier sidecar := by
  obtain ⟨size, updated, -⟩ := refreshes.updated
  obtain ⟨written, stored, agree, stamped⟩ := refreshes.stored
  have own : result.output? = some ⟨artifactKey record.specifier hash, size⟩ := by rw [updated]
  have compiled : result.isExternal = false := by rw [updated]; exact ample.compiled
  have loaded : result.sourceHash ≠ "" := by rw [updated]; exact ample.loaded
  have fresh (rewritten : after.store.sidecars.get? record.specifier =
      some (Sidecar.ofRecord result (externalsFrom before.graph record.dependencies))) :
      SidecarStocked after record.specifier sidecar := by
    obtain rfl := Option.some.inj (there.symm.trans rewritten)
    refine ⟨⟨_, hash, written, own, rfl, stored, (length _ own).trans agree.length, ?_⟩, result,
      refreshes.get?_self, compiled, loaded, fun output same => ⟨output, same, rfl⟩⟩
    rw [Sidecar.ofRecord, refreshes.dependencies]
    exact stamped.slotsInText stocks.isHex fits agree
  rcases refreshes.sidecar with rewritten | ⟨kept, blobs⟩
  · exact fresh rewritten
  · by_cases stays : ∃ old, record.output? = some old ∧ old.key = artifactKey record.specifier hash
    · obtain ⟨old, own', same⟩ := stays
      have stocked := stocks.sidecar (kept ▸ there)
      obtain ⟨noted, hash', code', noted?, key, stored', rest⟩ := stocked.code
      obtain ⟨other, found', -, -, keys⟩ := stocked.record
      obtain rfl := Option.some.inj (found'.symm.trans found)
      obtain ⟨noted', noted?', key'⟩ := keys old own'
      refine ⟨⟨noted, hash', code', noted?, key, by rw [blobs, stored'], rest⟩, result,
        refreshes.get?_self, compiled, loaded, fun output own'' => ⟨noted', noted?', ?_⟩⟩
      obtain rfl := Option.some.inj (own.symm.trans own'')
      rw [key', same]
    · exact fresh (refreshes.rewritten fun old own' same => stays ⟨old, own', same⟩)

include length in
/-- A module that was refreshed no longer waits, and the store is accounted for. -/
theorem Workspace.Refreshes.restocks (fits : SlotsInText record.dependencies code) {later : Backlog}
    (done : later record.specifier = none)
    (same : ∀ other, other ≠ record.specifier → later other = backlog other) :
    Stocks astray later after := by
  obtain ⟨size, updated, -⟩ := refreshes.updated
  have own : result.output? = some ⟨artifactKey record.specifier hash, size⟩ := by rw [updated]
  have ready : result.isReady = true := by rw [updated]; rfl
  refine stocks.alter (refreshes.alters distinct within stocks found ample) same (fun new there => ?_)
    (fun sidecar there => refreshes.sidecarStocked stocks found ample length fits there)
    (fun key code' stored => ?_) fun _ => id
  · obtain rfl := Option.some.inj (refreshes.get?_self.symm.trans there)
    exact .ample (done ▸ ample.refreshed stocks refreshes length fits) (.inl ready)
  · by_cases new : key = artifactKey record.specifier hash
    · exact .inl ⟨result, _, refreshes.get?_self, own, new.symm⟩
    · -- what the record referred to before is gone by now
      have apart : ∀ old, record.output? = some old → key ≠ old.key := by
        rintro old own' rfl
        cases (refreshes.dropped old own' new).symm.trans stored
      refine .inr (.inr ⟨⟨code', (refreshes.blobs key new apart).symm.trans stored⟩, ?_⟩)
      rintro ⟨old, output, there, own', equal⟩
      obtain rfl := Option.some.inj (there.symm.trans found)
      exact apart output own' equal.symm

end Refreshed

omit distinct within stocks found in
include ample in
theorem Workspace.Refreshes.fills (refreshes : Refreshes before after record result hash code)
    (has : HasCode before.store record code) :
    ∀ output, result.output? = some output → output.length = code.length := by
  refine refreshes.length fun output own => ?_
  obtain ⟨output', _, own', -, stored⟩ := has
  obtain ⟨_, code', -, stored', long⟩ := ample.filed output own
  obtain rfl := Option.some.inj (own'.symm.trans own)
  obtain rfl := Option.some.inj (stored'.symm.trans stored)
  exact long

include distinct within stocks found ample

/-- A module that has code is refreshed, and no longer waits. -/
theorem Stocks.refresh {later : Backlog} (done : later record.specifier = none)
    (same : ∀ other, other ≠ record.specifier → later other = backlog other) :
    ∃ refreshed after hash code, before.refresh record.specifier staged? =
        (.ok (some refreshed), after) ∧
      Refreshes before after record refreshed.record hash code ∧
      (staged? = some code ∨ staged? = none ∧ HasCode before.store record code) ∧
      SlotsFit record.dependencies code.length ∧
      refreshed.hashChanged = (record.contentHash != hash) ∧
      (∀ output, refreshed.record.output? = some output → output.length = code.length) ∧
      Stocks astray later after := by
  obtain ⟨code, source, fits⟩ := ample.code
  obtain ⟨refreshed, after, hash, refresh, refreshes, changed, -, fills⟩ :=
    refresh_ok stocks.inOrder found ample.folds stocks.hasTokens fits.fit
      (source.imp_right (.imp_right fun ⟨output, _, own, _, stored⟩ => ⟨output, own, stored⟩))
  have length : ∀ output, refreshed.record.output? = some output → output.length = code.length := by
    rcases source with staged | ⟨-, has⟩
    · exact (fills (by rw [staged]; rfl)).1
    · exact refreshes.fills ample has
  exact ⟨refreshed, after, hash, code, refresh, refreshes, source, fits.fit, changed, length,
    refreshes.restocks distinct within stocks found ample length fits done same⟩

end Refresh

/-! ## Repairs -/

section Repair

variable {astray : String → Prop} {modules : Specifier → Prop} (distinct : DigestsDistinct modules)
  {workspace : Workspace}
  (within : ∀ {specifier record}, workspace.graph.get? specifier = some record → modules specifier)
  (stocks : Stocks astray .clear workspace)

omit distinct within in
include stocks in
/-- A module at rest that takes part in content hashes and has code was compiled and is ready. -/
theorem Stocks.ample_of_hasCode {record : ModuleRecord}
    (found : workspace.graph.get? record.specifier = some record) {code : Bytes}
    (has : HasCode workspace.store record code) : Ample workspace.store none record := by
  obtain ⟨output, _, own, -⟩ := has
  obtain ⟨ready, compiled⟩ := (stocks.record found).output?_ne_none_iff.1 (by simp [own])
  exact (stocks.record found).of_ready ready compiled

include distinct within stocks

theorem Stocks.refreshStep {touched : Specifier → Prop} {after : Workspace}
    (step : RefreshStep touched workspace after) : Stocks astray .clear after := by
  obtain ⟨record, result, hash, code, -, found, -, has, -, refreshes⟩ := step
  have ample := stocks.ample_of_hasCode found has
  exact refreshes.restocks distinct within stocks found ample (refreshes.fills ample has)
    (ample.inText has) rfl fun _ _ => rfl

theorem Stocks.refreshSteps {touched : Specifier → Prop} {after : Workspace}
    (steps : RefreshSteps touched workspace after) : Stocks astray .clear after := by
  induction steps with
  | refl => exact stocks
  | tail earlier step kept =>
    refine kept.refreshStep distinct (fun {_ _} there => ?_) step
    obtain ⟨old, there', -⟩ := (RefreshSteps.revises earlier).of_get? there
    exact within there'

/-- The importers of a module were repaired, and are consistent. -/
structure Repaired (astray : String → Prop) (changed : Specifier) (before after : Workspace) : Prop where
  stocks : Stocks astray .clear after
  steps : RefreshSteps (· ∈ affected before.graph changed) before after
  consistent : ∀ other ∈ affected before.graph changed, ∀ record, after.graph.get? other = some record →
    record.folds → Consistent after.graph after.store record

theorem Stocks.propagate (changed : Specifier) : (workspace.propagate changed).1.failures = [] ∧
    Repaired astray changed workspace (workspace.propagate changed).2 := by
  have supplied : ∀ other ∈ affected workspace.graph changed, ∀ record,
      workspace.graph.get? other = some record → record.folds →
        ∃ code, HasCode workspace.store record code ∧ SlotsFit record.dependencies code.length := by
    intro other member record found folds
    obtain ⟨-, -, _, there, ready⟩ := (mem_affected stocks.indexed).1 member
    obtain rfl := Option.some.inj (found.symm.trans there)
    have compiled : record.isExternal = false := by simp_all [ModuleRecord.folds]
    obtain ⟨code, source, fits⟩ := ((stocks.record found).of_ready ready compiled).code
    rcases source with staged | ⟨-, stored⟩
    · cases staged
    · exact ⟨code, stored, fits.fit⟩
  have known : ∀ other ∈ affected workspace.graph changed, modules other := by
    intro other member
    obtain ⟨-, -, _, there, -⟩ := (mem_affected stocks.indexed).1 member
    exact within there
  have repaired := refreshAll_ok distinct (affected workspace.graph changed) known workspace {}
    stocks.inOrder stocks.indexed stocks.hasTokens supplied
  unfold Workspace.propagate
  generalize Workspace.refreshAll workspace {} (affected workspace.graph changed) = result at repaired ⊢
  obtain ⟨failures, steps, consistent⟩ := repaired
  exact ⟨failures, stocks.refreshSteps distinct within steps, steps, consistent⟩

theorem Stocks.repairImporters (report : PassReport) (changed : Specifier) :
    (workspace.repairImporters report changed).2 = (workspace.propagate changed).2 ∧
      (workspace.repairImporters report changed).1.outcomes = report.outcomes ∧
      ∀ specifier ∈ report.changed, specifier ∈ (workspace.repairImporters report changed).1.changed := by
  have failures := (stocks.propagate distinct within changed).1
  unfold Workspace.repairImporters
  generalize workspace.propagate changed = result at failures ⊢
  exact PassReport.absorb_ok failures report result.2

omit distinct within in
theorem Stocks.remove {specifier : Specifier} {record : ModuleRecord}
    (found : workspace.graph.get? specifier = some record) (bare : record.output? = none) :
    Stocks astray .clear (workspace.remove specifier) := by
  rw [remove_eq stocks.inOrder found bare]
  have erased := get?_erase workspace.graph specifier
  have gone := (erased specifier).trans (if_pos rfl)
  have alters : Alters specifier workspace
      { workspace with
        graph := (workspace.graph.erase specifier).1
        store := { workspace.store with sidecars := workspace.store.sidecars.erase specifier } } :=
    { setup := ⟨rfl, rfl, rfl⟩
      indexed := stocks.indexed.erase specifier
      others := fun other differ => .same ((erased other).trans (if_neg (Ne.symm differ)))
      blobs := fun _ _ _ _ _ => rfl
      sidecars := fun other differ => (OrderedMap.get?_erase _ _ _).trans (if_neg (Ne.symm differ)) }
  refine stocks.alter alters (fun _ _ => rfl) (fun new there => ?_) (fun sidecar there => ?_)
    (fun key code stored => .inr (.inr ⟨⟨code, stored⟩, ?_⟩)) fun _ => id
  · cases there.symm.trans gone
  · cases there.symm.trans ((OrderedMap.get?_erase _ _ _).trans (if_pos rfl))
  · rintro ⟨other, output, there, own, -⟩
    obtain rfl := Option.some.inj (there.symm.trans found)
    cases bare.symm.trans own

end Repair

end ModuleBuild
