import ModuleBuild.Proofs.Compile.Reached
/-!
What a workspace needs so that no refresh fails in it, whatever its sources were when they were compiled:
of stored code no more is asked than that it has room for the tokens of imports. So nothing here depends
on hashes of sources telling sources apart.

Also what refreshes do to the content hashes that are noted in records: a hash that moves, moves to what
follows from the graph, and no further.
-/

namespace ModuleBuild

open ModuleGraph Workspace ArtifactStore Pass Relation

/-! ## Content hashes in records -/

namespace ModuleGraph

/-- The content hash in the record of a module; empty if there is no record. -/
def storedHash (graph : ModuleGraph) (specifier : Specifier) : String :=
  ((graph.get? specifier).map (·.contentHash)).getD ""

variable {first second third : ModuleGraph} {specifier : Specifier}

theorem storedHash_of_get? {record : ModuleRecord} (found : first.get? specifier = some record) :
    first.storedHash specifier = record.contentHash := by
  simp [storedHash, found]

theorem storedHash_congr (same : second.get? specifier = first.get? specifier) :
    second.storedHash specifier = first.storedHash specifier := by
  rw [storedHash, same, storedHash]

theorem GrowsAt.storedHash {leaf : Specifier → Prop} (grows : GrowsAt leaf first second specifier) :
    second.storedHash specifier = first.storedHash specifier := by
  rcases grows with same | ⟨absent, record, found, ⟨-, rfl⟩ | ⟨-, rfl⟩⟩
  · exact storedHash_congr same
  · simp [ModuleGraph.storedHash, absent, found, ModuleRecord.external]
  · simp [ModuleGraph.storedHash, absent, found, ModuleRecord.awaiting]

theorem storedHash_mention (graph : ModuleGraph) (target specifier : Specifier) :
    (graph.mention target).storedHash specifier = graph.storedHash specifier := by
  rw [storedHash, get?_mention]
  split
  · next same =>
    subst same
    rw [storedHash]
    cases graph.get? target <;> rfl
  · rfl

/-- Content hashes were noted anew. What they see is the same, and a noted hash that is not what it was is
the one that follows from the graph. -/
structure Rehashes (first second : ModuleGraph) : Prop where
  views : ∀ specifier, second.foldView? specifier = first.foldView? specifier
  noted : ∀ specifier, second.storedHash specifier = first.storedHash specifier ∨
    second.contentHash? specifier = some (second.storedHash specifier)

theorem Rehashes.refl (graph : ModuleGraph) : graph.Rehashes graph := ⟨fun _ => rfl, fun _ => .inl rfl⟩

theorem Rehashes.contentHash? (rehashes : Rehashes first second) (specifier : Specifier) :
    second.contentHash? specifier = first.contentHash? specifier :=
  contentHash?_congr fun _ _ => rehashes.views _

theorem Rehashes.trans (one : Rehashes first second) (two : Rehashes second third) :
    Rehashes first third := by
  refine ⟨fun specifier => (two.views specifier).trans (one.views specifier), fun specifier => ?_⟩
  refine (two.noted specifier).imp_left id |>.elim (fun same => ?_) .inr
  rw [same, two.contentHash?]
  exact one.noted specifier

theorem Rehashes.moved_trans (one : Rehashes first second) (two : Rehashes second third)
    (specifier : Specifier) :
    third.storedHash specifier ≠ first.storedHash specifier ↔
      second.storedHash specifier ≠ first.storedHash specifier ∨
        third.storedHash specifier ≠ second.storedHash specifier := by
  have settled (moved : second.storedHash specifier ≠ first.storedHash specifier) :
      third.storedHash specifier = second.storedHash specifier := by
    have derived := (one.noted specifier).resolve_left moved
    rcases two.noted specifier with same | derived'
    · exact same
    · rw [two.contentHash?, derived] at derived'
      exact (Option.some.inj derived').symm
  constructor
  · intro moved
    by_cases same : second.storedHash specifier = first.storedHash specifier
    · exact .inr (same ▸ moved)
    · exact .inl same
  · rintro (moved | moved)
    · exact settled moved ▸ moved
    · intro same
      by_cases kept : second.storedHash specifier = first.storedHash specifier
      · exact moved (same.trans kept.symm)
      · exact moved (settled kept)

end ModuleGraph

theorem Workspace.Refreshes.storedHash {before after : Workspace} {record result : ModuleRecord}
    {hash : String} {code : Bytes} (refreshes : Refreshes before after record result hash code) :
    after.graph.storedHash record.specifier = hash := by
  obtain ⟨length, updated, -⟩ := refreshes.updated
  rw [storedHash_of_get? refreshes.get?_self, updated]

theorem Workspace.Refreshes.rehashes {before after : Workspace} {record result : ModuleRecord}
    {hash : String} {code : Bytes} (refreshes : Refreshes before after record result hash code)
    (found : before.graph.get? record.specifier = some record) :
    before.graph.Rehashes after.graph := by
  refine ⟨refreshes.foldView? found, fun specifier => ?_⟩
  by_cases same : specifier = record.specifier
  · rw [same, refreshes.storedHash, refreshes.contentHash? found]
    exact .inr refreshes.hashed
  · exact .inl (storedHash_congr (refreshes.get?_other same))

/-! ## What a refresh needs -/

variable {modules leaf : Specifier → Prop}

/-- A module has code, staged or stored, with room for the tokens of its imports. -/
structure Held (modules leaf : Specifier → Prop) (workspace : Workspace) (staged? : Option Bytes)
    (record : ModuleRecord) : Prop where
  compiled : record.isExternal = false
  token : HasToken record.sourceHash
  owned : OwnsOutput record.specifier record.output?
  code : ∃ code, (staged? = some code ∨ staged? = none ∧ HasCode workspace.store record code) ∧
    SlotsFit record.dependencies code.length
  targets : ∀ edge ∈ record.dependencies, modules edge.target ∨
    leaf edge.target ∧ ∃ other, workspace.graph.get? edge.target = some other

inductive Serves (modules leaf : Specifier → Prop) (workspace : Workspace) (staged? : Option Bytes)
    (specifier : Specifier) (record : ModuleRecord) : Prop
  | left (isLeaf : leaf specifier) (left : record.IsLeftAlone specifier)
  | held (own : modules specifier) (held : Held modules leaf workspace staged? record)

/-- What is still to be settled, each module with its staged code if it has some. -/
abbrev Backlog := Specifier → Option (Option Bytes)

/-- Of a module that is neither in the backlog nor ready, nothing is noted. -/
inductive InService (modules leaf : Specifier → Prop) (workspace : Workspace)
    (waiting? : Option (Option Bytes)) (specifier : Specifier) (record : ModuleRecord) : Prop
  | bare (own : modules specifier) (bare : record = .awaiting specifier ∨ HasFailed record)
  | serves (serves : Serves modules leaf workspace waiting?.join specifier record)
      (settled : record.isReady = true ∨ waiting?.isSome = true)

/-- What a sidecar refers to has room for the tokens of imports, too. -/
structure SidecarFits (modules leaf : Specifier → Prop) (store : ArtifactStore)
    (specifier : Specifier) (sidecar : Sidecar) : Prop where
  named : sidecar.specifier = specifier
  code : ∃ output hash code, sidecar.output? = some output ∧ output.key = artifactKey specifier hash ∧
    store.blobs.get? output.key = some code ∧ SlotsFit sidecar.dependencies code.length
  targets : ∀ edge ∈ sidecar.dependencies, modules edge.target ∨
    leaf edge.target ∧ edge.target ∈ sidecar.externals
  leaves : ∀ target ∈ sidecar.externals, leaf target

structure Serviceable (modules leaf : Specifier → Prop) (backlog : Backlog) (workspace : Workspace) :
    Prop where
  inOrder : workspace.store.faults = .empty
  indexed : workspace.graph.Indexed
  record : ∀ {specifier record}, workspace.graph.get? specifier = some record →
    InService modules leaf workspace (backlog specifier) specifier record
  sidecar : ∀ {specifier sidecar}, modules specifier →
    workspace.store.sidecars.get? specifier = some sidecar →
    SidecarFits modules leaf workspace.store specifier sidecar

theorem Held.folds {workspace : Workspace} {staged? : Option Bytes} {record : ModuleRecord}
    (held : Held modules leaf workspace staged? record) : record.folds := by
  have loaded : record.sourceHash ≠ "" := by
    intro empty
    obtain ⟨token, cut, long⟩ := held.token
    rw [empty] at cut
    obtain rfl : "" = token := Option.some.inj cut
    cases long
  simp [ModuleRecord.folds, held.compiled, loaded]

theorem SidecarFits.congr {first second : ArtifactStore} {specifier : Specifier} {sidecar : Sidecar}
    (fits : SidecarFits modules leaf first specifier sidecar)
    (same : ∀ hash, second.blobs.get? (artifactKey specifier hash) =
      first.blobs.get? (artifactKey specifier hash)) :
    SidecarFits modules leaf second specifier sidecar := by
  obtain ⟨output, hash, code, output?, key, stored, fit⟩ := fits.code
  exact { fits with code := ⟨output, hash, code, output?, key, by rw [key, same, ← key, stored], fit⟩ }

namespace InService

variable {workspace : Workspace} {waiting? : Option (Option Bytes)} {specifier : Specifier}
  {record : ModuleRecord}

theorem token (service : InService modules leaf workspace waiting? specifier record) :
    record.sourceHash = "" ∨ HasToken record.sourceHash := by
  cases service with
  | bare _ bare =>
    rcases bare with rfl | failed
    · exact .inl rfl
    · exact failed.token
  | serves serves =>
    cases serves with
    | left _ left =>
      obtain ⟨_, rfl⟩ := left
      exact .inl rfl
    | held _ held => exact .inr held.token

theorem owned (service : InService modules leaf workspace waiting? specifier record)
    (named : record.specifier = specifier) : OwnsOutput specifier record.output? := by
  intro output output?
  cases service with
  | bare _ bare =>
    rcases bare with rfl | failed
    · cases output?
    · cases output?.symm.trans failed.output
  | serves serves =>
    cases serves with
    | left _ left =>
      obtain ⟨_, rfl⟩ := left
      cases output?
    | held _ held => exact named ▸ held.owned output output?

theorem contentHash_of_unready (service : InService modules leaf workspace none specifier record)
    (unready : record.isReady = false) : record.contentHash = "" := by
  cases service with
  | bare _ bare =>
    rcases bare with rfl | failed
    · rfl
    · exact failed.hash
  | serves _ settled =>
    rcases settled with ready | waiting
    · cases unready.symm.trans ready
    · cases waiting

theorem serves_of_ready (service : InService modules leaf workspace waiting? specifier record)
    (ready : record.isReady = true) : Serves modules leaf workspace waiting?.join specifier record := by
  cases service with
  | bare _ bare =>
    rcases bare with rfl | failed
    · cases ready
    · exact absurd ready failed.not_ready
  | serves serves => exact serves

variable (apart : ∀ {specifier}, modules specifier → ¬ leaf specifier)

include apart

theorem classed (service : InService modules leaf workspace waiting? specifier record) :
    leaf specifier ∧ record.IsLeftAlone specifier ∨ ¬ leaf specifier ∧ record.isExternal = false := by
  cases service with
  | bare own bare =>
    rcases bare with rfl | failed
    · exact .inr ⟨apart own, rfl⟩
    · exact .inr ⟨apart own, failed.compiled⟩
  | serves serves =>
    cases serves with
    | left isLeaf left => exact .inl ⟨isLeaf, left⟩
    | held own held => exact .inr ⟨apart own, held.compiled⟩

theorem hasFailed (service : InService modules leaf workspace waiting? specifier record)
    (own : modules specifier) (reason : String) : HasFailed (record.failed reason) :=
  ⟨rfl, rfl, rfl, rfl, ((service.classed apart).resolve_left fun isLeaf => apart own isLeaf.1).2,
    service.token⟩

end InService

namespace Serviceable

variable {backlog : Backlog} {workspace : Workspace}
  (serviceable : Serviceable modules leaf backlog workspace)

include serviceable

theorem hasTokens : HasTokens workspace.graph :=
  hasTokens_of_sources fun _ _ found folds =>
    (serviceable.record found).token.resolve_left (loaded_of_folds folds)

theorem classed (apart : ∀ {specifier}, modules specifier → ¬ leaf specifier) :
    workspace.graph.Classed leaf :=
  fun _ _ found => (serviceable.record found).classed apart

theorem congr {other : Backlog} (same : ∀ specifier, other specifier = backlog specifier) :
    Serviceable modules leaf other workspace :=
  { serviceable with record := fun {specifier _} found => same specifier ▸ serviceable.record found }

theorem givesBack (readable : workspace.store.Readable modules leaf) :
    GivesBack modules workspace.store := by
  intro specifier own
  rw [getSidecar_eq serviceable.inOrder]
  cases found : workspace.store.sidecars.get? specifier with
  | none => rfl
  | some sidecar =>
    cases text : workspace.store.keepsText with
    | false => rfl
    | true =>
      have fits := serviceable.sidecar own found
      have reread : sidecar.reread = .ok sidecar :=
        Sidecar.reread_eq (fits.named ▸ readable text _ (.inl own))
          (fun edge member => readable text _ ((fits.targets edge member).imp_right And.left))
          fun target member => readable text _ (.inr (fits.leaves target member))
      simp [reread, Except.mapError, Except.map]

end Serviceable

theorem Workspace.IsBlank.serviceable {workspace : Workspace} (blank : workspace.IsBlank) (backlog : Backlog) :
    Serviceable modules leaf backlog workspace where
  inOrder := blank.inOrder
  indexed := blank.graph ▸ .empty
  record found := absurd found blank.not_found
  sidecar _ found := by simp [blank.sidecars] at found

/-! ## Changes of one module -/

/-- One module is changed in a workspace. Others may get their records, and nothing else happens to them. -/
structure ChangesOne (modules leaf : Specifier → Prop) (specifier : Specifier)
    (first second : Workspace) : Prop where
  setup : SameSetup first.store second.store
  indexed : second.graph.Indexed
  others : ∀ other, other ≠ specifier → GrowsAt leaf first.graph second.graph other
  adds : AddsOnly (fun other => modules other ∨ leaf other) first.graph second.graph
  sameOwn : ∀ other, modules other → other ≠ specifier → first.store.SameOwn second.store other
  present : leaf specifier → (∃ record, first.graph.get? specifier = some record) →
    ∃ record, second.graph.get? specifier = some record

namespace ChangesOne

variable {specifier : Specifier} {first second third : Workspace}

theorem trans (one : ChangesOne modules leaf specifier first second)
    (two : ChangesOne modules leaf specifier second third) :
    ChangesOne modules leaf specifier first third where
  setup := one.setup.trans two.setup
  indexed := two.indexed
  others other differ := (one.others other differ).trans (two.others other differ)
  adds := one.adds.trans two.adds
  sameOwn other own differ := (one.sameOwn other own differ).trans (two.sameOwn other own differ)
  present isLeaf found := two.present isLeaf (one.present isLeaf found)

theorem storedHash_other (changes : ChangesOne modules leaf specifier first second) {other : Specifier}
    (differ : other ≠ specifier) : second.graph.storedHash other = first.graph.storedHash other :=
  (changes.others other differ).storedHash

theorem present_leaf (changes : ChangesOne modules leaf specifier first second) {target : Specifier}
    (isLeaf : leaf target) (found : ∃ record, first.graph.get? target = some record) :
    ∃ record, second.graph.get? target = some record := by
  by_cases same : target = specifier
  · exact same ▸ changes.present (same ▸ isLeaf) (same ▸ found)
  · obtain ⟨record, there⟩ := found
    exact ⟨record, (changes.others target same).get?_of_get? there⟩

theorem held (changes : ChangesOne modules leaf specifier first second) {record : ModuleRecord}
    {staged? : Option Bytes} (held : Held modules leaf first staged? record)
    (own : modules record.specifier) (differ : record.specifier ≠ specifier) :
    Held modules leaf second staged? record := by
  obtain ⟨code, source, fit⟩ := held.code
  refine
    { held with
      code := ⟨code, source.imp_right (.imp_right fun has => ?_), fit⟩
      targets := fun edge member => (held.targets edge member).imp_right fun ⟨isLeaf, found⟩ =>
        ⟨isLeaf, changes.present_leaf isLeaf found⟩ }
  exact has.congr (changes.sameOwn _ own differ).blobs

theorem serves (changes : ChangesOne modules leaf specifier first second) {other : Specifier}
    {record : ModuleRecord} {staged? : Option Bytes}
    (serves : Serves modules leaf first staged? other record) (named : record.specifier = other)
    (differ : other ≠ specifier) : Serves modules leaf second staged? other record := by
  cases serves with
  | left isLeaf left => exact .left isLeaf left
  | held own held =>
    subst named
    exact .held own (changes.held held own differ)

end ChangesOne

/-- A workspace stays serviceable if one module changes into something that can be served. -/
theorem Serviceable.change {backlog later : Backlog} {specifier : Specifier} {first second : Workspace}
    (serviceable : Serviceable modules leaf backlog first)
    (changes : ChangesOne modules leaf specifier first second)
    (same : ∀ other, other ≠ specifier → later other = backlog other)
    (record : ∀ record, second.graph.get? specifier = some record →
      InService modules leaf second (later specifier) specifier record)
    (sidecar : modules specifier → ∀ sidecar, second.store.sidecars.get? specifier = some sidecar →
      SidecarFits modules leaf second.store specifier sidecar) :
    Serviceable modules leaf later second where
  inOrder := changes.setup.faults.trans serviceable.inOrder
  indexed := changes.indexed
  record := by
    intro other found located
    by_cases self : other = specifier
    · exact self ▸ record found (self ▸ located)
    · rw [same other self]
      rcases changes.others other self with kept | ⟨absent, added, located', fresh⟩
      · have there := kept ▸ located
        cases serviceable.record there with
        | bare own bare => exact .bare own bare
        | serves serves settled =>
          exact .serves (changes.serves serves (serviceable.indexed.keyed there) self) settled
      · obtain rfl := Option.some.inj (located.symm.trans located')
        rcases fresh with ⟨isLeaf, rfl⟩ | ⟨notLeaf, blank⟩
        · exact .serves (.left isLeaf ⟨false, rfl⟩) (.inl rfl)
        · exact .bare ((changes.adds other found absent located).resolve_right notLeaf) (.inl blank)
  sidecar := by
    intro other found own located
    by_cases self : other = specifier
    · subst self
      exact sidecar own found located
    · have sameOwn := changes.sameOwn other own self
      exact (serviceable.sidecar own (sameOwn.sidecar ▸ located)).congr sameOwn.blobs

/-! ## Refreshes -/

section Refresh

variable {before after : Workspace} {backlog : Backlog} {record result : ModuleRecord} {hash : String}
  {code : Bytes} (apart : ∀ {specifier}, modules specifier → ¬ leaf specifier)
  (distinct : DigestsDistinct modules) (serviceable : Serviceable modules leaf backlog before)
  (found : before.graph.get? record.specifier = some record) (own : modules record.specifier)
  {staged? : Option Bytes} (held : Held modules leaf before staged? record)

section Refreshed

variable (refreshes : Refreshes before after record result hash code)

include distinct serviceable found own held refreshes

theorem Workspace.Refreshes.changesOne : ChangesOne modules leaf record.specifier before after where
  setup := refreshes.setup
  indexed := refreshes.indexed found serviceable.indexed
  others other differ := .inl (refreshes.get?_other differ)
  adds := .of_get? fun other new there => by
    obtain ⟨old, there', -⟩ := (refreshes.revises found).of_get? there
    exact ⟨old, there'⟩
  sameOwn other ownToo differ :=
    ⟨refreshes.blobs_other distinct own held.owned ownToo differ, refreshes.sidecars other differ⟩
  present _ _ := ⟨result, refreshes.get?_self⟩

theorem Held.refresh (fit : SlotsFit record.dependencies code.length) :
    Held modules leaf after none result := by
  have changes := refreshes.changesOne distinct serviceable found own held
  obtain ⟨length, updated, -⟩ := refreshes.updated
  obtain ⟨code', has, fit'⟩ := (refreshes.consistent found fit).hasCode
  exact
    { compiled := by rw [updated]; exact held.compiled
      token := by rw [updated]; exact held.token
      owned := has.owns
      code := ⟨code', .inr ⟨rfl, has⟩, fit'⟩
      targets := fun edge member => by
        rw [refreshes.dependencies] at member
        exact (held.targets edge member).imp_right fun ⟨isLeaf, there⟩ =>
          ⟨isLeaf, changes.present_leaf isLeaf there⟩ }

omit distinct found in
include apart in
theorem Workspace.Refreshes.sidecarFits (fit : SlotsFit record.dependencies code.length) {sidecar : Sidecar}
    (there : after.store.sidecars.get? record.specifier = some sidecar) :
    SidecarFits modules leaf after.store record.specifier sidecar := by
  have classed := serviceable.classed apart
  rcases refreshes.sidecar with written | ⟨kept, blobs⟩
  · obtain rfl := Option.some.inj (there.symm.trans written)
    obtain ⟨written', stored, agree, -⟩ := refreshes.stored
    obtain ⟨length, updated, -⟩ := refreshes.updated
    refine ⟨refreshes.specifier, ⟨⟨artifactKey record.specifier hash, length⟩, hash, written', ?_, rfl,
      stored, ?_⟩, fun edge member => ?_, fun target member => ?_⟩
    · rw [Sidecar.ofRecord, updated]
    · rw [Sidecar.ofRecord, refreshes.dependencies, ← agree.length]
      exact fit
    · rw [Sidecar.ofRecord, refreshes.dependencies] at member
      refine (held.targets edge member).imp_right fun ⟨isLeaf, target, located⟩ => ⟨isLeaf, ?_⟩
      refine List.mem_map.2 ⟨edge, List.mem_filter.2 ⟨member, ?_⟩, rfl⟩
      obtain ⟨_, rfl⟩ := classed.isLeftAlone isLeaf located
      rw [located]
      rfl
    · obtain ⟨edge, inside, rfl⟩ := List.mem_map.1 member
      obtain ⟨other, located, isExternal⟩ := (Option.any_eq_true _ _).1 (List.mem_filter.1 inside).2
      refine ((classed _ _ located).resolve_right fun compiled => ?_).1
      cases compiled.2.symm.trans isExternal
  · exact (serviceable.sidecar own (kept ▸ there)).congr fun _ => blobs _

end Refreshed

/-- One module was refreshed, as the rest of a workspace sees it. -/
structure Renews (modules leaf : Specifier → Prop) (specifier : Specifier) (before after : Workspace)
    (refreshed : Refreshed) : Prop where
  changes : ChangesOne modules leaf specifier before after
  others : ∀ other, other ≠ specifier → after.graph.get? other = before.graph.get? other
  rehashes : before.graph.Rehashes after.graph
  named : refreshed.record.specifier = specifier
  found : after.graph.get? specifier = some refreshed.record
  ready : refreshed.record.isReady = true
  moved : refreshed.hashChanged = true ↔
    after.graph.storedHash specifier ≠ before.graph.storedHash specifier

theorem Renews.moved_iff {specifier : Specifier} {refreshed : Refreshed}
    (renews : Renews modules leaf specifier before after refreshed) (other : Specifier) :
    after.graph.storedHash other ≠ before.graph.storedHash other ↔
      refreshed.hashChanged = true ∧ other = specifier := by
  by_cases same : other = specifier
  · subst same
    simp [renews.moved]
  · simp [same, storedHash_congr (renews.others other same)]

include apart distinct serviceable found own held

theorem Serviceable.refresh (later : Backlog) (done : later record.specifier = none)
    (same : ∀ other, other ≠ record.specifier → later other = backlog other) :
    ∃ refreshed after, before.refresh record.specifier staged? = (.ok (some refreshed), after) ∧
      Serviceable modules leaf later after ∧
      Renews modules leaf record.specifier before after refreshed := by
  obtain ⟨code, source, fit⟩ := held.code
  obtain ⟨refreshed, after, hash, refresh, refreshes, changed, -⟩ :=
    refresh_ok serviceable.inOrder found held.folds serviceable.hasTokens fit
      (source.imp_right (.imp_right fun ⟨output, _, output?, _, stored⟩ => ⟨output, output?, stored⟩))
  have changes := refreshes.changesOne distinct serviceable found own held
  have ready : refreshed.record.isReady = true := by
    obtain ⟨length, updated, -⟩ := refreshes.updated
    rw [updated]
    rfl
  refine ⟨refreshed, after, refresh, ?_, changes, fun other => refreshes.get?_other,
    refreshes.rehashes found, refreshes.specifier, refreshes.get?_self, ready, ?_⟩
  · refine serviceable.change changes same (fun new there => ?_) fun _ sidecar there =>
      refreshes.sidecarFits apart serviceable own held fit there
    obtain rfl := Option.some.inj (refreshes.get?_self.symm.trans there)
    rw [done]
    exact .serves (.held own (held.refresh distinct serviceable found own refreshes fit)) (.inl ready)
  · rw [changed, refreshes.storedHash, storedHash_of_get? found, bne_iff_ne, ne_comm]

end Refresh

/-! ## Repairs -/

def Backlog.clear : Backlog := fun _ => none

section Repair

variable (apart : ∀ {specifier}, modules specifier → ¬ leaf specifier)
  (distinct : DigestsDistinct modules)

include apart distinct

/-- Ready modules are refreshed one after another without a failure. Those whose hash moves are reported. -/
theorem Serviceable.refreshAll (work : List Specifier) {workspace : Workspace}
    (serviceable : Serviceable modules leaf .clear workspace)
    (ready : ∀ specifier ∈ work, workspace.graph.IsReady specifier) (propagation : Propagation) :
    let (result, after) := refreshAll workspace propagation work
    Serviceable modules leaf .clear after ∧ SameSetup workspace.store after.store ∧
      workspace.graph.Rehashes after.graph ∧
      (∀ other, other ∉ work → after.graph.get? other = workspace.graph.get? other) ∧
      result.failures = propagation.failures ∧
      ∀ other, other ∈ result.updated.map (·.specifier) ↔
        other ∈ propagation.updated.map (·.specifier) ∨
          after.graph.storedHash other ≠ workspace.graph.storedHash other := by
  induction work generalizing workspace propagation with
  | nil => exact ⟨serviceable, .refl _, .refl _, fun _ _ => rfl, rfl, fun _ => by simp⟩
  | cons first rest ih =>
    obtain ⟨record, found, isReady⟩ := ready first List.mem_cons_self
    have later (specifier : Specifier) (member : specifier ∈ rest) :=
      ready specifier (List.mem_cons_of_mem first member)
    have named := serviceable.indexed.keyed found
    rw [Workspace.refreshAll]
    cases (serviceable.record found).serves_of_ready isReady with
    | left _ left =>
      have idle : workspace.graph.foldView? first = none := by
        obtain ⟨_, rfl⟩ := left
        simp [foldView?, found, ModuleRecord.folds, ModuleRecord.external]
      rw [refresh_idle idle]
      obtain ⟨kept, setup, rehashes, others, reports⟩ := ih serviceable later propagation
      exact ⟨kept, setup, rehashes,
        fun other absent => others other fun member => absent (List.mem_cons_of_mem first member), reports⟩
    | held own held =>
      subst named
      obtain ⟨refreshed, middle, refresh, serviceable', renews⟩ :=
        serviceable.refresh apart distinct found own held .clear rfl fun _ _ => rfl
      have refresh' : workspace.refresh record.specifier none = (.ok (some refreshed), middle) := refresh
      -- a module that is listed twice is still ready at its second turn
      have ready' (specifier : Specifier) (member : specifier ∈ rest) :
          middle.graph.IsReady specifier := by
        by_cases same : specifier = record.specifier
        · exact ⟨refreshed.record, same ▸ renews.found, renews.ready⟩
        · obtain ⟨other, located, ready⟩ := later specifier member
          exact ⟨other, (renews.others specifier same).trans located, ready⟩
      rw [refresh']
      obtain ⟨kept, setup, rehashes, others, failures, reports⟩ := ih serviceable' ready' _
      refine ⟨kept, renews.changes.setup.trans setup, renews.rehashes.trans rehashes, fun other absent => ?_,
        failures, fun other => ?_⟩
      · obtain ⟨differ, absent'⟩ := not_or.1 (mt List.mem_cons.2 absent)
        exact (others other absent').trans (renews.others other differ)
      · rw [reports, renews.rehashes.moved_trans rehashes, ← or_assoc, renews.moved_iff]
        refine or_congr_left ?_
        cases changed : refreshed.hashChanged <;> simp [renews.named]

end Repair

theorem PassReport.absorb_changed (report : PassReport) (workspace : Workspace) (propagation : Propagation) :
    let (after, _) := report.absorb workspace propagation
    (∀ other, other ∈ after.changed ↔
      other ∈ report.changed ∨ other ∈ propagation.updated.map (·.specifier)) ∧
    (report.changed.Nodup → after.changed.Nodup) := by
  simp only [absorb]
  generalize propagation.updated.map (·.specifier) = updated
  generalize report.changed = start
  induction updated generalizing start with
  | nil => simp
  | cons first rest ih =>
    rw [List.foldl_cons]
    obtain ⟨members, nodup⟩ := ih (if first ∈ start then start else start ++ [first])
    refine ⟨fun other => ?_, fun distinct => nodup ?_⟩
    · rw [members, List.mem_cons, ← or_assoc]
      split
      · next known =>
        refine or_congr_left ⟨.inl, fun either => either.elim id ?_⟩
        rintro rfl
        exact known
      · rw [List.mem_append, List.mem_singleton]
    · split
      · exact distinct
      · next fresh =>
        refine List.nodup_append.2 ⟨distinct, List.nodup_singleton first, fun other member last listed => ?_⟩
        rintro rfl
        exact fresh (List.mem_singleton.1 listed ▸ member)

structure RepairsImporters (modules leaf : Specifier → Prop) (changed : Specifier)
    (before after : Workspace) (first second : PassReport) : Prop where
  serviceable : Serviceable modules leaf .clear after
  setup : SameSetup before.store after.store
  rehashes : before.graph.Rehashes after.graph
  own : after.graph.get? changed = before.graph.get? changed
  outcomes : second.outcomes = first.outcomes
  reports : ∀ other, other ∈ second.changed ↔
    other ∈ first.changed ∨ after.graph.storedHash other ≠ before.graph.storedHash other
  nodup : first.changed.Nodup → second.changed.Nodup

theorem Serviceable.repairImporters (apart : ∀ {specifier}, modules specifier → ¬ leaf specifier)
    (distinct : DigestsDistinct modules) {workspace : Workspace}
    (serviceable : Serviceable modules leaf .clear workspace) (report : PassReport) (changed : Specifier) :
    let (report', after) := workspace.repairImporters report changed
    RepairsImporters modules leaf changed workspace after report report' := by
  have indexed := serviceable.indexed
  have repaired := serviceable.refreshAll apart distinct (affected workspace.graph changed)
    (fun other member => ((mem_affected indexed).1 member).2.2) {}
  have untouched : changed ∉ affected workspace.graph changed := fun member =>
    ((mem_affected indexed).1 member).1 rfl
  unfold Workspace.repairImporters propagate
  generalize Workspace.refreshAll workspace {} (affected workspace.graph changed) = result at repaired ⊢
  obtain ⟨propagation, after⟩ := result
  obtain ⟨kept, setup, rehashes, others, failures, moved⟩ := repaired
  obtain ⟨same, outcomes, -⟩ := PassReport.absorb_ok failures report after
  obtain ⟨members, nodup⟩ := report.absorb_changed after propagation
  dsimp only
  rw [same]
  exact ⟨kept, setup, rehashes, others changed untouched, outcomes,
    fun other => (members other).trans (or_congr_right ((moved other).trans (by simp))), nodup⟩

theorem Serviceable.remove (apart : ∀ {specifier}, modules specifier → ¬ leaf specifier)
    {workspace : Workspace} (serviceable : Serviceable modules leaf .clear workspace)
    {specifier : Specifier} (own : modules specifier) {record : ModuleRecord}
    (found : workspace.graph.get? specifier = some record) (failed : HasFailed record) :
    let after := workspace.remove specifier
    Serviceable modules leaf .clear after ∧ SameSetup workspace.store after.store ∧
      after.graph.get? specifier = none ∧
      ∀ other, other ≠ specifier → after.graph.get? other = workspace.graph.get? other := by
  rw [remove_eq serviceable.inOrder found failed.output]
  have erased := get?_erase workspace.graph specifier
  have changes : ChangesOne modules leaf specifier workspace
      { workspace with
        graph := (workspace.graph.erase specifier).1
        store := { workspace.store with sidecars := workspace.store.sidecars.erase specifier } } :=
    { setup := ⟨rfl, rfl, rfl⟩
      indexed := serviceable.indexed.erase specifier
      others := fun other differ => .inl ((erased other).trans (if_neg (Ne.symm differ)))
      adds := .of_get? fun other new there => by
        rw [erased] at there
        split at there
        · cases there
        · exact ⟨new, there⟩
      sameOwn := fun other _ differ =>
        ⟨fun _ => rfl, (OrderedMap.get?_erase _ _ _).trans (if_neg (Ne.symm differ))⟩
      present := fun isLeaf => absurd isLeaf (apart own) }
  have gone := (erased specifier).trans (if_pos rfl)
  refine ⟨serviceable.change changes (fun _ _ => rfl) (fun new there => ?_) fun _ sidecar there => ?_,
    changes.setup, gone, fun other differ => (erased other).trans (if_neg (Ne.symm differ))⟩
  · cases there.symm.trans gone
  · cases there.symm.trans ((OrderedMap.get?_erase _ _ _).trans (if_pos rfl))

end ModuleBuild
