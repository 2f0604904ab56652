import ModuleBuild.Proofs.Compile.Soundness
/-!
What a pass takes over from earlier ones: only output that comes from an image with the hash of the
present source.
-/

namespace ModuleBuild

open ModuleGraph Workspace

namespace ArtifactStore

/-- Two stores hold the same; they may have been read differently often. -/
structure SameContents (first second : ArtifactStore) : Prop where
  blobs : second.blobs = first.blobs
  sidecars : second.sidecars = first.sidecars
  setup : SameSetup first second

theorem SameContents.refl (store : ArtifactStore) : SameContents store store := ⟨rfl, rfl, .refl _⟩

theorem SameContents.trans {first second third : ArtifactStore} (one : SameContents first second)
    (two : SameContents second third) : SameContents first third :=
  ⟨two.blobs.trans one.blobs, two.sidecars.trans one.sidecars, one.setup.trans two.setup⟩

def GivesBack (modules : Specifier → Prop) (store : ArtifactStore) : Prop :=
  ∀ specifier, modules specifier →
    store.getSidecar specifier = (.ok (store.sidecars.get? specifier), store)

theorem getSidecar_eq {store : ArtifactStore} (inOrder : store.faults = .empty)
    (specifier : Specifier) :
    store.getSidecar specifier =
      (match store.sidecars.get? specifier with
        | some sidecar =>
          if store.keepsText then
            (sidecar.reread.mapError StoreError.unreadableSidecar).map some
          else .ok (some sidecar)
        | none => .ok none, store) := by
  rw [getSidecar, attempt_eq inOrder]
  cases store.sidecars.get? specifier with
  | none => rfl
  | some sidecar => cases text : store.keepsText <;> simp [text]

theorem GivesBack.congr {modules : Specifier → Prop} {first second : ArtifactStore}
    (givesBack : GivesBack modules first) (inOrder : first.faults = .empty)
    (contents : SameContents first second) : GivesBack modules second := by
  intro specifier own
  have given := givesBack specifier own
  rw [getSidecar_eq inOrder] at given
  rw [getSidecar_eq (contents.setup.faults.trans inOrder), contents.sidecars,
    contents.setup.keepsText]
  exact Prod.ext (Prod.mk.inj given).1 rfl

theorem contains_ok {store : ArtifactStore} (inOrder : store.faults = .empty) (key : String) :
    ∃ after, store.contains key = (.ok (store.blobs.contains key), after) ∧
      SameContents store after :=
  ⟨{ store with blobReads := store.blobReads + 1 }, attempt_eq inOrder _ _ _,
    rfl, rfl, rfl, rfl, rfl⟩

theorem get_ok {store : ArtifactStore} (inOrder : store.faults = .empty) (key : String) :
    ∃ after, store.get key = (.ok (store.blobs.get? key), after) ∧ SameContents store after :=
  ⟨{ store with blobReads := store.blobReads + 1 }, attempt_eq inOrder _ _ _,
    rfl, rfl, rfl, rfl, rfl⟩

end ArtifactStore

theorem SoundStore.congr {known : Toolchain → Prop} {modules : Specifier → Prop}
    {first second : ArtifactStore} (sound : SoundStore known modules first)
    (contents : ArtifactStore.SameContents first second) : SoundStore known modules second where
  inOrder := contents.setup.faults.trans sound.inOrder
  backed own found :=
    (sound.backed own (contents.sidecars ▸ found)).congr fun _ => by rw [contents.blobs]

/-- A specifier is read back from its text. -/
def ReadBack (specifier : Specifier) : Prop := Specifier.parse specifier.text = .ok specifier

/-- A store keeps sidecars as they are, or reads the specifiers in them as they were written. -/
def ArtifactStore.Readable (modules leaf : Specifier → Prop) (store : ArtifactStore) : Prop :=
  store.keepsText = true → ∀ specifier, modules specifier ∨ leaf specifier → ReadBack specifier

theorem ArtifactStore.Readable.congr {modules leaf : Specifier → Prop} {first second : ArtifactStore}
    (readable : Readable modules leaf first) (setup : SameSetup first second) :
    Readable modules leaf second := by
  rw [Readable, setup.keepsText]
  exact readable

theorem mapM_eq_ok {α ε : Type} {read : α → Except ε α} {items : List α}
    (same : ∀ item ∈ items, read item = .ok item) : items.mapM read = .ok items := by
  induction items with
  | nil => rfl
  | cons item items ih =>
    rw [List.mapM_cons, same item List.mem_cons_self,
      ih fun other member => same other (List.mem_cons_of_mem item member)]
    rfl

theorem mapM_target_eq_ok {edges : List DependencyEdge}
    (readBack : ∀ edge ∈ edges, ReadBack edge.target) :
    edges.mapM (fun edge => do
      return { edge with target := ← Specifier.parse edge.target.text }) =
        (.ok edges : Except Specifier.Error _) :=
  mapM_eq_ok fun edge member => by
    rw [readBack edge member]
    rfl

theorem Sidecar.reread_eq {sidecar : Sidecar} (own : ReadBack sidecar.specifier)
    (targets : ∀ edge ∈ sidecar.dependencies, ReadBack edge.target)
    (externals : ∀ target ∈ sidecar.externals, ReadBack target) :
    sidecar.reread = .ok sidecar := by
  have own' : Specifier.parse sidecar.specifier.text = .ok sidecar.specifier := own
  rw [reread, own', mapM_target_eq_ok targets, mapM_eq_ok externals]
  rfl

theorem SoundStore.givesBack {known : Toolchain → Prop} {modules leaf : Specifier → Prop}
    {store : ArtifactStore} (sound : SoundStore known modules store) (scope : Scope known modules leaf)
    (readable : store.Readable modules leaf) : ArtifactStore.GivesBack modules store := by
  intro specifier own
  rw [ArtifactStore.getSidecar_eq sound.inOrder]
  cases found : store.sidecars.get? specifier with
  | none => rfl
  | some sidecar =>
    cases text : store.keepsText with
    | false => rfl
    | true =>
      obtain ⟨named, image, -, -, -, compiled, describes, -⟩ := sound.backed own found
      have reread : sidecar.reread = .ok sidecar := by
        refine Sidecar.reread_eq (named ▸ readable text _ (.inl own)) (fun edge member => ?_)
          fun target member => ?_
        · rw [describes.edges] at member
          exact readable text _ ((scope.target own compiled member).imp_right And.left)
        · exact readable text _ (.inr
            (scope.leaf_of_mem_externals own compiled ((describes.externals target).1 member)))
      simp [reread, Except.mapError, Except.map]

theorem mapM_cons_ok {α β ε : Type} {read : α → Except ε β} {item : α} {items : List α} {results : List β}
    (done : (item :: items).mapM read = .ok results) :
    ∃ first rest, read item = .ok first ∧ items.mapM read = .ok rest ∧ results = first :: rest := by
  rw [List.mapM_cons] at done
  cases first : read item with
  | error error =>
    rw [first] at done
    cases done
  | ok value =>
    rw [first] at done
    cases rest : items.mapM read with
    | error error =>
      rw [rest] at done
      cases done
    | ok values =>
      rw [rest] at done
      exact ⟨value, values, rfl, rfl, (Except.ok.inj done).symm⟩

/-- Specifiers in a sidecar may be read differently from how they were written; all else is as it was. -/
theorem Sidecar.of_reread {sidecar again : Sidecar} (reread : sidecar.reread = .ok again) :
    again.output? = sidecar.output? ∧
      slotsOf again.dependencies = slotsOf sidecar.dependencies := by
  have slots (edges results : List DependencyEdge)
      (read : edges.mapM (fun edge => do
        return { edge with target := ← Specifier.parse edge.target.text }) =
          (.ok results : Except Specifier.Error _)) : slotsOf results = slotsOf edges := by
    induction edges generalizing results with
    | nil =>
      cases read
      rfl
    | cons edge edges ih =>
      obtain ⟨first, rest, one, others, rfl⟩ := mapM_cons_ok read
      have slot : first.slot? = edge.slot? := by
        cases parsed : Specifier.parse edge.target.text with
        | error error =>
          rw [parsed] at one
          cases one
        | ok target =>
          rw [parsed] at one
          cases one
          rfl
      have later := ih rest others
      simp only [slotsOf, List.filterMap_cons, slot] at later ⊢
      rw [later]
  -- reading goes on only as long as each part can be read
  unfold Sidecar.reread at reread
  cases own : Specifier.parse sidecar.specifier.text with
  | error error =>
    rw [own] at reread
    cases reread
  | ok specifier =>
    rw [own] at reread
    cases edges : sidecar.dependencies.mapM fun edge => do
        return { edge with target := ← Specifier.parse edge.target.text } with
    | error error =>
      rw [edges] at reread
      cases reread
    | ok dependencies =>
      rw [edges] at reread
      cases listed : sidecar.externals.mapM fun specifier => Specifier.parse specifier.text with
      | error error =>
        rw [listed] at reread
        cases reread
      | ok externals =>
        rw [listed] at reread
        cases reread
        exact ⟨rfl, slots _ _ edges⟩

namespace Pass

open ArtifactStore

variable {known : Toolchain → Prop} {modules leaf : Specifier → Prop}

/-- What the sidecar of a module allows to take over, in a store that is in order. -/
def offer? (store : ArtifactStore) (specifier : Specifier) (source : String) :
    Except StoreError (Option Restored) :=
  match (store.getSidecar specifier).1 with
  | .error error => .error error
  | .ok none => .ok none
  | .ok (some sidecar) =>
    match sidecar.output? with
    | none => .ok none
    | some output =>
      if sidecar.sourceHash = source ∧ store.blobs.contains output.key then
        .ok (some
          { kind? := sidecar.kind?
            dependencies := sidecar.dependencies
            flags := sidecar.flags
            output? := sidecar.output?
            externals := sidecar.externals })
      else .ok none

theorem restoreSidecar?_eq {store : ArtifactStore} (inOrder : store.faults = .empty)
    (specifier : Specifier) (source : String) :
    ∃ after, restoreSidecar? store specifier source = (offer? store specifier source, after) ∧
      SameContents store after := by
  obtain ⟨read, given⟩ : ∃ read, store.getSidecar specifier = (read, store) :=
    ⟨_, getSidecar_eq inOrder specifier⟩
  unfold restoreSidecar? offer?
  rw [given]
  cases read with
  | error error => exact ⟨store, rfl, .refl store⟩
  | ok sidecar? =>
    cases sidecar? with
    | none => exact ⟨store, rfl, .refl store⟩
    | some sidecar =>
      dsimp only
      cases sidecar.output? with
      | none => exact ⟨store, rfl, .refl store⟩
      | some output =>
        obtain ⟨after, contains, contents⟩ := contains_ok inOrder output.key
        by_cases unchanged : sidecar.sourceHash = source
        · refine ⟨after, ?_, contents⟩
          cases held : store.blobs.contains output.key <;> simp [unchanged, contains, held]
        · exact ⟨store, by simp [unchanged], .refl store⟩

/-- A sidecar as it is read refers to the output of the one that is kept, with the same slots. -/
theorem getSidecar_ok {store : ArtifactStore} (inOrder : store.faults = .empty) {specifier : Specifier}
    {again : Sidecar} (read : (store.getSidecar specifier).1 = .ok (some again)) :
    ∃ sidecar, store.sidecars.get? specifier = some sidecar ∧ again.output? = sidecar.output? ∧
      slotsOf again.dependencies = slotsOf sidecar.dependencies := by
  rw [getSidecar_eq inOrder] at read
  cases there : store.sidecars.get? specifier with
  | none => simp [there] at read
  | some sidecar =>
    refine ⟨sidecar, rfl, ?_⟩
    cases text : store.keepsText with
    | false =>
      obtain rfl : sidecar = again := by simpa [there, text] using read
      exact ⟨rfl, rfl⟩
    | true =>
      cases reread : sidecar.reread with
      | error error => simp [there, text, reread, Except.mapError, Except.map] at read
      | ok result =>
        obtain rfl : result = again := by
          simpa [there, text, reread, Except.mapError, Except.map] using read
        exact Sidecar.of_reread reread

/-- What a sidecar offers depends on the sidecar, and on whether its code is stored. -/
theorem offer?_congr {first second : ArtifactStore} (inOrder : first.faults = .empty)
    (setup : SameSetup first second) {specifier : Specifier}
    (same : second.sidecars.get? specifier = first.sidecars.get? specifier)
    (blobs : ∀ sidecar output, first.sidecars.get? specifier = some sidecar →
      sidecar.output? = some output →
        second.blobs.contains output.key = first.blobs.contains output.key) (source : String) :
    offer? second specifier source = offer? first specifier source := by
  have read : (second.getSidecar specifier).1 = (first.getSidecar specifier).1 := by
    rw [getSidecar_eq inOrder, getSidecar_eq (setup.faults.trans inOrder), same, setup.keepsText]
  unfold offer?
  rw [read]
  cases given : (first.getSidecar specifier).1 with
  | error error => rfl
  | ok sidecar? =>
    cases sidecar? with
    | none => rfl
    | some again =>
      obtain ⟨sidecar, there, noted, -⟩ := getSidecar_ok inOrder given
      dsimp only
      cases own : again.output? with
      | none => rfl
      | some output => simp only [blobs sidecar output there (noted ▸ own)]

def keptOutput (record : ModuleRecord) : Restored where
  kind? := record.kind?
  dependencies := record.dependencies
  flags := record.flags
  output? := record.output?

/-- The source of a module did not change since it was compiled, and its output is stored. -/
def IsKept (store : ArtifactStore) (record : ModuleRecord) (source : String) : Prop :=
  record.sourceHash = source ∧ record.error? = none ∧
    ∃ output, record.output? = some output ∧ store.blobs.contains output.key = true

/-- The module's own output is taken over if its source did not change, or else what the sidecar offers. -/
theorem restore?_eq {store : ArtifactStore} (inOrder : store.faults = .empty) (record : ModuleRecord)
    (source : String) :
    ∃ result after, restore? store record source = (result, after) ∧ SameContents store after ∧
      (IsKept store record source ∧ result = .ok (some (keptOutput record)) ∨
        ¬ IsKept store record source ∧ result = offer? store record.specifier source) := by
  obtain ⟨last, sidecar, contents⟩ := restoreSidecar?_eq inOrder record.specifier source
  unfold restore?
  cases own : record.output? with
  | none => exact ⟨_, last, sidecar, contents, .inr ⟨fun ⟨_, _, _, own', _⟩ => by simp [own] at own', rfl⟩⟩
  | some output =>
    by_cases unchanged : record.sourceHash = source ∧ record.error? = none
    · obtain ⟨after, contains, contents'⟩ := contains_ok inOrder output.key
      simp only [unchanged.1, unchanged.2, beq_self_eq_true, Option.isNone_none, Bool.and_self,
        Bool.not_true, Bool.false_eq_true, if_false, contains]
      cases held : store.blobs.contains output.key with
      | true =>
        exact ⟨_, after, rfl, contents', .inl ⟨⟨unchanged.1, unchanged.2, output, own, held⟩,
          by rw [keptOutput, own]⟩⟩
      | false =>
        obtain ⟨last', sidecar', contents''⟩ :=
          restoreSidecar?_eq (contents'.setup.faults.trans inOrder) record.specifier source
        have same := offer?_congr inOrder contents'.setup (congrArg (·.get? record.specifier) contents'.sidecars)
          (fun _ output _ _ => congrArg (·.contains output.key) contents'.blobs) source
        refine ⟨_, last', sidecar', contents'.trans contents'', .inr ⟨?_, same⟩⟩
        rintro ⟨-, -, other, own', held'⟩
        obtain rfl := Option.some.inj (own.symm.trans own')
        cases held.symm.trans held'
    · have changed : (record.sourceHash == source && record.error?.isNone) = false := by
        simpa [← Option.isSome_iff_ne_none] using unchanged
      simp only [changed, Bool.not_false, if_true]
      exact ⟨_, last, sidecar, contents, .inr ⟨fun kept => unchanged ⟨kept.1, kept.2.1⟩, rfl⟩⟩

/-- A store that gives back its sidecars offers output of the sidecar that it has, if that tells of the same
source and its output is stored. -/
theorem offer?_eq_ok {modules : Specifier → Prop} {store : ArtifactStore}
    (givesBack : GivesBack modules store) {specifier : Specifier} (own : modules specifier)
    (source : String) :
    ∃ restored?, offer? store specifier source = .ok restored? ∧
      ∀ restored, restored? = some restored → ∃ sidecar,
        store.sidecars.get? specifier = some sidecar ∧ sidecar.sourceHash = source ∧
        restored = {
          kind? := sidecar.kind?
          dependencies := sidecar.dependencies
          flags := sidecar.flags
          output? := sidecar.output?
          externals := sidecar.externals } := by
  unfold offer?
  rw [givesBack specifier own]
  cases found : store.sidecars.get? specifier with
  | none => exact ⟨none, rfl, nofun⟩
  | some sidecar =>
    dsimp only
    cases own : sidecar.output? with
    | none => exact ⟨none, rfl, nofun⟩
    | some output =>
      dsimp only
      split
      · next offered =>
        refine ⟨_, rfl, ?_⟩
        rintro _ ⟨⟩
        exact ⟨sidecar, rfl, offered.1, by rw [own]⟩
      · exact ⟨none, rfl, nofun⟩

structure TakesOver (image : Image) (specifier : Specifier) (workspace : Workspace)
    (restored : Restored) : Prop where
  kind : restored.kind? = some image.kind
  edges : restored.dependencies = image.edges
  style : restored.flags.isStyle = image.kind.isStyle
  effects : restored.flags.hasSideEffects = image.hasSideEffects
  owned : OwnsOutput specifier restored.output?
  code : ∃ output code, restored.output? = some output ∧
    workspace.store.blobs.get? output.key = some code ∧ output.length = code.length ∧
    IsCodeOf image code
  externals : ∀ target ∈ restored.externals, target ∈ image.externals
  leaves : ∀ target ∈ image.externals, target ∈ restored.externals ∨
    ∃ record, workspace.graph.get? target = some record

variable {workspace : Workspace} {specifier : Specifier}

/-- What a sidecar offers comes from an image with the hash of the present source. -/
theorem takesOver_offer? (sound : SoundStore known modules workspace.store)
    (givesBack : GivesBack modules workspace.store) (own : modules specifier) (source : String) :
    ∃ restored?, offer? workspace.store specifier source = .ok restored? ∧
      ∀ restored, restored? = some restored → ∃ image, KnownImage known specifier image ∧
        image.source = source ∧ TakesOver image specifier workspace restored := by
  obtain ⟨restored?, offered, given⟩ := offer?_eq_ok givesBack own source
  refine ⟨restored?, offered, fun restored taken => ?_⟩
  obtain ⟨sidecar, found, unchanged, rfl⟩ := given restored taken
  obtain ⟨image, output, hash, code, compiled, describes, output?, key, stored, length, of⟩ :=
    (sound.backed own found).code
  refine ⟨image, compiled, describes.source.symm.trans unchanged,
    { kind := describes.kind
      edges := describes.edges
      style := describes.style
      effects := describes.effects
      owned := fun other same => ⟨hash, ?_⟩
      code := ⟨output, code, output?, stored, length, of⟩
      externals := fun target member => (describes.externals target).1 member
      leaves := fun target member => .inl ((describes.externals target).2 member) }⟩
  obtain rfl := Option.some.inj (output?.symm.trans same)
  exact key

/-- Output that the record of a ready module refers to. -/
theorem takesOver_record {image : Image} {record : ModuleRecord}
    (compiled : IsCompiled workspace.store image record) (named : record.specifier = specifier)
    (leaves : ∀ target ∈ image.externals, ∃ other, workspace.graph.get? target = some other) :
    TakesOver image specifier workspace
      { kind? := record.kind?
        dependencies := record.dependencies
        flags := record.flags
        output? := record.output? } := by
  obtain ⟨code, ⟨output, hash, output?, key, stored⟩, of, length⟩ := compiled.code
  refine
    { kind := compiled.describes.kind
      edges := compiled.describes.edges
      style := compiled.describes.style
      effects := compiled.describes.effects
      owned := fun other same => ⟨hash, ?_⟩
      code := ⟨output, code, output?, stored, length output output?, of⟩
      externals := fun target member => absurd member List.not_mem_nil
      leaves := fun target member => .inr (leaves target member) }
  obtain rfl := Option.some.inj (output?.symm.trans same)
  rw [key, named]

/-- Nothing is taken over but output of an image with the hash of the present source. -/
theorem restore?_ok (sound : SoundStore known modules workspace.store)
    (givesBack : GivesBack modules workspace.store) {record : ModuleRecord}
    (own : modules record.specifier)
    (soundRecord : record = .awaiting record.specifier ∨ HasFailed record ∨
      ∃ image, KnownImage known record.specifier image ∧ IsCompiled workspace.store image record ∧
        ∀ target ∈ image.externals, ∃ other, workspace.graph.get? target = some other)
    (source : String) :
    ∃ restored? after, restore? workspace.store record source = (.ok restored?, after) ∧
      SameContents workspace.store after ∧
      ∀ restored, restored? = some restored → ∃ image, KnownImage known record.specifier image ∧
        image.source = source ∧ TakesOver image record.specifier workspace restored := by
  obtain ⟨result, after, restores, contents, kept⟩ := restore?_eq sound.inOrder record source
  rcases kept with ⟨⟨unchanged, -, output, output?, -⟩, rfl⟩ | ⟨-, rfl⟩
  · refine ⟨_, after, restores, contents, ?_⟩
    rintro _ ⟨⟩
    rcases soundRecord with blank | failed | ⟨image, known, compiled, leaves⟩
    · rw [blank] at output?
      cases output?
    · cases failed.output.symm.trans output?
    · exact ⟨image, known, compiled.describes.source.symm.trans unchanged,
        takesOver_record compiled rfl leaves⟩
  · obtain ⟨restored?, offered, takes⟩ := takesOver_offer? sound givesBack own source
    exact ⟨restored?, after, offered ▸ restores, contents, takes⟩

end Pass

end ModuleBuild
