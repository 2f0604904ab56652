import ModuleBuild.Proofs.Artifact.ManifestText
import ModuleBuild.Proofs.Compile.CallHistory
/-!
Sessions: compilers that work one after another on one store, each under a manifest. What is stored at any
time was made by sessions under the manifest that the store was last prepared for.
-/

namespace ModuleBuild

open ModuleGraph Workspace ArtifactStore BuildManifest

/-- A compiler that starts on a store under a manifest, and what it is asked to do. -/
structure Session where
  manifest : BuildManifest
  calls : List (Toolchain × Call)

namespace Session

/-- What a session leaves behind of the store on which it starts. -/
def run (session : Session) (store : ArtifactStore) : ArtifactStore :=
  (((({ store } : Workspace).prepare (some session.manifest)).2).performAll session.calls).store

def runAll (sessions : List Session) (store : ArtifactStore) : ArtifactStore :=
  sessions.foldl (fun store session => session.run store) store

/-- A toolchain is used by a session under a manifest. -/
def UsedUnder (sessions : List Session) (manifest : BuildManifest) (tools : Toolchain) : Prop :=
  ∃ session ∈ sessions, session.manifest = manifest ∧ ∃ call ∈ session.calls, call.1 = tools

/-- The roots that sessions compile from under a manifest. -/
def rootsUnder (sessions : List Session) (manifest : BuildManifest) : List Specifier :=
  (sessions.filter (·.manifest = manifest)).flatMap fun session => session.calls.flatMap (·.2.roots)

/-- The specifiers that sessions meet under a manifest, with whether they are left alone. -/
abbrev Meets (sessions : List Session) (manifest : BuildManifest) : Specifier → Bool → Prop :=
  Reached (UsedUnder sessions manifest) (rootsUnder sessions manifest)

theorem mem_rootsUnder {sessions : List Session} {manifest : BuildManifest} {root : Specifier} :
    root ∈ rootsUnder sessions manifest ↔ ∃ session ∈ sessions, session.manifest = manifest ∧
      ∃ call ∈ session.calls, root ∈ call.2.roots := by
  simp [rootsUnder, and_assoc]

end Session

/-! ## Preparing a store -/

namespace Workspace

variable {store : ArtifactStore} (inOrder : store.faults = .empty) (manifest : BuildManifest)

include inOrder

theorem check_eq : manifest.check store =
    (.ok (match store.metadata.get? metadataKey with
      | none => .fresh
      | some text => if decode? text = some manifest then .matching else .mismatch), store) := by
  rw [BuildManifest.check, BuildManifest.load, getMetadata, attempt_eq inOrder]
  cases store.metadata.get? metadataKey <;> rfl

theorem prepare_fresh (unmarked : store.metadata.get? metadataKey = none) :
    ({ store } : Workspace).prepare (some manifest) = (.ok .fresh, { store :=
      { store with metadata := store.metadata.insert metadataKey manifest.encode } }) := by
  simp [prepare, check_eq inOrder, unmarked, BuildManifest.write, setMetadata, attempt_eq inOrder]

variable {text : String} (marked : store.metadata.get? metadataKey = some text)

include marked

theorem prepare_matching (same : decode? text = some manifest) :
    ({ store } : Workspace).prepare (some manifest) = (.ok .matching, { store }) := by
  simp [prepare, check_eq inOrder, marked, same]

theorem prepare_mismatch (differ : decode? text ≠ some manifest) :
    ∃ cleared : ArtifactStore,
      ({ store } : Workspace).prepare (some manifest) = (.ok .mismatch, { store := cleared }) ∧
      cleared.faults = .empty ∧ cleared.keepsText = store.keepsText ∧ cleared.sidecars = .empty ∧
      cleared.metadata.get? metadataKey = some manifest.encode := by
  refine ⟨{ store with
    blobs := .empty
    sidecars := .empty
    metadata := (OrderedMap.empty.insert metadataKey manifest.encode).insert metadataKey manifest.encode },
    ?_, inOrder, rfl, rfl, (OrderedMap.get?_insert _ _ _ _).trans (if_pos rfl)⟩
  simp [prepare, check_eq inOrder, marked, differ, reset, ArtifactStore.clear, BuildManifest.write,
    setMetadata, attempt, inOrder]

end Workspace

/-! ## What is stored -/

open Session

/-- A store holds what sessions under the manifest made that it was last prepared for. -/
structure Attributed (sessions : List Session) (store : ArtifactStore) : Prop where
  inOrder : store.faults = .empty
  unmarked : store.metadata.get? metadataKey = none → store.sidecars = .empty
  sound : ∀ text manifest, store.metadata.get? metadataKey = some text → decode? text = some manifest →
    SoundStore (UsedUnder sessions manifest) (Meets sessions manifest · false) store

theorem soundStore_of_bare {known : Toolchain → Prop} {modules : Specifier → Prop} {store : ArtifactStore}
    (inOrder : store.faults = .empty) (bare : store.sidecars = .empty) : SoundStore known modules store where
  inOrder := inOrder
  backed _ found := by simp [bare] at found

theorem sound_of_store {known : Toolchain → Prop} {modules leaf : Specifier → Prop} {store : ArtifactStore}
    (sound : SoundStore known modules store) : Sound known modules leaf { store } where
  store := sound
  indexed := .empty
  record found := by cases found
  leaves found := by cases found

variable {sessions : List Session} {store : ArtifactStore}

theorem Attributed.prepare (attributed : Attributed sessions store) (manifest : BuildManifest) :
    ∃ status prepared, ({ store } : Workspace).prepare (some manifest) = (.ok status, { store := prepared }) ∧
      prepared.keepsText = store.keepsText ∧
      SoundStore (UsedUnder sessions manifest) (Meets sessions manifest · false) prepared ∧
      ∃ text, prepared.metadata.get? metadataKey = some text ∧ decode? text = some manifest := by
  have inOrder := attributed.inOrder
  cases marked : store.metadata.get? metadataKey with
  | none =>
    exact ⟨_, _, prepare_fresh inOrder manifest marked, rfl,
      soundStore_of_bare inOrder (attributed.unmarked marked), manifest.encode,
      (OrderedMap.get?_insert _ _ _ _).trans (if_pos rfl), decode?_encode manifest⟩
  | some text =>
    by_cases same : decode? text = some manifest
    · exact ⟨_, _, prepare_matching inOrder manifest marked same, rfl,
        attributed.sound text manifest marked same, text, marked, same⟩
    · obtain ⟨cleared, prepared, inOrder', keepsText, bare, marked'⟩ :=
        prepare_mismatch inOrder manifest marked same
      exact ⟨_, cleared, prepared, keepsText, soundStore_of_bare inOrder' bare, manifest.encode, marked',
        decode?_encode manifest⟩

theorem Attributed.run (attributed : Attributed sessions store) {session : Session}
    (member : session ∈ sessions)
    (coherent : Coherent (UsedUnder sessions session.manifest) (rootsUnder sessions session.manifest))
    (readable : store.Readable (Meets sessions session.manifest · false)
      (Meets sessions session.manifest · true)) :
    Attributed sessions (session.run store) ∧ (session.run store).keepsText = store.keepsText := by
  obtain ⟨status, prepared, isPrepared, keepsText, sound, text, marked, same⟩ :=
    attributed.prepare session.manifest
  have readable' : prepared.Readable (Meets sessions session.manifest · false)
      (Meets sessions session.manifest · true) := by
    rw [ArtifactStore.Readable, keepsText]
    exact readable
  obtain ⟨sound', setup⟩ := (sound_of_store sound).performAll coherent.scope session.calls readable'
    (fun call inside => ⟨session, member, rfl, call, inside, rfl⟩)
    fun call inside root listed => .root (mem_rootsUnder.2 ⟨session, member, rfl, call, inside, listed⟩)
  rw [Session.run, isPrepared]
  refine ⟨⟨sound'.store.inOrder, fun unmarked => ?_, fun text' manifest marked' same' => ?_⟩,
    setup.keepsText.trans keepsText⟩
  · rw [setup.metadata, marked] at unmarked
    cases unmarked
  · rw [setup.metadata, marked, Option.some.injEq] at marked'
    rw [← marked', same, Option.some.injEq] at same'
    exact same' ▸ sound'.store

/-- Whatever sessions do one after another, what they leave behind can be attributed. -/
theorem Attributed.runAll (attributed : Attributed sessions store) (earlier : List Session)
    (within : ∀ session ∈ earlier, session ∈ sessions)
    (coherent : ∀ manifest, Coherent (UsedUnder sessions manifest) (rootsUnder sessions manifest))
    (readable : ∀ manifest, store.Readable (Meets sessions manifest · false)
      (Meets sessions manifest · true)) :
    Attributed sessions (runAll earlier store) ∧ (runAll earlier store).keepsText = store.keepsText := by
  induction earlier generalizing store with
  | nil => exact ⟨attributed, rfl⟩
  | cons session rest ih =>
    obtain ⟨attributed', keepsText⟩ := attributed.run (within session List.mem_cons_self) (coherent _)
      (readable _)
    have readable' (manifest : BuildManifest) : (session.run store).Readable
        (Meets sessions manifest · false) (Meets sessions manifest · true) := by
      rw [ArtifactStore.Readable, keepsText]
      exact readable manifest
    obtain ⟨last, keepsText'⟩ := ih attributed'
      (fun other member => within other (List.mem_cons_of_mem _ member)) readable'
    exact ⟨last, keepsText'.trans keepsText⟩

theorem attributed_blank (sessions : List Session) (blank : ({ store } : Workspace).IsBlank)
    (unmarked : store.metadata = .empty) : Attributed sessions store where
  inOrder := blank.inOrder
  unmarked _ := blank.sidecars
  sound text manifest marked := by
    rw [unmarked] at marked
    cases marked

end ModuleBuild
