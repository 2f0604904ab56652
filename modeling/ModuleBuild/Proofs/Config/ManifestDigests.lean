import ModuleBuild.Config.Basic
import ModuleBuild.Proofs.Text.Encoding
/-!
What the manifest of a configuration tells of it. A digest is taken of texts with their lengths between
them, so the texts can be told apart again: two configurations have one manifest exactly when they have the
same aliases in the same order, the same patterns and the same addresses to compile, and these are all that
imports are resolved by.
-/

namespace ModuleBuild

namespace BuildManifest

def lengthOf (bytes : Bytes) : Nat := bytes.foldr (fun b rest => b.toNat + 256 * rest) 0

theorem lengthOf_lengthBytes (length : Nat) : lengthOf (lengthBytes length) = length % UInt64.size := by
  simp only [lengthOf, lengthBytes, List.range_succ, List.range_zero, List.nil_append, List.cons_append,
    List.map_cons, List.map_nil, List.foldr_cons, List.foldr_nil, Nat.toUInt8_eq, UInt8.toNat_ofNat',
    Nat.shiftRight_eq_div_pow, UInt64.size]
  omega

theorem length_lengthBytes (length : Nat) : (lengthBytes length).length = 8 := by simp [lengthBytes]

def stream (parts : List String) : Bytes :=
  parts.flatMap fun part => lengthBytes (Text.bytes part).length ++ Text.bytes part

/-- The lengths of all texts can be written in eight bytes. -/
def Measured (parts : List String) : Prop := ∀ part ∈ parts, (Text.bytes part).length < UInt64.size

theorem stream_injective {first second : List String} (measured : Measured first)
    (measured' : Measured second) (same : stream first = stream second) : first = second := by
  induction first generalizing second with
  | nil =>
    cases second with
    | nil => rfl
    | cons part rest => simp [stream, lengthBytes] at same
  | cons part rest ih =>
    cases second with
    | nil => simp [stream, lengthBytes] at same
    | cons part' rest' =>
      simp only [stream, List.flatMap_cons, List.append_assoc] at same
      obtain ⟨lengths, texts⟩ := List.append_inj same (by rw [length_lengthBytes, length_lengthBytes])
      have length : (Text.bytes part).length = (Text.bytes part').length := by
        have read := congrArg lengthOf lengths
        rwa [lengthOf_lengthBytes, lengthOf_lengthBytes, Nat.mod_eq_of_lt (measured part List.mem_cons_self),
          Nat.mod_eq_of_lt (measured' part' List.mem_cons_self)] at read
      obtain ⟨own, others⟩ := List.append_inj texts length
      rw [String.toList_injective (Utf8.encode_injective own),
        ih (fun other member => measured other (List.mem_cons_of_mem _ member))
          (fun other member => measured' other (List.mem_cons_of_mem _ member)) others]

end BuildManifest

namespace Config

open BuildManifest

/-- The texts of the aliases, each name before its target. -/
def aliasTexts (config : Config) : List String :=
  config.importMap.entries.flatMap fun (name, target) => [name, target]

/-- The patterns and the addresses to compile, each after a word that says which it is. -/
def ruleTexts (config : Config) : List String :=
  config.external.flatMap (["external", ·]) ++ config.compileRemote.flatMap (["compile_remote", ·])

theorem eq_of_flatMap_pairs {first second : List (String × String)}
    (same : first.flatMap (fun (name, target) => [name, target]) =
      second.flatMap fun (name, target) => [name, target]) : first = second := by
  induction first generalizing second with
  | nil =>
    cases second with
    | nil => rfl
    | cons pair rest => simp at same
  | cons pair rest ih =>
    cases second with
    | nil => simp at same
    | cons pair' rest' =>
      simp only [List.flatMap_cons, List.cons_append, List.nil_append, List.cons.injEq] at same
      obtain ⟨name, target, others⟩ := same
      rw [Prod.ext name target, ih others]

theorem aliases_eq {first second : Config} (same : first.aliasTexts = second.aliasTexts) :
    first.importMap = second.importMap :=
  OrderedMap.ext (eq_of_flatMap_pairs same)

/-- Texts after their words are pairs, and the words say where the second list begins. -/
theorem rules_eq {first second : Config} (same : first.ruleTexts = second.ruleTexts) :
    first.external = second.external ∧ first.compileRemote = second.compileRemote := by
  have pairs (config : Config) : config.ruleTexts =
      (config.external.map (Prod.mk "external") ++
        config.compileRemote.map (Prod.mk "compile_remote")).flatMap
          fun (word, text) => [word, text] := by
    simp only [ruleTexts, List.flatMap_append, List.flatMap_map]
  rw [pairs, pairs] at same
  have listed := eq_of_flatMap_pairs same
  have under (word : String) := congrArg (List.map Prod.snd ∘ List.filter (·.1 = word)) listed
  have whole (texts : List String) : texts.filter (fun _ => true) = texts := List.filter_eq_self.2 fun _ _ => rfl
  have empty (texts : List String) : texts.filter (fun _ => false) = [] := List.filter_eq_nil_iff.2 nofun
  constructor
  · simpa [Function.comp_def, List.filter_map, whole, empty] using under "external"
  · simpa [Function.comp_def, List.filter_map, whole, empty] using under "compile_remote"

/-- The bytes that are hashed for the manifest of a configuration. -/
def hashedForManifest (config : Config) : List Bytes := [stream config.aliasTexts, stream config.ruleTexts]

theorem manifest_eq (config : Config) : config.manifest =
    .ofDigests (Blake3.hex (stream config.aliasTexts)) (Blake3.hex (stream config.ruleTexts)) := rfl

/-- Two configurations have one manifest exactly when nothing differs that imports are resolved by, unless
what is hashed collides; a text is always shorter than eight bytes can tell. With one manifest, every import
of every module leads to the same place, or has the same fault. -/
theorem manifest_eq_iff (first second : Config)
    (measured : Measured (first.aliasTexts ++ first.ruleTexts))
    (measured' : Measured (second.aliasTexts ++ second.ruleTexts))
    (collisionFree : ∀ one ∈ first.hashedForManifest, ∀ two ∈ second.hashedForManifest,
      Blake3.hex one = Blake3.hex two → one = two) :
    (first.manifest = second.manifest ↔ first.importMap = second.importMap ∧
      first.external = second.external ∧ first.compileRemote = second.compileRemote) ∧
    (first.manifest = second.manifest → ∀ importer? written,
      first.resolver.map (·.resolve importer? written) =
        second.resolver.map (·.resolve importer? written)) := by
  have lists : first.manifest = second.manifest → first.importMap = second.importMap ∧
      first.external = second.external ∧ first.compileRemote = second.compileRemote := by
    intro same
    rw [manifest_eq, manifest_eq, ofDigests, ofDigests, BuildManifest.mk.injEq] at same
    obtain ⟨-, aliases, rules⟩ := same
    have aliases' := collisionFree _ List.mem_cons_self _ List.mem_cons_self aliases
    have rules' := collisionFree _ (List.mem_cons_of_mem _ List.mem_cons_self) _
      (List.mem_cons_of_mem _ List.mem_cons_self) rules
    rw [Measured, List.forall_mem_append] at measured measured'
    exact ⟨aliases_eq (stream_injective measured.1 measured'.1 aliases'),
      rules_eq (stream_injective measured.2 measured'.2 rules')⟩
  refine ⟨⟨lists, ?_⟩, fun same importer? written => ?_⟩
  · rintro ⟨aliases, patterns, addresses⟩
    simp only [manifest, importMapDigest, resolutionDigest, aliases, patterns, addresses]
  · obtain ⟨aliases, patterns, addresses⟩ := lists same
    simp only [resolver, aliases, patterns, addresses]

/-- A text that moves from the patterns to the addresses changes the manifest. -/
theorem manifest_ne_of_moved :
    let left : Config := { external := ["^https://cdn/"] }
    let compiled : Config := { compileRemote := ["^https://cdn/"] }
    left.manifest ≠ compiled.manifest := by
  intro left compiled same
  have exact := manifest_eq_iff left compiled (by unfold Measured; decide) (by unfold Measured; decide)
    (by decide +kernel)
  cases (exact.1.1 same).2.1

end Config

end ModuleBuild
