import ModuleBuild.Proofs.Graph.HashSensitivity
/-!
What is hashed when a source is folded with the hashes of its imports. Without imports it is the source itself;
otherwise it is a text of hashes. Two folds with one hash have hashed one text. So they fold the same, unless
one of them has no imports and its source is just the text of hashes of the other.
-/

namespace ModuleBuild.ContentHash

/-- A hash as it is written: 64 hexadecimal digits in lower case. -/
structure IsHash (text : String) : Prop where
  full : text.length = 64
  digits : ∀ c ∈ text.toList, c ∈ "0123456789abcdef".toList

theorem isHash_hex (bytes : Bytes) : IsHash (Blake3.hex bytes) where
  full := Blake3.length_hex bytes
  digits c member := by
    rw [Blake3.hex, String.toList_ofList] at member
    obtain ⟨n, small, rfl⟩ := Blake3.mem_hexDigits member
    clear member
    revert n
    decide

/-- The hash of a source and those of imports, written one after another. -/
def hashText (source : Bytes) (imports : List String) : Bytes :=
  Text.bytes (sourceHash source) ++ imports.flatMap Text.bytes

def foldedBytes (source : Bytes) (imports : List String) : Bytes :=
  if imports.isEmpty then source else hashText source imports

/-- All that is hashed for a fold: the source, and then what it is folded to. -/
def hashedFor (source : Bytes) (imports : List String) : List Bytes :=
  [source, foldedBytes source imports]

variable {first second : Bytes} {imports others : List String}

theorem foldHashes_sourceHash (source : Bytes) (imports : List String) :
    foldHashes (sourceHash source) imports = Blake3.hex (foldedBytes source imports) := by
  unfold foldHashes foldedBytes
  split
  · rfl
  · rfl

@[simp] theorem foldedBytes_nil (source : Bytes) : foldedBytes source [] = source := rfl

@[simp] theorem foldedBytes_cons (source : Bytes) (hash : String) (imports : List String) :
    foldedBytes source (hash :: imports) = hashText source (hash :: imports) := rfl

theorem hashText_injective (full : ∀ hash ∈ imports, hash.length = 64)
    (full' : ∀ hash ∈ others, hash.length = 64) (same : hashText first imports = hashText second others) :
    sourceHash first = sourceHash second ∧ imports = others := by
  have long (source : Bytes) {hashes : List String} (full : ∀ hash ∈ hashes, hash.length = 64) :
      ∀ hash ∈ sourceHash source :: hashes, hash.length = 64 :=
    List.forall_mem_cons.2 ⟨Blake3.length_hex source, full⟩
  exact List.cons.inj (eq_of_flatMap_bytes (long first full) (long second full') same)

/-- Two folds have one hash exactly when they fold one source with one list of hashes, or the source of one of
them, folded with nothing, is the text of hashes of the other. -/
theorem foldHashes_sourceHash_eq_iff (full : ∀ hash ∈ imports, IsHash hash)
    (full' : ∀ hash ∈ others, IsHash hash)
    (collisionFree : ∀ one ∈ hashedFor first imports, ∀ two ∈ hashedFor second others,
      Blake3.hex one = Blake3.hex two → one = two) :
    foldHashes (sourceHash first) imports = foldHashes (sourceHash second) others ↔
      first = second ∧ imports = others ∨
        imports = [] ∧ others ≠ [] ∧ first = hashText second others ∨
        others = [] ∧ imports ≠ [] ∧ second = hashText first imports := by
  rw [foldHashes_sourceHash, foldHashes_sourceHash]
  constructor
  · intro same
    have folded : foldedBytes first imports = foldedBytes second others :=
      collisionFree _ (by simp [hashedFor]) _ (by simp [hashedFor]) same
    cases imports with
    | nil =>
      cases others with
      | nil => exact .inl ⟨folded, rfl⟩
      | cons hash others => exact .inr (.inl ⟨rfl, List.cons_ne_nil _ _, folded⟩)
    | cons hash imports =>
      cases others with
      | nil => exact .inr (.inr ⟨rfl, List.cons_ne_nil _ _, folded.symm⟩)
      | cons hash' others =>
        obtain ⟨sources, lists⟩ := hashText_injective (fun hash member => (full hash member).full)
          (fun hash member => (full' hash member).full) folded
        have own : first = second :=
          collisionFree first (by simp [hashedFor]) second (by simp [hashedFor]) sources
        exact .inl ⟨own, lists⟩
  · rintro (⟨rfl, rfl⟩ | ⟨rfl, nonempty, own⟩ | ⟨rfl, nonempty, own⟩)
    · rfl
    · obtain ⟨hash, others, rfl⟩ := List.exists_cons_of_ne_nil nonempty
      exact congrArg Blake3.hex own
    · obtain ⟨hash, imports, rfl⟩ := List.exists_cons_of_ne_nil nonempty
      exact congrArg Blake3.hex own.symm

/-- A source has not the same hash with an import as without. -/
theorem foldHashes_sourceHash_eq_iff_import :
    (∀ hash ∈ [Blake3.hex []], IsHash hash) ∧ (∀ hash ∈ ([] : List String), IsHash hash) ∧
    (∀ one ∈ hashedFor [97] [Blake3.hex []], ∀ two ∈ hashedFor [97] [],
      Blake3.hex one = Blake3.hex two → one = two) ∧
    foldHashes (sourceHash [97]) [Blake3.hex []] ≠ foldHashes (sourceHash [97]) [] := by
  have full : ∀ hash ∈ [Blake3.hex []], IsHash hash := by simp [isHash_hex]
  have empty : ∀ hash ∈ ([] : List String), IsHash hash := by simp
  have apart : Blake3.hex (hashText [97] [Blake3.hex []]) ≠ Blake3.hex [97] := by decide +kernel
  have collisionFree : ∀ one ∈ hashedFor [97] [Blake3.hex []], ∀ two ∈ hashedFor [97] [],
      Blake3.hex one = Blake3.hex two → one = two := by simp [hashedFor, apart]
  have text : [97] ≠ hashText [97] [Blake3.hex []] := fun same => apart (congrArg Blake3.hex same).symm
  refine ⟨full, empty, collisionFree, fun same => ?_⟩
  have folded := (foldHashes_sourceHash_eq_iff full empty collisionFree).1 same
  simp [text] at folded

/-- A source that is itself a text of hashes has, without imports, the hash of what has written this text. -/
theorem leaf_folds_like_importer :
    ¬ ∀ (first second : Bytes) (imports others : List String),
      (∀ hash ∈ imports, IsHash hash) → (∀ hash ∈ others, IsHash hash) →
      (∀ one ∈ hashedFor first imports ++ hashedFor second others,
        ∀ two ∈ hashedFor first imports ++ hashedFor second others,
        Blake3.hex one = Blake3.hex two → one = two) →
      foldHashes (sourceHash first) imports = foldHashes (sourceHash second) others →
      first = second ∧ imports = others := by
  intro unambiguous
  have apart : Blake3.hex (hashText [] [Blake3.hex []]) ≠ Blake3.hex [] := by decide +kernel
  obtain ⟨-, lists⟩ := unambiguous (hashText [] [Blake3.hex []]) [] [] [Blake3.hex []] (by simp)
    (by simp [isHash_hex]) (by simp [hashedFor, apart, apart.symm]) (by simp [foldHashes_sourceHash])
  cases lists

end ModuleBuild.ContentHash
