import ModuleBuild.Artifact.Store
/-!
Keys of stored output belong to one module each, and every content hash has a token that fills a slot.
-/

namespace ModuleBuild

/-! ## Keys -/

/-- The part of an artifact key that tells modules apart. -/
def ownerDigest (specifier : Specifier) : String :=
  String.ofList ((Blake3.hexDigits (Blake3.hash (Text.bytes specifier.text))).take 16)

theorem artifactKey_eq (specifier : Specifier) (hash : String) :
    artifactKey specifier hash = hash ++ "-" ++ ownerDigest specifier := rfl

theorem length_ownerDigest (specifier : Specifier) : (ownerDigest specifier).toList.length = 16 := by
  simp [ownerDigest, Blake3.length_hexDigits]

theorem artifactKey_toList (specifier : Specifier) (hash : String) :
    (artifactKey specifier hash).toList =
      (hash.toList ++ ['-']) ++ (ownerDigest specifier).toList := by
  simp [artifactKey_eq, String.toList_append]

theorem artifactKey_inj {first second : Specifier} {hash other : String}
    (same : artifactKey first hash = artifactKey second other) :
    ownerDigest first = ownerDigest second ∧ hash = other := by
  have chars := congrArg String.toList same
  rw [artifactKey_toList, artifactKey_toList] at chars
  obtain ⟨hashes, owners⟩ := List.append_inj' chars
    (by rw [length_ownerDigest, length_ownerDigest])
  exact ⟨String.toList_inj.1 owners, String.toList_inj.1 (List.append_cancel_right hashes)⟩

theorem artifactKey_ne_empty (specifier : Specifier) (hash : String) : artifactKey specifier hash ≠ "" := by
  intro same
  have chars := congrArg String.toList same
  simp [artifactKey_toList] at chars

/-- No two of some modules share the digest that tells their keys apart. -/
def DigestsDistinct (modules : Specifier → Prop) : Prop :=
  ∀ first second, modules first → modules second → ownerDigest first = ownerDigest second →
    first = second

theorem DigestsDistinct.artifactKey_ne {modules : Specifier → Prop}
    (distinct : DigestsDistinct modules) {first second : Specifier} (one : modules first)
    (two : modules second) (differ : first ≠ second) (hash other : String) :
    artifactKey first hash ≠ artifactKey second other :=
  fun same => differ (distinct first second one two (artifactKey_inj same).1)

/-! ## Tokens -/

namespace Utf8

theorem width_cons (c : Char) (text : List Char) : width (c :: text) = c.utf8Size + width text := by
  simp [width, String.length_utf8EncodeChar]

theorem length_le_width (text : List Char) : text.length ≤ width text := by
  induction text with
  | nil => simp [width]
  | cons c text ih =>
    have := c.utf8Size_pos
    rw [width_cons, List.length_cons]
    omega

theorem split?_eq_some {n : Nat} {text before after : List Char}
    (cut : split? n text = some (before, after)) : width before = n ∧ before ++ after = text := by
  induction n, text using split?.induct generalizing before with
  | case1 text =>
    obtain ⟨rfl, rfl⟩ := Prod.mk.inj (Option.some.inj (split?.eq_1 text ▸ cut))
    exact ⟨rfl, rfl⟩
  | case2 n => simp [split?] at cut
  | case3 n c text fits ih =>
    rw [split?, if_pos fits, Option.map_eq_some_iff] at cut
    obtain ⟨⟨start, rest⟩, inner, same⟩ := cut
    obtain ⟨rfl, rfl⟩ := Prod.mk.inj same
    obtain ⟨width, text⟩ := ih inner
    exact ⟨by rw [width_cons, width]; omega, by rw [List.cons_append, text]⟩
  | case4 n c text large => simp [split?, large] at cut

theorem split?_of_ascii {text : List Char} (ascii : ∀ c ∈ text, c.utf8Size = 1) {n : Nat}
    (inside : n ≤ text.length) : split? n text = some (text.take n, text.drop n) := by
  induction text generalizing n with
  | nil =>
    obtain rfl : n = 0 := by simpa using inside
    rw [split?]
    rfl
  | cons c text ih =>
    cases n with
    | zero => rfl
    | succ n =>
      have single := ascii c List.mem_cons_self
      rw [split?, single, if_pos (by omega), Nat.add_sub_cancel,
        ih (fun other member => ascii other (List.mem_cons_of_mem _ member)) (by simpa using inside)]
      rfl

theorem width_of_ascii {text : List Char} (ascii : ∀ c ∈ text, c.utf8Size = 1) :
    width text = text.length := by
  induction text with
  | nil => rfl
  | cons c text ih =>
    rw [width_cons, ascii c List.mem_cons_self,
      ih fun other member => ascii other (List.mem_cons_of_mem _ member), List.length_cons,
      Nat.add_comm]

end Utf8

def HasToken (hash : String) : Prop :=
  ∃ token, hashToken? hash = some token ∧ (Text.bytes token).length = tokenLength

theorem hasToken_of_hashToken? {hash : String} (long : tokenLength ≤ hash.length)
    (cut : (hashToken? hash).isSome) : HasToken hash := by
  obtain ⟨token, found⟩ := Option.isSome_iff_exists.1 cut
  refine ⟨token, found, ?_⟩
  obtain ⟨⟨before, after⟩, split, rfl⟩ := Option.map_eq_some_iff.1 found
  have wide := Utf8.length_le_width hash.toList
  rw [String.length_toList] at wide
  rw [Text.bytes, String.toList_ofList, ← Utf8.width, (Utf8.split?_eq_some split).1]
  omega

theorem hashToken?_of_ascii {hash : String} (ascii : ∀ c ∈ hash.toList, c.utf8Size = 1)
    (long : tokenLength ≤ hash.length) :
    hashToken? hash = some (String.ofList (hash.toList.take tokenLength)) := by
  have wide : min (Utf8.width hash.toList) tokenLength = tokenLength := by
    rw [Utf8.width_of_ascii ascii, String.length_toList]
    omega
  simp only [hashToken?, wide]
  rw [Utf8.split?_of_ascii ascii (by rwa [String.length_toList]), Option.map_some]

theorem hashToken?_isSome_of_ascii {hash : String} (ascii : ∀ c ∈ hash.toList, c.utf8Size = 1) :
    (hashToken? hash).isSome := by
  have inside : min (Utf8.width hash.toList) tokenLength ≤ hash.toList.length := by
    rw [Utf8.width_of_ascii ascii]
    exact Nat.min_le_left _ _
  rw [hashToken?, Utf8.split?_of_ascii ascii inside]
  rfl

theorem ascii_hex (bytes : Bytes) : ∀ c ∈ (Blake3.hex bytes).toList, c.utf8Size = 1 := by
  intro c member
  rw [Blake3.hex, String.toList_ofList] at member
  obtain ⟨n, small, rfl⟩ := Blake3.mem_hexDigits member
  have digits : ∀ m < 16, (Nat.digitChar m).utf8Size = 1 := by decide
  exact digits n small

theorem ascii_foldHashes {source : String} (ascii : ∀ c ∈ source.toList, c.utf8Size = 1)
    (imports : List String) : ∀ c ∈ (foldHashes source imports).toList, c.utf8Size = 1 := by
  unfold foldHashes
  split
  · exact ascii
  · exact ascii_hex _

theorem tokenLength_le_hex (bytes : Bytes) : tokenLength ≤ (Blake3.hex bytes).length := by
  rw [Blake3.length_hex, tokenLength]
  omega

theorem hashToken?_hex (bytes : Bytes) :
    hashToken? (Blake3.hex bytes) =
      some (String.ofList ((Blake3.hex bytes).toList.take tokenLength)) :=
  hashToken?_of_ascii (ascii_hex bytes) (tokenLength_le_hex bytes)

theorem hasToken_hex (bytes : Bytes) : HasToken (Blake3.hex bytes) :=
  hasToken_of_hashToken? (tokenLength_le_hex bytes) (by rw [hashToken?_hex]; rfl)

theorem hasToken_foldHashes {source : String} (token : HasToken source) (imports : List String) :
    HasToken (foldHashes source imports) := by
  unfold foldHashes
  split
  · exact token
  · exact hasToken_hex _

end ModuleBuild
