import ModuleBuild.Text.Utf8
import Mathlib.Data.List.Forall2
/-!
Texts are read back from their bytes, and stay texts when characters of one byte are written over others.
-/

namespace ModuleBuild.Utf8

section Pieces

variable {a b c d : UInt8} (found : List Piece) (rest : Bytes)

theorem piecesOnto_one (small : a < 0x80) :
    piecesOnto found (a :: rest) = piecesOnto (.character (Char.ofNat a.toNat) :: found) rest := by
  rw [piecesOnto.eq_def]
  exact if_pos small

theorem piecesOnto_two (lead : 0xC2 ≤ a ∧ a ≤ 0xDF) (second : isContinuation b = true) :
    piecesOnto found (a :: b :: rest) =
      piecesOnto (.character (assemble (a.toNat - 0xC0) [b]) :: found) rest := by
  have large : ¬ a < 0x80 := by grind
  rw [piecesOnto.eq_def]
  simp [large, lead, second]

theorem piecesOnto_three (lead : 0xE0 ≤ a ∧ a ≤ 0xEF) (second : mayFollow a b = true)
    (third : isContinuation c = true) :
    piecesOnto found (a :: b :: c :: rest) =
      piecesOnto (.character (assemble (a.toNat - 0xE0) [b, c]) :: found) rest := by
  have large : ¬ a < 0x80 := by grind
  have notTwo : ¬ (0xC2 ≤ a ∧ a ≤ 0xDF) := by grind
  rw [piecesOnto.eq_def]
  simp [large, notTwo, lead, second, third]

theorem piecesOnto_four (lead : 0xF0 ≤ a ∧ a ≤ 0xF4) (second : mayFollow a b = true)
    (third : isContinuation c = true) (fourth : isContinuation d = true) :
    piecesOnto found (a :: b :: c :: d :: rest) =
      piecesOnto (.character (assemble (a.toNat - 0xF0) [b, c, d]) :: found) rest := by
  have large : ¬ a < 0x80 := by grind
  have notTwo : ¬ (0xC2 ≤ a ∧ a ≤ 0xDF) := by grind
  have notThree : ¬ (0xE0 ≤ a ∧ a ≤ 0xEF) := by grind
  rw [piecesOnto.eq_def]
  simp [large, notTwo, notThree, lead, second, third, fourth]

end Pieces

theorem toNat_ofNat {n : Nat} (small : n < 256) : (UInt8.ofNat n).toNat = n :=
  UInt8.toNat_ofNat_of_lt' small

theorem toNat_tail (n : Nat) : (UInt8.ofNat (n % 64 + 128)).toNat = n % 64 + 128 :=
  toNat_ofNat (by omega)

theorem isContinuation_tail (n : Nat) : isContinuation (UInt8.ofNat (n % 64 + 128)) = true := by
  simp only [isContinuation, Bool.and_eq_true, decide_eq_true_eq, UInt8.le_iff_toNat_le, toNat_tail,
    UInt8.reduceToNat]
  omega

theorem mayFollow_tail {lead n : Nat} (small : lead < 256) (least : lead = 0xE0 → 0x20 ≤ n % 64)
    (surrogate : lead = 0xED → n % 64 < 0x20) (least' : lead = 0xF0 → 0x10 ≤ n % 64)
    (largest : lead = 0xF4 → n % 64 < 0x10) :
    mayFollow (UInt8.ofNat lead) (UInt8.ofNat (n % 64 + 128)) = true := by
  have continuation := isContinuation_tail n
  simp only [mayFollow, ← UInt8.toNat_inj, toNat_ofNat small, UInt8.reduceToNat]
  repeat' split
  all_goals
    simp only [continuation, Bool.and_eq_true, decide_eq_true_eq, UInt8.le_iff_toNat_le, toNat_tail,
      UInt8.reduceToNat]
  all_goals omega

theorem piecesOnto_encode (found : List Piece) (c : Char) (rest : Bytes) :
    piecesOnto found (String.utf8EncodeChar c ++ rest) = piecesOnto (.character c :: found) rest := by
  have valid : c.val.toNat < 0xD800 ∨ 0xDFFF < c.val.toNat ∧ c.val.toNat < 0x110000 := c.valid
  have done {code : Nat} (same : code = c.val.toNat) :
      piecesOnto (.character (Char.ofNat code) :: found) rest = piecesOnto (.character c :: found) rest := by
    rw [same, ← Char.toNat, Char.ofNat_toNat]
  -- one case for each number of bytes that a character can take
  fun_cases String.utf8EncodeChar c with
  | case1 v small =>
    have byte : (UInt8.ofNat v).toNat = v := toNat_ofNat (by omega)
    have lead : UInt8.ofNat v < 0x80 := by
      simp only [UInt8.lt_iff_toNat_lt, byte, UInt8.reduceToNat]
      omega
    rw [List.singleton_append, piecesOnto_one _ _ lead, byte]
    exact done rfl
  | case2 v large small =>
    have byte : (UInt8.ofNat (v / 64 % 32 + 192)).toNat = v / 64 % 32 + 192 := toNat_ofNat (by omega)
    have lead : 0xC2 ≤ UInt8.ofNat (v / 64 % 32 + 192) ∧ UInt8.ofNat (v / 64 % 32 + 192) ≤ 0xDF := by
      simp only [UInt8.le_iff_toNat_le, byte, UInt8.reduceToNat]
      omega
    have code : (v / 64 % 32 + 192 - 192) * 64 + (v % 64 + 128 - 128) = v := by omega
    rw [List.cons_append, List.cons_append, List.nil_append, piecesOnto_two _ _ lead (isContinuation_tail v)]
    simp only [assemble, List.foldl_cons, List.foldl_nil, toNat_tail, byte]
    exact done code
  | case3 v large large' small =>
    have byte : (UInt8.ofNat (v / 4096 % 16 + 224)).toNat = v / 4096 % 16 + 224 := toNat_ofNat (by omega)
    have lead : 0xE0 ≤ UInt8.ofNat (v / 4096 % 16 + 224) ∧ UInt8.ofNat (v / 4096 % 16 + 224) ≤ 0xEF := by
      simp only [UInt8.le_iff_toNat_le, byte, UInt8.reduceToNat]
      omega
    have second : mayFollow (UInt8.ofNat (v / 4096 % 16 + 224)) (UInt8.ofNat (v / 64 % 64 + 128)) = true :=
      mayFollow_tail (by omega) (by omega) (by omega) (by omega) (by omega)
    have code : ((v / 4096 % 16 + 224 - 224) * 64 + (v / 64 % 64 + 128 - 128)) * 64 + (v % 64 + 128 - 128) =
        v := by omega
    rw [List.cons_append, List.cons_append, List.cons_append, List.nil_append,
      piecesOnto_three _ _ lead second (isContinuation_tail v)]
    simp only [assemble, List.foldl_cons, List.foldl_nil, toNat_tail, byte]
    exact done code
  | case4 v large large' large'' =>
    have byte : (UInt8.ofNat (v / 262144 % 8 + 240)).toNat = v / 262144 % 8 + 240 := toNat_ofNat (by omega)
    have lead : 0xF0 ≤ UInt8.ofNat (v / 262144 % 8 + 240) ∧ UInt8.ofNat (v / 262144 % 8 + 240) ≤ 0xF4 := by
      simp only [UInt8.le_iff_toNat_le, byte, UInt8.reduceToNat]
      omega
    have second : mayFollow (UInt8.ofNat (v / 262144 % 8 + 240)) (UInt8.ofNat (v / 4096 % 64 + 128)) =
        true := mayFollow_tail (by omega) (by omega) (by omega) (by omega) (by omega)
    have code : (((v / 262144 % 8 + 240 - 240) * 64 + (v / 4096 % 64 + 128 - 128)) * 64 +
        (v / 64 % 64 + 128 - 128)) * 64 + (v % 64 + 128 - 128) = v := by omega
    rw [List.cons_append, List.cons_append, List.cons_append, List.cons_append, List.nil_append,
      piecesOnto_four _ _ lead second (isContinuation_tail (v / 64)) (isContinuation_tail v)]
    simp only [assemble, List.foldl_cons, List.foldl_nil, toNat_tail, byte]
    exact done code

theorem pieces_encode (text : List Char) : pieces (encode text) = text.map .character := by
  have onto (found : List Piece) :
      piecesOnto found (encode text) = (text.map .character).reverse ++ found := by
    induction text generalizing found with
    | nil =>
      rw [encode_nil, piecesOnto.eq_def]
      rfl
    | cons c text ih =>
      rw [encode_cons, piecesOnto_encode, ih]
      simp
  rw [pieces, onto]
  simp

theorem decode_encode (text : List Char) : decode (encode text) = .ok text := by
  have onto (before : List Char) (index : Nat) :
      readOnto before index (text.map .character) = .ok (before.reverse ++ text) := by
    induction text generalizing before index with
    | nil => simp [readOnto]
    | cons c text ih => simp [readOnto, ih]
  rw [decode, pieces_encode, onto]
  rfl

theorem encode_injective {first second : List Char} (same : encode first = encode second) :
    first = second := by
  have decoded := congrArg decode same
  rwa [decode_encode, decode_encode, Except.ok.injEq] at decoded

/-! ## Characters of one byte -/

theorem utf8EncodeChar_cases (c : Char) :
    (∃ byte, String.utf8EncodeChar c = [byte] ∧ byte < 0x80) ∨
      1 < c.utf8Size ∧ ∀ byte ∈ String.utf8EncodeChar c, ¬ byte < 0x80 := by
  rw [← String.length_utf8EncodeChar]
  have tail (n : Nat) : ¬ UInt8.ofNat (n % 64 + 128) < 0x80 := by
    simp only [UInt8.lt_iff_toNat_lt, toNat_tail, UInt8.reduceToNat]
    omega
  have lead {n : Nat} (small : n < 256) (large : 128 ≤ n) : ¬ UInt8.ofNat n < 0x80 := by
    simp only [UInt8.lt_iff_toNat_lt, toNat_ofNat small, UInt8.reduceToNat]
    omega
  fun_cases String.utf8EncodeChar c with
  | case1 v small =>
    refine .inl ⟨_, rfl, ?_⟩
    simp only [UInt8.lt_iff_toNat_lt, toNat_ofNat (show v < 256 by omega), UInt8.reduceToNat]
    omega
  | case2 v =>
    refine .inr ⟨by simp, ?_⟩
    simp only [List.forall_mem_cons, List.not_mem_nil, false_implies, implies_true, and_true]
    exact ⟨lead (by omega) (by omega), tail _⟩
  | case3 v =>
    refine .inr ⟨by simp, ?_⟩
    simp only [List.forall_mem_cons, List.not_mem_nil, false_implies, implies_true, and_true]
    exact ⟨lead (by omega) (by omega), tail _, tail _⟩
  | case4 v =>
    refine .inr ⟨by simp, ?_⟩
    simp only [List.forall_mem_cons, List.not_mem_nil, false_implies, implies_true, and_true]
    exact ⟨lead (by omega) (by omega), tail _, tail _, tail _⟩

theorem lt_of_mem_encode {text : List Char} (plain : ∀ c ∈ text, c.utf8Size = 1) {byte : UInt8}
    (member : byte ∈ encode text) : byte < 0x80 := by
  obtain ⟨c, inside, own⟩ := List.mem_flatMap.1 member
  rcases utf8EncodeChar_cases c with ⟨only, same, small⟩ | ⟨wide, -⟩
  · rw [same, List.mem_singleton] at own
    exact own ▸ small
  · rw [plain c inside] at wide
    exact absurd wide (Nat.lt_irrefl 1)

theorem utf8EncodeChar_ofNat {byte : UInt8} (small : byte < 0x80) :
    String.utf8EncodeChar (Char.ofNat byte.toNat) = [byte] := by
  have low : byte.toNat < 0x80 := UInt8.lt_iff_toNat_lt.1 small
  have value : (Char.ofNat byte.toNat).toNat = byte.toNat := by
    rw [Char.ofNat, dif_pos (show byte.toNat.isValidChar from .inl (by omega))]
    rfl
  have least : byte.toNat ≤ 127 := by omega
  simp [String.utf8EncodeChar, value, least]

/-- Bytes of one length that differ in characters of one byte only. -/
def SameButPlain (first second : Bytes) : Prop :=
  List.Forall₂ (fun a b => a = b ∨ a < 0x80 ∧ b < 0x80) first second

theorem exists_eq_encode {bytes : Bytes} {text : List Char} (same : SameButPlain bytes (encode text)) :
    ∃ other, bytes = encode other := by
  induction text generalizing bytes with
  | nil => exact ⟨[], List.forall₂_nil_right_iff.1 same⟩
  | cons c text ih =>
    rw [encode_cons] at same
    obtain ⟨other, rest⟩ := ih (List.forall₂_drop_append _ _ _ same)
    have first := List.forall₂_take_append _ _ _ same
    suffices ∃ d, bytes.take (String.utf8EncodeChar c).length = String.utf8EncodeChar d by
      obtain ⟨d, head⟩ := this
      refine ⟨d :: other, ?_⟩
      rw [encode_cons, ← head, ← rest, List.take_append_drop]
    rcases utf8EncodeChar_cases c with ⟨only, isOnly, small⟩ | ⟨-, large⟩
    · rw [isOnly] at first ⊢
      obtain ⟨byte, rest, equal, done, head⟩ := List.forall₂_cons_right_iff.1 first
      obtain rfl := List.forall₂_nil_right_iff.1 done
      refine ⟨Char.ofNat byte.toNat, head.trans (utf8EncodeChar_ofNat ?_).symm⟩
      rcases equal with rfl | both
      · exact small
      · exact both.1
    · have equal : List.Forall₂ (· = ·) (String.utf8EncodeChar c)
          (bytes.take (String.utf8EncodeChar c).length) := by
        refine ((List.forall₂_and_left _ _).2 ⟨large, first.flip⟩).imp ?_
        rintro old new ⟨wide, rfl | both⟩
        · rfl
        · exact absurd both.2 wide
      rw [List.forall₂_eq_eq_eq] at equal
      exact ⟨c, equal.symm⟩

end ModuleBuild.Utf8
