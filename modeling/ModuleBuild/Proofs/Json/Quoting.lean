import ModuleBuild.Json.Reader
import ModuleBuild.Proofs.Text.Encoding
/-!
Texts between quotes are read as they were written.
-/

namespace ModuleBuild.Json

variable {strict : Bool} {offset : Nat} {gathered : Option Bytes} {read : Bytes}

theorem stringFrom_skip (skipped rest : Bytes) :
    stringFrom strict offset skipped.length gathered (skipped ++ rest) =
      stringFrom strict (offset + skipped.length) 0 gathered rest := by
  induction skipped generalizing offset with
  | nil => rfl
  | cons b skipped ih =>
    rw [List.cons_append, stringFrom, if_pos (by simp), List.length_cons, Nat.add_sub_cancel, ih]
    congr 1
    omega

/-- A byte that stands for itself between quotes. -/
def IsPlain (b : UInt8) : Prop := b ≠ 0x22 ∧ b ≠ 0x5C ∧ ¬ b < 0x20

theorem stringFrom_plain {plain : Bytes} (isPlain : ∀ b ∈ plain, IsPlain b) (rest : Bytes) :
    stringFrom strict offset 0 (some read) (plain ++ rest) =
      stringFrom strict (offset + plain.length) 0 (some (plain.reverse ++ read)) rest := by
  induction plain generalizing offset read with
  | nil => rfl
  | cons b plain ih =>
    obtain ⟨noQuote, noEscape, noControl⟩ := isPlain b List.mem_cons_self
    rw [List.cons_append, stringFrom, if_neg (Nat.lt_irrefl 0), if_neg noQuote, if_neg noEscape,
      if_neg noControl, Option.map_some, ih fun other member => isPlain other (List.mem_cons_of_mem b member)]
    simp [Nat.add_assoc, Nat.add_comm 1]

theorem stringFrom_escape {c : Char} (marks : Bytes) {rest : Bytes}
    (escape : escapeAt strict (offset + 1) (marks ++ rest) = .ok (some c, marks.length)) :
    stringFrom strict offset 0 (some read) (0x5C :: marks ++ rest) =
      stringFrom strict (offset + (marks.length + 1)) 0 (some ((Utf8.encode [c]).reverse ++ read)) rest := by
  rw [List.cons_append, stringFrom, if_neg (Nat.lt_irrefl 0), if_neg (by decide), if_pos rfl, escape]
  dsimp only
  rw [stringFrom_skip]
  congr 1
  omega

theorem isPlain_of_large {n : Nat} (large : 0x80 ≤ n) (small : n < 256) : IsPlain (UInt8.ofNat n) := by
  simp only [IsPlain, ne_eq, ← UInt8.toNat_inj, UInt8.lt_iff_toNat_lt, Utf8.toNat_ofNat small,
    UInt8.reduceToNat]
  omega

theorem isPlain_of_mem_encode {c : Char} (noQuote : c ≠ '"') (noEscape : c ≠ '\\')
    (noControl : ¬ c.toNat < 32) : ∀ b ∈ String.utf8EncodeChar c, IsPlain b := by
  have differs {other : Char} (differ : c ≠ other) : c.val.toNat ≠ other.val.toNat :=
    fun same => differ (Char.ext (UInt32.toNat_inj.1 same))
  fun_cases String.utf8EncodeChar c with
  | case1 v small =>
    have quote : v ≠ 34 := differs noQuote
    have escape : v ≠ 92 := differs noEscape
    have control : ¬ v < 32 := noControl
    intro b member
    rw [List.mem_singleton.1 member]
    simp only [IsPlain, ne_eq, ← UInt8.toNat_inj, UInt8.lt_iff_toNat_lt,
      Utf8.toNat_ofNat (by omega : v < 256), UInt8.reduceToNat]
    omega
  | case2 v | case3 v | case4 v =>
    intro b member
    simp only [List.mem_cons, List.not_mem_nil, or_false] at member
    rcases member with rfl | rfl | rfl | rfl
    all_goals exact isPlain_of_large (by omega) (by omega)

def controlDigits (n : Nat) : Bytes :=
  Utf8.encode ['0', '0', Nat.digitChar (n / 16), Nat.digitChar (n % 16)]

theorem hexValue?_controlDigits :
    ∀ n < 32, (controlDigits n).length = 4 ∧ hexValue? (controlDigits n) = some n := by
  decide

theorem escapeAt_controlDigits {n : Nat} (control : n < 32) (rest : Bytes) :
    escapeAt strict offset (0x75 :: controlDigits n ++ rest) = .ok (some (Char.ofNat n), 5) := by
  obtain ⟨length, value⟩ := hexValue?_controlDigits n control
  have taken : (controlDigits n ++ rest).take 4 = controlDigits n := by rw [← length, List.take_left]
  have escape : hexEscape (offset + 1) (controlDigits n ++ rest) = .ok n := by
    rw [hexEscape, if_neg (by rw [List.length_append]; omega), taken, value]
  have notLow : ¬ (0xDC00 ≤ n ∧ n ≤ 0xDFFF) := by omega
  have notHigh : n < 0xD800 ∨ 0xDBFF < n := by omega
  simp [escapeAt, escape, notLow, notHigh]

theorem stringFrom_escaped (c : Char) (rest : Bytes) :
    stringFrom strict offset 0 (some read) (Utf8.encode (escaped c) ++ rest) =
      stringFrom strict (offset + (Utf8.encode (escaped c)).length) 0
        (some ((Utf8.encode [c]).reverse ++ read)) rest := by
  unfold escaped
  split
  · exact stringFrom_escape [0x22] rfl
  · exact stringFrom_escape [0x5C] rfl
  · exact stringFrom_escape [0x6E] rfl
  · exact stringFrom_escape [0x72] rfl
  · exact stringFrom_escape [0x74] rfl
  · exact stringFrom_escape [0x62] rfl
  · exact stringFrom_escape [0x66] rfl
  · next noQuote noEscape _ _ _ _ _ =>
    split
    · next control =>
      refine stringFrom_escape (0x75 :: controlDigits c.toNat) ?_
      rw [escapeAt_controlDigits control, Char.ofNat_toNat, List.length_cons,
        (hexValue?_controlDigits _ control).1]
    · next noControl =>
      rw [Utf8.encode_cons, Utf8.encode_nil, List.append_nil]
      exact stringFrom_plain (isPlain_of_mem_encode noQuote noEscape noControl) rest

theorem stringFrom_quoted (text : List Char) (rest : Bytes) :
    stringFrom strict offset 0 (some read) (Utf8.encode (text.flatMap escaped) ++ 0x22 :: rest) =
      .ok (some ((Utf8.encode text).reverse ++ read),
        offset + (Utf8.encode (text.flatMap escaped)).length + 1) := by
  induction text generalizing offset read with
  | nil => rfl
  | cons c text ih =>
    rw [List.flatMap_cons, Utf8.encode_append, List.append_assoc, stringFrom_escaped, ih]
    simp [Nat.add_assoc]

theorem stringToken_quoted (text : String) (rest : Bytes) :
    stringToken strict (Utf8.encode (text.toList.flatMap escaped) ++ 0x22 :: rest) =
      .ok ⟨some text, (Utf8.encode (text.toList.flatMap escaped)).length + 1⟩ := by
  rw [stringToken, stringFrom_quoted]
  simp [Except.map, Utf8.decode_encode]

theorem bytes_quoted (text : String) (rest : Bytes) :
    Text.bytes (quoted text) ++ rest =
      0x22 :: (Utf8.encode (text.toList.flatMap escaped) ++ 0x22 :: rest) := by
  have quote : String.utf8EncodeChar '"' = [0x22] := rfl
  simp [Text.bytes, quoted, quote]

theorem stringToken_bytes (strict : Bool) (text : String) (rest : Bytes) :
    ∃ token, stringToken strict (Utf8.encode (text.toList.flatMap escaped) ++ 0x22 :: rest) = .ok token ∧
      token.text? = some text ∧
      (Utf8.encode (text.toList.flatMap escaped) ++ 0x22 :: rest).drop token.width = rest := by
  refine ⟨_, stringToken_quoted text rest, rfl, ?_⟩
  rw [← List.singleton_append, ← List.append_assoc]
  exact List.drop_left' (by simp)

section Run

variable {frames : List Frame} {members : List (Option String × Json)} {rest : Bytes}

theorem skipBlanks_cons {b : UInt8} (notBlank : isBlankByte b = false) (rest : Bytes) :
    skipBlanks (b :: rest) = b :: rest := by
  rw [skipBlanks, List.dropWhile_cons, notBlank, if_neg Bool.false_ne_true]

theorem run_object (rest : Bytes) :
    run false frames .value (0x7B :: rest) = run false frames (.key [] true) rest := by
  rw [run.eq_def false frames .value]
  split
  · next none => cases none.symm.trans (skipBlanks_cons rfl rest)
  · next found =>
    obtain ⟨rfl, rfl⟩ := List.cons.inj (found.symm.trans (skipBlanks_cons rfl rest))
    rfl

theorem run_key (isFirst : Bool) (key : String) (rest : Bytes) :
    run strict frames (.key members isFirst) (Text.bytes (quoted key) ++ rest) =
      run strict frames (.colon members (some key)) rest := by
  obtain ⟨token, read, text, left⟩ := stringToken_bytes strict key rest
  rw [bytes_quoted, run.eq_def strict frames (.key members isFirst)]
  split
  · next none => cases none.symm.trans (skipBlanks_cons rfl _)
  · next found =>
    obtain ⟨rfl, rfl⟩ := List.cons.inj (found.symm.trans (skipBlanks_cons rfl _))
    simp [read, text, left]

theorem run_text (text : String) (rest : Bytes) :
    run strict frames .value (Text.bytes (quoted text) ++ rest) =
      run strict frames (.after (.string (some text))) rest := by
  obtain ⟨token, read, text, left⟩ := stringToken_bytes strict text rest
  rw [bytes_quoted, run.eq_def strict frames .value]
  split
  · next none => cases none.symm.trans (skipBlanks_cons rfl _)
  · next found =>
    obtain ⟨rfl, rfl⟩ := List.cons.inj (found.symm.trans (skipBlanks_cons rfl _))
    simp [read, text, left, isDigit]

theorem run_colon (key? : Option String) (rest : Bytes) :
    run strict frames (.colon members key?) (0x3A :: rest) =
      run strict (.object members key? :: frames) .value rest := by
  rw [run.eq_def strict frames (.colon members key?)]
  split
  · next none => cases none.symm.trans (skipBlanks_cons rfl rest)
  · next found =>
    obtain ⟨rfl, rfl⟩ := List.cons.inj (found.symm.trans (skipBlanks_cons rfl rest))
    rfl

theorem run_comma (key? : Option String) (value : Json) (rest : Bytes) :
    run strict (.object members key? :: frames) (.after value) (0x2C :: rest) =
      run strict frames (.key ((key?, value) :: members) false) rest := by
  rw [run.eq_def strict (.object members key? :: frames)]
  split
  · next none => cases none.symm.trans (skipBlanks_cons rfl rest)
  · next found =>
    obtain ⟨rfl, rfl⟩ := List.cons.inj (found.symm.trans (skipBlanks_cons rfl rest))
    rfl

theorem run_close (key? : Option String) (value : Json) (rest : Bytes) :
    run strict (.object members key? :: frames) (.after value) (0x7D :: rest) =
      run strict frames (.after (.object ((key?, value) :: members).reverse)) rest := by
  rw [run.eq_def strict (.object members key? :: frames)]
  split
  · next none => cases none.symm.trans (skipBlanks_cons rfl rest)
  · next found =>
    obtain ⟨rfl, rfl⟩ := List.cons.inj (found.symm.trans (skipBlanks_cons rfl rest))
    rfl

theorem run_end (value : Json) : run strict [] (.after value) [] = .ok value := by
  rw [run]
  rfl

theorem run_member (isFirst : Bool) (key text : String) (rest : Bytes) :
    run strict frames (.key members isFirst)
        (Text.bytes (quoted key) ++ 0x3A :: (Text.bytes (quoted text) ++ rest)) =
      run strict (.object members (some key) :: frames) (.after (.string (some text))) rest := by
  rw [run_key, run_colon, run_text]

end Run

end ModuleBuild.Json
