import ModuleBuild.Pattern.Search
import ModuleBuild.Proofs.Specifier.CleanText
import Mathlib.Data.Nat.Bitwise
/-!
Where patterns with anchors are found. The pattern of the texts that begin with a name is found in these texts and in
no others, and the pattern of a name alone is found in this name only, line ends in it or not.
-/

namespace ModuleBuild.Pattern

open Text

/-! ## Sets of places -/

theorem one_and_first (holds : Bool) (places : Nat) : 1 &&& (bit holds ||| places <<< 1) = bit holds := by
  have even : 1 &&& places <<< 1 = 0 := by
    rw [Nat.one_and_eq_mod_two, Nat.shiftLeft_eq, Nat.pow_one, Nat.mul_mod_left]
  cases holds <;> simp [bit, Nat.and_or_distrib_left, even]

theorem one_and_allPlaces (text : List Char) : 1 &&& allPlaces text = 1 := by
  cases text with
  | nil => rfl
  | cons c text => exact one_and_first true _

theorem one_and_placesOf (part text : List Char) : 1 &&& placesOf part text = bit (startsWith part text) := by
  cases text with
  | nil =>
    cases part with
    | nil => rfl
    | cons c part => exact Nat.and_zero 1
  | cons c text => exact one_and_first _ _

theorem bit_shiftLeft_and_two_pow {holds : Bool} {place last : Nat} :
    bit holds <<< place &&& 2 ^ last ≠ 0 ↔ holds = true ∧ place = last := by
  cases holds with
  | false => simp [bit]
  | true => simp [bit, Nat.shiftLeft_eq, Nat.and_two_pow, Nat.testBit_two_pow]

/-! ## Anchors -/

section Anchors

variable (isWord : Char → Bool)

theorem placesBetween_textStart (text : List Char) :
    placesBetween (fun before? after? => Assertion.textStart.holds isWord before? after?) none text = 1 := by
  have later : ∀ (text : List Char) (c : Char),
      placesBetween (fun before? after? => Assertion.textStart.holds isWord before? after?) (some c) text =
        0 := by
    intro text
    induction text with
    | nil => exact fun _ => rfl
    | cons d text ih =>
      intro c
      rw [placesBetween, ih d, Nat.zero_shiftLeft, Nat.or_zero]
      rfl
  cases text with
  | nil => rfl
  | cons c text =>
    rw [placesBetween, later text c, Nat.zero_shiftLeft, Nat.or_zero]
    rfl

theorem placesBetween_textEnd (before? : Option Char) (text : List Char) :
    placesBetween (fun before? after? => Assertion.textEnd.holds isWord before? after?) before? text =
      2 ^ text.length := by
  induction text generalizing before? with
  | nil => rfl
  | cons c text ih =>
    rw [placesBetween, ih, List.length_cons, Nat.pow_succ, Nat.shiftLeft_eq]
    exact Nat.zero_or _

end Anchors

/-! ## Names between anchors -/

def endOf (name text : List Char) : Nat := bit (startsWith name text) <<< name.length

theorem ends_textStart (text : List Char) (count : Nat) :
    ((Expr.look .textStart false).track text).ends count (allPlaces text) = 1 := by
  rw [Expr.track, Track.ends, Nat.and_comm, placesBetween_textStart, one_and_allPlaces]

theorem ends_textEnd (text : List Char) (count places : Nat) :
    ((Expr.look .textEnd false).track text).ends count places = places &&& 2 ^ text.length := by
  rw [Expr.track, Track.ends, placesBetween_textEnd]

theorem ends_literal (name text : List Char) (count : Nat) :
    ((Expr.literal name).track text).ends count 1 = endOf name text := by
  rw [Expr.track, Track.ends, one_and_placesOf, endOf]

theorem ends_startingWith (name text : String) (count : Nat) :
    ((startingWith name).expr.track text.toList).ends count (allPlaces text.toList) =
      endOf name.toList text.toList := by
  rw [startingWith]
  cases name.toList with
  | nil => exact ends_textStart text.toList count
  | cons c name =>
    have step := ends_literal (c :: name) text.toList count
    rw [← ends_textStart text.toList count] at step
    exact step

theorem ends_exactly (name text : String) (count : Nat) :
    ((exactly name).expr.track text.toList).ends count (allPlaces text.toList) =
      endOf name.toList text.toList &&& 2 ^ text.toList.length := by
  rw [← ends_textEnd text.toList count, exactly]
  cases name.toList with
  | nil =>
    exact congrArg (((Expr.look .textEnd false).track text.toList).ends count) (ends_textStart text.toList count)
  | cons c name =>
    have step := ends_literal (c :: name) text.toList count
    rw [← ends_textStart text.toList count] at step
    exact congrArg (((Expr.look .textEnd false).track text.toList).ends count) step

theorem isFoundIn_startingWith {name text : String} :
    (startingWith name).isFoundIn text = true ↔ name.toList <+: text.toList := by
  have found : (startingWith name).isFoundIn text = true ↔ startsWith name.toList text.toList = true := by
    rw [isFoundIn, bne_iff_ne, ends_startingWith, endOf, Nat.shiftLeft_eq]
    cases startsWith name.toList text.toList <;> simp [bit]
  rw [found, startsWith_iff]
  exact exists_congr fun rest => eq_comm

theorem isFoundIn_exactly {name text : String} : (exactly name).isFoundIn text = true ↔ text = name := by
  rw [isFoundIn, bne_iff_ne, ends_exactly, endOf, bit_shiftLeft_and_two_pow, startsWith_iff]
  constructor
  · rintro ⟨⟨rest, whole⟩, sizes⟩
    rw [whole, List.length_append] at sizes
    rw [List.eq_nil_of_length_eq_zero (Nat.left_eq_add.1 sizes), List.append_nil] at whole
    exact String.toList_inj.1 whole
  · rintro rfl
    exact ⟨⟨[], (List.append_nil _).symm⟩, rfl⟩

end ModuleBuild.Pattern
