import ModuleBuild.Proofs.Artifact.PlainSlots
import Mathlib.Data.List.Induction
/-!
Writing tokens into emitted code, any number of times. Only slots change, each holds the token that was
written last, and the slots do not get in each other's way.
-/

namespace ModuleBuild

namespace HashSlot

variable {slot other : HashSlot} {buffer token : Bytes}

/-- A call that writes a token over a slot of a buffer: whether it changed anything or why it failed, and the
buffer after it. -/
def overwrite (slot : HashSlot) (buffer token : Bytes) : Except SlotFault Bool × Bytes :=
  match slot.patch buffer token with
  | .ok written => (.ok (slot.content buffer != token), written)
  | .error fault => (.error fault, buffer)

theorem overwrite_of_fills (inside : slot.stop ≤ buffer.length) (fills : token.length = slot.length) :
    slot.overwrite buffer token = (.ok (slot.content buffer != token), slot.write buffer token) := by
  rw [overwrite, patch_eq inside fills]

theorem overwrite_of_misfit (misfit : token.length ≠ slot.length) :
    slot.overwrite buffer token = (.error ⟨slot, buffer.length⟩, buffer) := by
  rw [overwrite, patch, if_neg fun fits => misfit fits.2]

theorem write_ne_iff (inside : slot.stop ≤ buffer.length) (fills : token.length = slot.length) :
    slot.write buffer token ≠ buffer ↔ slot.content buffer ≠ token := by
  rw [not_iff_not]
  constructor
  · intro same
    rw [← content_write inside fills, same]
  · rintro rfl
    exact write_content slot buffer

theorem write_comm (disjoint : slot.Disjoint other) (inside : slot.stop ≤ buffer.length)
    (inside' : other.stop ≤ buffer.length) (fills : token.length = slot.length) {token' : Bytes}
    (fills' : token'.length = other.length) :
    other.write (slot.write buffer token) token' = slot.write (other.write buffer token') token := by
  have length := length_write inside fills
  have length' := length_write inside' fills'
  refine List.ext_getElem? fun index => ?_
  rw [getElem?_write (length ▸ inside') fills', getElem?_write inside fills,
    getElem?_write (length' ▸ inside) fills, getElem?_write inside' fills']
  by_cases covers : slot.Covers index
  · rw [if_pos covers, if_neg (disjoint.not_covers covers), if_pos covers]
  · rw [if_neg covers, if_neg covers]

theorem content_write_of_disjoint (disjoint : slot.Disjoint other) (inside : slot.stop ≤ buffer.length)
    (fills : token.length = slot.length) :
    other.content (slot.write buffer token) = other.content buffer := by
  refine content_congr fun index covers => ?_
  rw [getElem?_write inside fills, if_neg (disjoint.symm.not_covers covers)]

theorem agreeOutside_overwrite (slot : HashSlot) (inside : slot.stop ≤ buffer.length) (token : Bytes) :
    AgreeOutside [slot] buffer (slot.overwrite buffer token).2 := by
  by_cases fills : token.length = slot.length
  · rw [overwrite_of_fills inside fills]
    refine ⟨(length_write inside fills).symm, fun index outside => ?_⟩
    rw [getElem?_write inside fills, if_neg (outside slot (List.mem_singleton_self _))]
  · rw [overwrite_of_misfit fills]
    exact .refl _ _

theorem content_overwrite (inside : slot.stop ≤ buffer.length) :
    slot.content (slot.overwrite buffer token).2 =
      if token.length = slot.length then token else slot.content buffer := by
  split
  · next fills => rw [overwrite_of_fills inside fills, content_write inside fills]
  · next misfit => rw [overwrite_of_misfit misfit]

theorem content_overwrite_of_disjoint (disjoint : slot.Disjoint other) (inside : slot.stop ≤ buffer.length)
    (token : Bytes) : other.content (slot.overwrite buffer token).2 = other.content buffer := by
  by_cases fills : token.length = slot.length
  · rw [overwrite_of_fills inside fills, content_write_of_disjoint disjoint inside fills]
  · rw [overwrite_of_misfit fills]

theorem overwrite_comm (disjoint : slot.Disjoint other) (inside : slot.stop ≤ buffer.length)
    (inside' : other.stop ≤ buffer.length) (token token' : Bytes) :
    (other.overwrite (slot.overwrite buffer token).2 token').2 =
      (slot.overwrite (other.overwrite buffer token').2 token).2 := by
  by_cases fills : token.length = slot.length
  · have length := length_write inside fills
    by_cases fills' : token'.length = other.length
    · have length' := length_write inside' fills'
      rw [overwrite_of_fills inside fills, overwrite_of_fills inside' fills',
        overwrite_of_fills (length ▸ inside') fills', overwrite_of_fills (length' ▸ inside) fills]
      exact write_comm disjoint inside inside' fills fills'
    · rw [overwrite_of_misfit fills', overwrite_of_misfit fills']
  · rw [overwrite_of_misfit fills, overwrite_of_misfit fills]

theorem overwrite_fst (disjoint : slot.Disjoint other) (inside : slot.stop ≤ buffer.length)
    (inside' : other.stop ≤ buffer.length) (token token' : Bytes) :
    (other.overwrite (slot.overwrite buffer token).2 token').1 = (other.overwrite buffer token').1 := by
  have length := (agreeOutside_overwrite slot inside token).length
  by_cases fills : token'.length = other.length
  · rw [overwrite_of_fills (length ▸ inside') fills, overwrite_of_fills inside' fills,
      content_overwrite_of_disjoint disjoint inside]
  · rw [overwrite_of_misfit fills, overwrite_of_misfit fills, length]

end HashSlot

/-! ## Calls one after another -/

namespace Emission

/-- A buffer after calls on some of its slots, each with a token. -/
def overwriteAll (buffer : Bytes) (calls : List (HashSlot × Bytes)) : Bytes :=
  calls.foldl (fun buffer call => (call.1.overwrite buffer call.2).2) buffer

/-- The last token that filled a slot, or zeros. -/
def lastToken (slot : HashSlot) (calls : List (HashSlot × Bytes)) : Bytes :=
  ((calls.filter fun call => call.1 = slot ∧ call.2.length = 16).getLast?.map Prod.snd).getD
    (List.replicate 16 0x30)

theorem overwriteAll_concat (buffer : Bytes) (calls : List (HashSlot × Bytes)) (slot : HashSlot)
    (token : Bytes) :
    overwriteAll buffer (calls ++ [(slot, token)]) = (slot.overwrite (overwriteAll buffer calls) token).2 := by
  rw [overwriteAll, List.foldl_append]
  rfl

theorem lastToken_concat (slot other : HashSlot) (calls : List (HashSlot × Bytes)) (token : Bytes) :
    lastToken slot (calls ++ [(other, token)]) =
      if other = slot ∧ token.length = 16 then token else lastToken slot calls := by
  unfold lastToken
  rw [List.filter_append, List.filter_singleton]
  by_cases fills : other = slot ∧ token.length = 16
  · simp [fills]
  · simp [fills]

section Emitted

variable {code : List Char} {edits : List Edit} {slot other : HashSlot}

theorem width_of_mem (member : some slot ∈ (ofEdits code edits).slots) : slot.length = 16 :=
  (placed_ofEdits code edits).width slot member

theorem inside_of_mem (member : some slot ∈ (ofEdits code edits).slots) :
    slot.stop ≤ (ofEdits code edits).bytes.length :=
  (placed_ofEdits code edits).inside slot member

theorem disjoint_of_mem (one : some slot ∈ (ofEdits code edits).slots)
    (two : some other ∈ (ofEdits code edits).slots) (differ : slot ≠ other) : slot.Disjoint other := by
  have placed := placed_ofEdits code edits
  obtain ⟨i, first⟩ := List.getElem?_of_mem one
  obtain ⟨j, second⟩ := List.getElem?_of_mem two
  rcases Nat.lt_trichotomy i j with before | rfl | after
  · exact placed.apart i j slot other before first second
  · exact absurd (Option.some.inj (Option.some.inj (first.symm.trans second))) differ
  · exact (placed.apart j i other slot after second first).symm

/-- What calls make of emitted code: they stay within the slots, and each slot has its last token. -/
theorem overwriteAll_emitted (calls : List (HashSlot × Bytes))
    (own : ∀ call ∈ calls, some call.1 ∈ (ofEdits code edits).slots) :
    AgreeOutside ((ofEdits code edits).slots.filterMap id) (ofEdits code edits).bytes
        (overwriteAll (ofEdits code edits).bytes calls) ∧
      ∀ slot, some slot ∈ (ofEdits code edits).slots →
        slot.content (overwriteAll (ofEdits code edits).bytes calls) = lastToken slot calls := by
  induction calls using List.reverseRecOn with
  | nil =>
    refine ⟨.refl _ _, fun slot member => ?_⟩
    have zeros : Utf8.encode placeholder = List.replicate 16 0x30 := by decide
    exact (hold_ofEdits code edits slot member).2.trans zeros
  | append_singleton calls call ih =>
    obtain ⟨target, token⟩ := call
    have member := own (target, token) (by simp)
    obtain ⟨agree, held⟩ := ih fun call inside => own call (List.mem_append_left _ inside)
    have inside := agree.length ▸ inside_of_mem member
    rw [overwriteAll_concat]
    refine ⟨agree.trans ((target.agreeOutside_overwrite inside token).mono ?_), fun slot listed => ?_⟩
    · intro slot single
      rw [List.mem_singleton.1 single]
      exact List.mem_filterMap.2 ⟨some target, member, rfl⟩
    · rw [lastToken_concat, ← held slot listed]
      by_cases same : target = slot
      · subst same
        rw [HashSlot.content_overwrite inside, width_of_mem member]
        simp only [true_and]
      · rw [if_neg fun both => same both.1]
        exact HashSlot.content_overwrite_of_disjoint (disjoint_of_mem member listed same) inside token

/-- Whatever tokens are written into emitted code, and how often, only bytes in slots change, and no other
byte and not the length: each slot holds the last token that filled it, or zeros. A further call on a slot
answers whether it changes anything, and fails without effect just if its token does not fill the slot. Two
calls on different slots come to the same in either order. -/
theorem overwriteAll_touches_slots (code : List Char) (edits : List Edit)
    (calls : List (HashSlot × Bytes)) (own : ∀ call ∈ calls, some call.1 ∈ (ofEdits code edits).slots) :
    let emission := ofEdits code edits
    let buffer := overwriteAll emission.bytes calls
    buffer.length = emission.bytes.length ∧
    (∀ index, (∀ slot, some slot ∈ emission.slots → ¬ slot.Covers index) →
      buffer[index]? = emission.bytes[index]?) ∧
    (∀ slot, some slot ∈ emission.slots → slot.content buffer = lastToken slot calls) ∧
    (∀ slot, some slot ∈ emission.slots → ∀ token,
      (token.length = slot.length → ∃ changed, (slot.overwrite buffer token).1 = .ok changed ∧
        (changed = true ↔ (slot.overwrite buffer token).2 ≠ buffer)) ∧
      (token.length ≠ slot.length →
        slot.overwrite buffer token = (.error ⟨slot, buffer.length⟩, buffer))) ∧
    ∀ first second, some first ∈ emission.slots → some second ∈ emission.slots → first ≠ second →
      ∀ token token', (second.overwrite (first.overwrite buffer token).2 token').2 =
          (first.overwrite (second.overwrite buffer token').2 token).2 ∧
        (second.overwrite (first.overwrite buffer token).2 token').1 = (second.overwrite buffer token').1 := by
  intro emission buffer
  obtain ⟨agree, held⟩ := overwriteAll_emitted calls own
  have within {slot : HashSlot} (member : some slot ∈ emission.slots) : slot.stop ≤ buffer.length :=
    agree.length ▸ inside_of_mem member
  refine ⟨agree.length.symm, fun index outside => ?_, held, fun slot member token => ⟨?_, ?_⟩,
    fun first second one two differ token token' => ?_⟩
  · refine (agree.bytes index fun slot listed => outside slot ?_).symm
    simpa using listed
  · intro fills
    rw [HashSlot.overwrite_of_fills (within member) fills]
    refine ⟨_, rfl, ?_⟩
    rw [HashSlot.write_ne_iff (within member) fills, bne_iff_ne]
  · exact HashSlot.overwrite_of_misfit
  · have disjoint := disjoint_of_mem one two differ
    exact ⟨HashSlot.overwrite_comm disjoint (within one) (within two) token token',
      HashSlot.overwrite_fst disjoint (within one) (within two) token token'⟩

end Emitted

section Pair

def pairEdits : List Edit := [⟨⟨0, 1⟩, .compiled "x" true⟩, ⟨⟨2, 3⟩, .compiled "y" true⟩]

/-- Two tokens for the second of two imports, the first of which is too short, and one for the first. -/
def pairCalls : List (HashSlot × Bytes) :=
  [(⟨25, 16⟩, List.replicate 15 0x63), (⟨25, 16⟩, List.replicate 16 0x64), (⟨4, 16⟩, List.replicate 16 0x62)]

theorem slots_pair : (ofEdits "a b".toList pairEdits).slots = [some ⟨4, 16⟩, some ⟨25, 16⟩] := by
  have order : inOrder pairEdits = pairEdits.zipIdx := List.mergeSort_of_pairwise (by decide)
  rw [ofEdits, order]
  decide

theorem overwriteAll_touches_slots_pair :
    (∀ call ∈ pairCalls, some call.1 ∈ (ofEdits "a b".toList pairEdits).slots) ∧
      let buffer := overwriteAll (ofEdits "a b".toList pairEdits).bytes pairCalls
      HashSlot.content ⟨4, 16⟩ buffer = List.replicate 16 0x62 ∧
        HashSlot.content ⟨25, 16⟩ buffer = List.replicate 16 0x64 ∧
        HashSlot.overwrite ⟨4, 16⟩ buffer [] = (.error ⟨⟨4, 16⟩, buffer.length⟩, buffer) := by
  have own : ∀ call ∈ pairCalls, some call.1 ∈ (ofEdits "a b".toList pairEdits).slots := by
    rw [slots_pair]
    decide
  obtain ⟨-, -, held, answers, -⟩ := overwriteAll_touches_slots "a b".toList pairEdits pairCalls own
  rw [slots_pair] at held answers
  have first := held ⟨4, 16⟩ (by decide)
  have second := held ⟨25, 16⟩ (by decide)
  exact ⟨own, first.trans (by decide), second.trans (by decide),
    (answers ⟨4, 16⟩ (by decide) []).2 (by decide)⟩

end Pair

end Emission

end ModuleBuild
