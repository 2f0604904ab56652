import ModuleBuild.Emission
/-!
Writing tokens over the slots of code: what a slot holds afterwards, and that all bytes outside of the
written slots stay as they were.
-/

namespace ModuleBuild

namespace HashSlot

/-- The bytes of a slot. -/
def content (slot : HashSlot) (code : Bytes) : Bytes := (code.drop slot.offset).take slot.length

def Covers (slot : HashSlot) (index : Nat) : Prop := slot.offset ≤ index ∧ index < slot.stop

instance (slot : HashSlot) (index : Nat) : Decidable (slot.Covers index) :=
  inferInstanceAs (Decidable (_ ∧ _))

def Disjoint (first second : HashSlot) : Prop :=
  first.stop ≤ second.offset ∨ second.stop ≤ first.offset

instance (first second : HashSlot) : Decidable (first.Disjoint second) :=
  inferInstanceAs (Decidable (_ ∨ _))

theorem Disjoint.symm {first second : HashSlot} (disjoint : first.Disjoint second) :
    second.Disjoint first := Or.symm disjoint

theorem Disjoint.not_covers {slot other : HashSlot} (disjoint : slot.Disjoint other) {index : Nat}
    (covers : slot.Covers index) : ¬ other.Covers index := by
  rintro ⟨above, below⟩
  obtain ⟨above', below'⟩ := covers
  rcases disjoint with before | after <;> omega

def write (slot : HashSlot) (code token : Bytes) : Bytes :=
  code.take slot.offset ++ token ++ code.drop slot.stop

variable {slot : HashSlot} {code token : Bytes}

theorem patch_eq (inside : slot.stop ≤ code.length) (fills : token.length = slot.length) :
    slot.patch code token = .ok (slot.write code token) := if_pos ⟨inside, fills⟩

theorem write_content (slot : HashSlot) (code : Bytes) : slot.write code (slot.content code) = code := by
  have cut : code.drop slot.stop = (code.drop slot.offset).drop slot.length := by
    rw [List.drop_drop, stop]
  rw [write, content, cut, List.append_assoc, List.take_append_drop, List.take_append_drop]

theorem length_write (inside : slot.stop ≤ code.length) (fills : token.length = slot.length) :
    (slot.write code token).length = code.length := by
  simp only [stop] at inside
  simp only [write, List.length_append, List.length_take, List.length_drop, fills, stop]
  omega

theorem getElem?_write (inside : slot.stop ≤ code.length) (fills : token.length = slot.length)
    (index : Nat) :
    (slot.write code token)[index]? =
      if slot.Covers index then token[index - slot.offset]? else code[index]? := by
  simp only [stop] at inside
  have front : (code.take slot.offset).length = slot.offset := by
    rw [List.length_take]
    omega
  by_cases before : index < slot.offset
  · have outside : ¬ slot.Covers index := fun covers => by
      have := covers.1
      omega
    rw [if_neg outside, write, List.append_assoc, List.getElem?_append_left (by omega),
      List.getElem?_take_of_lt before]
  · rw [write, List.append_assoc, List.getElem?_append_right (by omega), front]
    by_cases within : index < slot.offset + slot.length
    · rw [if_pos ⟨by omega, within⟩, List.getElem?_append_left (by omega)]
    · have outside : ¬ slot.Covers index := fun covers => within covers.2
      rw [if_neg outside, List.getElem?_append_right (by omega), List.getElem?_drop, fills, stop]
      congr 1
      omega

theorem getElem?_content (index : Nat) :
    (slot.content code)[index]? = if index < slot.length then code[slot.offset + index]? else none := by
  rw [content, List.getElem?_take, List.getElem?_drop]

theorem content_congr {other : Bytes}
    (same : ∀ index, slot.Covers index → code[index]? = other[index]?) :
    slot.content code = slot.content other := by
  refine List.ext_getElem? fun index => ?_
  rw [getElem?_content, getElem?_content]
  split
  · next inside => exact same _ ⟨by omega, by rw [stop]; omega⟩
  · rfl

theorem content_write (inside : slot.stop ≤ code.length) (fills : token.length = slot.length) :
    slot.content (slot.write code token) = token := by
  refine List.ext_getElem? fun index => ?_
  rw [getElem?_content]
  split
  · next within =>
    rw [getElem?_write inside fills, if_pos ⟨by omega, by rw [stop]; omega⟩]
    congr 1
    omega
  · rw [List.getElem?_eq_none (by omega)]

end HashSlot

/-! ## Agreement outside of slots -/

/-- Code of one length that differs in the given slots only. -/
structure AgreeOutside (slots : List HashSlot) (first second : Bytes) : Prop where
  length : first.length = second.length
  bytes : ∀ index, (∀ slot ∈ slots, ¬ slot.Covers index) → first[index]? = second[index]?

namespace AgreeOutside

variable {slots more : List HashSlot} {first second third : Bytes}

theorem refl (slots : List HashSlot) (code : Bytes) : AgreeOutside slots code code :=
  ⟨rfl, fun _ _ => rfl⟩

theorem symm (agree : AgreeOutside slots first second) : AgreeOutside slots second first :=
  ⟨agree.length.symm, fun index outside => (agree.bytes index outside).symm⟩

theorem trans (one : AgreeOutside slots first second) (two : AgreeOutside slots second third) :
    AgreeOutside slots first third :=
  ⟨one.length.trans two.length, fun index outside =>
    (one.bytes index outside).trans (two.bytes index outside)⟩

theorem mono (agree : AgreeOutside slots first second) (wider : ∀ slot ∈ slots, slot ∈ more) :
    AgreeOutside more first second :=
  ⟨agree.length, fun index outside =>
    agree.bytes index fun slot member => outside slot (wider slot member)⟩

theorem eq_of_content (agree : AgreeOutside slots first second)
    (held : ∀ slot ∈ slots, slot.content first = slot.content second) : first = second := by
  refine List.ext_getElem? fun index => ?_
  by_cases covered : ∃ slot ∈ slots, slot.Covers index
  · obtain ⟨slot, member, above, below⟩ := covered
    have same := congrArg (·[index - slot.offset]?) (held slot member)
    simp only [HashSlot.stop] at below
    simpa [HashSlot.getElem?_content, show index - slot.offset < slot.length by omega,
      Nat.add_sub_cancel' above] using same
  · exact agree.bytes index fun slot member covers => covered ⟨slot, member, covers⟩

theorem eq_of_nil (agree : AgreeOutside [] first second) : first = second :=
  agree.eq_of_content (by simp)

end AgreeOutside

/-! ## The slots of edges -/

/-- The slots of edges, in the order of the edges. -/
def slotsOf (edges : List DependencyEdge) : List HashSlot := edges.filterMap (·.slot?)

theorem mem_slotsOf {edges : List DependencyEdge} {edge : DependencyEdge} {slot : HashSlot}
    (member : edge ∈ edges) (own : edge.slot? = some slot) : slot ∈ slotsOf edges :=
  List.mem_filterMap.2 ⟨edge, member, own⟩

/-- The slots of edges lie apart inside code of a size, each as wide as a token. -/
structure SlotsFit (edges : List DependencyEdge) (size : Nat) : Prop where
  width : ∀ slot ∈ slotsOf edges, slot.length = tokenLength
  inside : ∀ slot ∈ slotsOf edges, slot.stop ≤ size
  apart : (slotsOf edges).Pairwise HashSlot.Disjoint

theorem SlotsFit.nil (size : Nat) : SlotsFit [] size :=
  ⟨by simp [slotsOf], by simp [slotsOf], by simp [slotsOf]⟩

/-- No byte is in the slots of two different edges. -/
def SlotsApart (edges : List DependencyEdge) : Prop :=
  ∀ edge ∈ edges, ∀ other ∈ edges, edge ≠ other → ∀ slot ∈ edge.slot?, ∀ slot' ∈ other.slot?,
    ∀ index, slot.Covers index → ¬ slot'.Covers index

theorem SlotsApart.tail {edge : DependencyEdge} {edges : List DependencyEdge}
    (apart : SlotsApart (edge :: edges)) : SlotsApart edges :=
  fun first one second two =>
    apart first (List.mem_cons_of_mem _ one) second (List.mem_cons_of_mem _ two)

theorem SlotsFit.slotsApart {edges : List DependencyEdge} {size : Nat} (fit : SlotsFit edges size) :
    SlotsApart edges := by
  have apart := List.pairwise_filterMap.1 fit.apart
  refine List.Pairwise.forall_of_forall_of_flip (fun _ _ differ => absurd rfl differ) (apart.imp ?_)
    (apart.imp ?_) <;> intro first second disjoint _ slot own slot' own'
  · exact fun _ => (disjoint slot own slot' own').not_covers
  · exact fun _ => (disjoint slot' own' slot own).symm.not_covers

end ModuleBuild
