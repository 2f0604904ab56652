import ModuleBuild.Compile.Pass
import ModuleBuild.Proofs.Artifact.Keys
import ModuleBuild.Proofs.Artifact.Slots
/-!
The slots of emitted code. Text is only ever added at the end of what is written, and each slot lies
inside the text added with it, so slots lie apart.
-/

namespace ModuleBuild

namespace Utf8

theorem width_append (first second : List Char) :
    width (first ++ second) = width first + width second := by
  simp [width]

end Utf8

namespace Emission

/-- Slots lie apart, each as wide as a token and inside the first bytes of some text. -/
structure Placed (slots : List (Option HashSlot)) (size : Nat) : Prop where
  width : ∀ slot, some slot ∈ slots → slot.length = tokenLength
  inside : ∀ slot, some slot ∈ slots → slot.stop ≤ size
  apart : ∀ (i j : Nat) first second, i < j → slots[i]? = some (some first) →
    slots[j]? = some (some second) → first.Disjoint second

variable {slots : List (Option HashSlot)} {size : Nat}

theorem placed_none (count size : Nat) : Placed (List.replicate count none) size where
  width slot member := by simp at member
  inside slot member := by simp at member
  apart i j first second _ found _ := by
    have member := List.mem_of_getElem? found
    simp at member

theorem Placed.mono (placed : Placed slots size) {more : Nat} (larger : size ≤ more) :
    Placed slots more :=
  ⟨placed.width, fun slot member => Nat.le_trans (placed.inside slot member) larger, placed.apart⟩

theorem getElem?_set_eq_some {number i : Nat} {fresh slot : HashSlot}
    (found : (slots.set number (some fresh))[i]? = some (some slot)) :
    i = number ∧ slot = fresh ∨ slots[i]? = some (some slot) := by
  rw [List.getElem?_set] at found
  split at found
  · next same =>
    split at found
    · exact .inl ⟨same.symm, (Option.some.inj (Option.some.inj found)).symm⟩
    · cases found
  · exact .inr found

theorem Placed.set (placed : Placed slots size) (number : Nat) {fresh : HashSlot}
    (width : fresh.length = tokenLength) (behind : size ≤ fresh.offset) {more : Nat}
    (inside : fresh.stop ≤ more) : Placed (slots.set number (some fresh)) more := by
  have larger : size ≤ more := by
    rw [HashSlot.stop] at inside
    omega
  have old {i : Nat} {slot : HashSlot} (found : slots[i]? = some (some slot)) :
      slot.Disjoint fresh :=
    .inl (Nat.le_trans (placed.inside slot (List.mem_of_getElem? found)) behind)
  refine ⟨fun slot member => ?_, fun slot member => ?_, fun i j first second before one two => ?_⟩
  · obtain ⟨i, found⟩ := List.getElem?_of_mem member
    rcases getElem?_set_eq_some found with ⟨-, rfl⟩ | found
    · exact width
    · exact placed.width slot (List.mem_of_getElem? found)
  · obtain ⟨i, found⟩ := List.getElem?_of_mem member
    rcases getElem?_set_eq_some found with ⟨-, rfl⟩ | found
    · exact inside
    · exact Nat.le_trans (placed.inside slot (List.mem_of_getElem? found)) larger
  · rcases getElem?_set_eq_some one with ⟨same, rfl⟩ | one'
    · rcases getElem?_set_eq_some two with ⟨same', -⟩ | two'
      · omega
      · exact (old two').symm
    · rcases getElem?_set_eq_some two with ⟨-, rfl⟩ | two'
      · exact old one'
      · exact placed.apart i j first second before one' two'

theorem width_placeholder : Utf8.width placeholder = tokenLength := by decide

theorem replacement_token {target : ImportTarget} {text : List Char} {offset : Nat}
    (written : replacement target = (text, some offset)) :
    offset + tokenLength = Utf8.width text := by
  cases target with
  | address url => cases written
  | compiled path isHashed =>
    cases isHashed with
    | false => cases written
    | true =>
      obtain ⟨rfl, same⟩ := Prod.mk.inj written
      obtain rfl := Option.some.inj same
      simp only [Utf8.width_append, width_placeholder]

theorem placed_advance {progress : Progress}
    (placed : Placed progress.slots (Utf8.width progress.written)) (edit : Edit) (number : Nat) :
    Placed (advance progress edit number).slots
      (Utf8.width (advance progress edit number).written) := by
  unfold advance
  split
  · exact placed
  · next before after _ =>
    generalize written : replacement edit.target = result
    obtain ⟨text, token?⟩ := result
    cases token? with
    | none =>
      refine placed.mono ?_
      simp only [Utf8.width_append]
      omega
    | some offset =>
      have ends := replacement_token written
      refine placed.set number (by rfl) ?_ ?_
      · simp only [Utf8.width_append]
        omega
      · simp only [HashSlot.stop, Utf8.width_append]
        omega

theorem placed_foldl (edits : List (Edit × Nat)) {progress : Progress}
    (placed : Placed progress.slots (Utf8.width progress.written)) :
    let result := edits.foldl (fun progress (edit, number) => advance progress edit number) progress
    Placed result.slots (Utf8.width result.written) := by
  induction edits generalizing progress with
  | nil => exact placed
  | cons edit edits ih => exact ih (placed_advance placed edit.1 edit.2)

theorem placed_ofEdits (code : List Char) (edits : List Edit) :
    Placed (ofEdits code edits).slots (ofEdits code edits).bytes.length := by
  let start : Progress := { rest := code, slots := List.replicate edits.length none }
  have placed := @placed_foldl (inOrder edits) start (placed_none edits.length 0)
  refine placed.mono ?_
  rw [bytes, ← Utf8.width, ofEdits, Utf8.width_append]
  exact Nat.le_add_right _ _

theorem Placed.pairwise (placed : Placed slots size) :
    (slots.filterMap id).Pairwise HashSlot.Disjoint := by
  rw [List.pairwise_filterMap, List.pairwise_iff_getElem]
  intro i j left right before first one second two
  refine placed.apart i j first second before ?_ ?_
  · rw [List.getElem?_eq_getElem left]
    exact congrArg some one
  · rw [List.getElem?_eq_getElem right]
    exact congrArg some two

def Hashed (edits : List Edit) (slots : List (Option HashSlot)) : Prop :=
  ∀ (i : Nat) (slot : HashSlot), slots[i]? = some (some slot) →
    ∃ (edit : Edit) (path : String), edits[i]? = some edit ∧ edit.target = .compiled path true

theorem hashed_advance {edits : List Edit} {progress : Progress} (hashed : Hashed edits progress.slots)
    {edit : Edit} {number : Nat} (listed : edits[number]? = some edit) :
    Hashed edits (advance progress edit number).slots := by
  unfold advance
  split
  · exact hashed
  · cases target : edit.target with
    | address url => exact hashed
    | compiled path isHashed =>
      cases isHashed with
      | false => exact hashed
      | true =>
        simp only [replacement]
        intro i slot found
        rcases getElem?_set_eq_some found with ⟨rfl, -⟩ | found
        · exact ⟨edit, path, listed, target⟩
        · exact hashed i slot found

theorem hashed_ofEdits (code : List Char) (edits : List Edit) :
    Hashed edits (ofEdits code edits).slots := by
  have general (work : List (Edit × Nat)) (listed : ∀ item ∈ work, edits[item.2]? = some item.1)
      (progress : Progress) (hashed : Hashed edits progress.slots) :
      Hashed edits
        (work.foldl (fun progress (edit, number) => advance progress edit number) progress).slots := by
    induction work generalizing progress with
    | nil => exact hashed
    | cons item rest ih =>
      exact ih (fun other member => listed other (List.mem_cons_of_mem _ member)) _
        (hashed_advance hashed (listed item List.mem_cons_self))
  refine general (inOrder edits) (fun item member => ?_) _ ?_
  · have member' : item ∈ edits.zipIdx := (List.mergeSort_perm _ _).mem_iff.1 member
    exact List.mk_mem_zipIdx_iff_getElem?.1 member'
  · intro i slot found
    have inside := List.mem_of_getElem? found
    simp at inside

end Emission

/-! ## Slots of edges -/

namespace Pass

/-- Each edge gets the slot at the head of the list if its import has a span. -/
theorem assignSlots_cons (found : FoundImport) (imports : List FoundImport) (edge : DependencyEdge)
    (edges : List DependencyEdge) (slots : List (Option HashSlot)) :
    assignSlots (found :: imports) (edge :: edges) slots =
        edge :: assignSlots imports edges slots ∨
      ∃ slot? rest, slots = slot? :: rest ∧ assignSlots (found :: imports) (edge :: edges) slots =
        { edge with slot? } :: assignSlots imports edges rest := by
  cases span : found.span? with
  | none => exact .inl (by simp [assignSlots, span])
  | some =>
    cases slots with
    | nil => exact .inl (by simp [assignSlots])
    | cons slot? rest => exact .inr ⟨slot?, rest, rfl, by simp [assignSlots, span]⟩

theorem assignSlots_of_nil (imports : List FoundImport) (slots : List (Option HashSlot)) :
    assignSlots imports [] slots = [] := by
  cases imports <;> simp [assignSlots]

theorem assignSlots_without_imports (edges : List DependencyEdge) (slots : List (Option HashSlot)) :
    assignSlots [] edges slots = edges := by simp [assignSlots]

theorem slotsOf_assignSlots (imports : List FoundImport) (edges : List DependencyEdge)
    (slots : List (Option HashSlot)) (bare : ∀ edge ∈ edges, edge.slot? = none) :
    (slotsOf (assignSlots imports edges slots)).Sublist (slots.filterMap id) := by
  induction imports generalizing edges slots with
  | nil =>
    have none : slotsOf edges = [] := List.filterMap_eq_nil_iff.2 bare
    rw [assignSlots_without_imports, none]
    exact List.nil_sublist _
  | cons found imports ih =>
    cases edges with
    | nil =>
      rw [assignSlots_of_nil]
      exact List.nil_sublist _
    | cons edge edges =>
      have bare' := fun other member => bare other (List.mem_cons_of_mem edge member)
      rcases assignSlots_cons found imports edge edges slots with same | ⟨slot?, rest, rfl, same⟩
      · rw [same, slotsOf, List.filterMap_cons_none (bare edge List.mem_cons_self)]
        exact ih edges slots bare'
      · have later := ih edges rest bare'
        rw [same]
        cases slot? with
        | none => simpa [slotsOf] using later
        | some slot => simpa [slotsOf] using later

theorem map_assignSlots {α : Type} (view : DependencyEdge → α)
    (blind : ∀ edge slot?, view { edge with slot? } = view edge) (imports : List FoundImport)
    (edges : List DependencyEdge) (slots : List (Option HashSlot)) :
    (assignSlots imports edges slots).map view = edges.map view := by
  induction imports generalizing edges slots with
  | nil => rw [assignSlots_without_imports]
  | cons found imports ih =>
    cases edges with
    | nil => rw [assignSlots_of_nil]
    | cons edge edges =>
      rcases assignSlots_cons found imports edge edges slots with same | ⟨slot?, rest, rfl, same⟩
      · rw [same, List.map_cons, List.map_cons, ih]
      · rw [same, List.map_cons, List.map_cons, ih, blind]

end Pass

end ModuleBuild
