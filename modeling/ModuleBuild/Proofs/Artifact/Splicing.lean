import ModuleBuild.Proofs.Artifact.PlainSlots
/-!
What writing code with edits comes to, whatever the edits. They are taken by where they begin. An edit is
applied if its range can be cut out behind the last one that was applied; all other bytes are kept, once and
in order. The slot of an edit is where its token went.
-/

namespace ModuleBuild

namespace Utf8

/-- A character begins at an offset, or the text ends there. -/
def Boundary (text : List Char) (offset : Nat) : Prop :=
  ∃ count ≤ text.length, width (text.take count) = offset

instance (text : List Char) (offset : Nat) : Decidable (Boundary text offset) :=
  inferInstanceAs (Decidable (∃ count, count ≤ text.length ∧ width (text.take count) = offset))

theorem boundary_iff {text : List Char} {offset : Nat} :
    Boundary text offset ↔ ∃ before after, before ++ after = text ∧ width before = offset := by
  constructor
  · rintro ⟨count, -, same⟩
    exact ⟨text.take count, text.drop count, List.take_append_drop count text, same⟩
  · rintro ⟨before, after, rfl, same⟩
    refine ⟨before.length, by rw [List.length_append]; omega, ?_⟩
    rwa [List.take_left]

theorem boundary_append {start rest : List Char} {offset : Nat} :
    Boundary (start ++ rest) (width start + offset) ↔ Boundary rest offset := by
  rw [boundary_iff, boundary_iff]
  constructor
  · rintro ⟨before, after, whole, size⟩
    rcases List.append_eq_append_iff.1 whole with ⟨more, rfl, rfl⟩ | ⟨more, rfl, rfl⟩
    · rw [width_append] at size
      exact ⟨[], rest, rfl, by rw [width, encode_nil, List.length_nil]; omega⟩
    · rw [width_append] at size
      exact ⟨more, after, rfl, by omega⟩
  · rintro ⟨before, after, rfl, rfl⟩
    exact ⟨start ++ before, after, List.append_assoc _ _ _, width_append _ _⟩

theorem split?_append (before after : List Char) :
    split? (width before) (before ++ after) = some (before, after) := by
  induction before with
  | nil => rw [List.nil_append, width, encode_nil, List.length_nil, split?]
  | cons c before ih =>
    have wide := c.utf8Size_pos
    rw [width_cons, List.cons_append, show c.utf8Size + width before = c.utf8Size - 1 + width before + 1 by omega,
      split?, if_pos (by omega), show c.utf8Size - 1 + width before + 1 - c.utf8Size = width before by omega, ih,
      Option.map_some]

end Utf8

namespace Emission

open Utf8

/-! ## What is written -/

/-- A range can be replaced behind a place: it begins there or later, is not reversed, lies in the code and
cuts no character. -/
def Fits (code : List Char) (place : Nat) (span : Span) : Prop :=
  place ≤ span.start ∧ span.start ≤ span.stop ∧ span.stop ≤ width code ∧ Boundary code span.start ∧
    Boundary code span.stop

instance (code : List Char) (place : Nat) (span : Span) : Decidable (Fits code place span) :=
  inferInstanceAs (Decidable (_ ∧ _ ∧ _ ∧ _ ∧ _))

/-- The edits that are applied, each with its number: those that fit behind the one before. -/
def accepted (code : List Char) (place : Nat) : List (Edit × Nat) → List (Edit × Nat)
  | [] => []
  | item :: rest =>
    if Fits code place item.1.span then item :: accepted code item.1.span.stop rest
    else accepted code place rest

def bytesOf : ImportTarget → Bytes
  | .address url => Text.bytes url
  | .compiled path false => Text.bytes path
  | .compiled path true => Text.bytes path ++ Text.bytes "?v=" ++ List.replicate 16 0x30

/-- The slot of a target that is written behind some bytes. -/
def slotBehind? (written : Bytes) : ImportTarget → Option HashSlot
  | .compiled path true => some ⟨(written ++ Text.bytes path ++ Text.bytes "?v=").length, 16⟩
  | .compiled _ false | .address _ => none

/-- The bytes of a source between two places, with edits applied. -/
def spliced (source : Bytes) (start : Nat) (edits : List (Edit × Nat)) (stop : Nat) : Bytes :=
  match edits with
  | [] => (source.drop start).take (stop - start)
  | (edit, _) :: rest =>
    (source.drop start).take (edit.span.start - start) ++ bytesOf edit.target ++
      spliced source edit.span.stop rest stop

/-- Code is written with edits in a given order, and no byte of it is left to chance. -/
structure Splices (code : List Char) (edits : List Edit) (order : List (Edit × Nat)) (emission : Emission) :
    Prop where
  all : order.Perm edits.zipIdx
  sorted : order.Pairwise fun first second => first.1.span.start < second.1.span.start ∨
    first.1.span.start = second.1.span.start ∧ first.2 < second.2
  bytes : emission.bytes = spliced (encode code) 0 (accepted code 0 order) (encode code).length
  isText : decode emission.bytes = .ok emission.code
  length : emission.slots.length = edits.length
  slots : ∀ number slot, emission.slots[number]? = some (some slot) ↔
    ∃ before edit after, accepted code 0 order = before ++ (edit, number) :: after ∧
      slotBehind? (spliced (encode code) 0 before edit.span.start) edit.target = some slot
  zeros : ∀ slot, some slot ∈ emission.slots → slot.content emission.bytes = List.replicate 16 0x30
  inside : ∀ slot, some slot ∈ emission.slots → slot.stop ≤ emission.bytes.length
  apart : (emission.slots.filterMap id).Pairwise HashSlot.Disjoint

theorem spliced_cons (source : Bytes) (start stop number : Nat) (edit : Edit) (rest : List (Edit × Nat)) :
    spliced source start ((edit, number) :: rest) stop =
      (source.drop start).take (edit.span.start - start) ++ bytesOf edit.target ++
        spliced source edit.span.stop rest stop := rfl

theorem encode_replacement (target : ImportTarget) : encode (replacement target).1 = bytesOf target := by
  cases target with
  | address url => rfl
  | compiled path isHashed =>
    cases isHashed with
    | false => rfl
    | true =>
      have zeros : encode placeholder = List.replicate 16 0x30 := by decide
      simp only [replacement, encode_append, zeros]
      rfl

/-! ## One edit -/

def Stands (code : List Char) (progress : Progress) : Prop :=
  ∃ start, start ++ progress.rest = code ∧ width start = progress.offset

theorem cut?_eq_some_iff {start rest before after : List Char} {span : Span} :
    cut? (width start) rest span = some (before, after) ↔ ∃ middle, before ++ (middle ++ after) = rest ∧
      span.start = width start + width before ∧ span.stop = span.start + width middle := by
  unfold cut?
  constructor
  · intro cuts
    split at cuts
    · next ordered =>
      split at cuts
      · cases cuts
      · next before' rest' first =>
        obtain ⟨⟨middle, after'⟩, second, same⟩ := Option.map_eq_some_iff.1 cuts
        obtain ⟨rfl, rfl⟩ := Prod.mk.inj same
        obtain ⟨sizeBefore, rfl⟩ := split?_eq_some first
        obtain ⟨sizeMiddle, rfl⟩ := split?_eq_some second
        exact ⟨middle, rfl, by omega, by omega⟩
    · cases cuts
  · rintro ⟨middle, rfl, begins, ends⟩
    rw [if_pos (by omega), show span.start - width start = width before by omega, split?_append]
    simp only [show span.stop - span.start = width middle by omega, split?_append, Option.map_some]

theorem fits_iff {start rest : List Char} {span : Span} :
    Fits (start ++ rest) (width start) span ↔
      ∃ before after, cut? (width start) rest span = some (before, after) := by
  simp only [cut?_eq_some_iff]
  constructor
  · rintro ⟨behind, ordered, -, begins, ends⟩
    rw [show span.start = width start + (span.start - width start) by omega, boundary_append, boundary_iff]
      at begins
    obtain ⟨before, rest, rfl, sizeBefore⟩ := begins
    rw [show span.stop = width (start ++ before) + (span.stop - span.start) by rw [width_append]; omega,
      ← List.append_assoc, boundary_append, boundary_iff] at ends
    obtain ⟨middle, after, rfl, sizeMiddle⟩ := ends
    exact ⟨before, after, middle, rfl, by omega, by omega⟩
  · rintro ⟨before, after, middle, rfl, begins, ends⟩
    refine ⟨by omega, by omega, ?_, ?_, ?_⟩
    · simp only [width_append]
      omega
    · exact boundary_iff.2 ⟨start ++ before, middle ++ after, by simp, by rw [width_append, begins]⟩
    · exact boundary_iff.2 ⟨start ++ before ++ middle, after, by simp, by simp only [width_append]; omega⟩

/-- An edit whose range fits is written behind what stands before its range. -/
structure Applies (code : List Char) (progress after : Progress) (edit : Edit) (number : Nat) : Prop where
  stands : Stands code after
  offset : after.offset = edit.span.stop
  written : encode after.written = encode progress.written ++
    ((encode code).drop progress.offset).take (edit.span.start - progress.offset) ++ bytesOf edit.target
  slots : after.slots =
    match slotBehind? (encode progress.written ++
      ((encode code).drop progress.offset).take (edit.span.start - progress.offset)) edit.target with
    | some slot => progress.slots.set number (some slot)
    | none => progress.slots

variable {code : List Char} {progress : Progress}

theorem advance_of_fits (stands : Stands code progress) {edit : Edit}
    (fits : Fits code progress.offset edit.span) (number : Nat) :
    Applies code progress (advance progress edit number) edit number := by
  obtain ⟨start, rfl, offset⟩ := stands
  rw [← offset] at fits
  obtain ⟨before, after, cuts⟩ := fits_iff.1 fits
  obtain ⟨middle, rest, begins, ends⟩ := cut?_eq_some_iff.1 cuts
  have gap : ((encode (start ++ progress.rest)).drop progress.offset).take
      (edit.span.start - progress.offset) = encode before := by
    rw [← rest, encode_append, ← offset, width, List.drop_left, encode_append,
      show edit.span.start - (encode start).length = (encode before).length by rw [begins, width, width]; omega,
      List.take_left]
  have cuts' : cut? progress.offset progress.rest edit.span = some (before, after) := offset ▸ cuts
  unfold advance
  rw [cuts']
  refine ⟨⟨start ++ before ++ middle, ?_, ?_⟩, rfl, ?_, ?_⟩
  · simp [← rest]
  · simp only [width_append]
    omega
  · rw [gap, encode_append, encode_append, encode_replacement]
  · rw [gap]
    cases edit.target with
    | address url => rfl
    | compiled path isHashed =>
      cases isHashed with
      | false => rfl
      | true =>
        simp only [replacement, slotBehind?, tokenLength, width, encode_append, List.length_append, Nat.add_assoc]
        rfl

theorem advance_of_not_fits (stands : Stands code progress) {edit : Edit}
    (unfit : ¬ Fits code progress.offset edit.span) (number : Nat) : advance progress edit number = progress := by
  obtain ⟨start, rfl, offset⟩ := stands
  rw [← offset, fits_iff] at unfit
  unfold advance
  rw [← offset]
  split
  · rfl
  · next before after cuts => exact absurd ⟨before, after, cuts⟩ unfit

/-! ## All edits -/

def advanceAll (progress : Progress) (work : List (Edit × Nat)) : Progress :=
  work.foldl (fun progress item => advance progress item.1 item.2) progress

theorem advanceAll_cons (progress : Progress) (edit : Edit) (number : Nat) (rest : List (Edit × Nat)) :
    advanceAll progress ((edit, number) :: rest) = advanceAll (advance progress edit number) rest := rfl

theorem length_slots_advance (progress : Progress) (edit : Edit) (number : Nat) :
    (advance progress edit number).slots.length = progress.slots.length := by
  unfold advance
  split
  · rfl
  · dsimp only
    split
    · rfl
    · rw [List.length_set]

theorem length_slots_advanceAll (work : List (Edit × Nat)) (progress : Progress) :
    (advanceAll progress work).slots.length = progress.slots.length := by
  induction work generalizing progress with
  | nil => rfl
  | cons item rest ih => rw [advanceAll_cons, ih, length_slots_advance]

theorem written_advanceAll (work : List (Edit × Nat)) (stands : Stands code progress) :
    encode (advanceAll progress work).written ++ encode (advanceAll progress work).rest =
      encode progress.written ++
      spliced (encode code) progress.offset (accepted code progress.offset work) (encode code).length := by
  induction work generalizing progress with
  | nil =>
    obtain ⟨start, rfl, offset⟩ := stands
    rw [accepted, spliced, ← offset, width, encode_append, List.drop_left, List.length_append,
      Nat.add_sub_cancel_left, List.take_length]
    rfl
  | cons item rest ih =>
    obtain ⟨edit, number⟩ := item
    by_cases fits : Fits code progress.offset edit.span
    · obtain ⟨stands', offset, written, -⟩ := advance_of_fits stands fits number
      rw [advanceAll_cons, ih stands', accepted, if_pos fits, spliced_cons, written, offset]
      simp only [List.append_assoc]
    · rw [advanceAll_cons, advance_of_not_fits stands fits, accepted, if_neg fits, ih stands]

/-- The slots of all edits, none of which had one before. -/
theorem slots_advanceAll (work : List (Edit × Nat)) (stands : Stands code progress)
    (distinct : (work.map Prod.snd).Nodup)
    (fresh : ∀ item ∈ work, progress.slots[item.2]? = some none) (number : Nat) (slot : HashSlot) :
    (advanceAll progress work).slots[number]? = some (some slot) ↔ progress.slots[number]? = some (some slot) ∨
      ∃ before edit after, accepted code progress.offset work = before ++ (edit, number) :: after ∧
        slotBehind? (encode progress.written ++ spliced (encode code) progress.offset before edit.span.start)
          edit.target = some slot := by
  induction work generalizing progress with
  | nil => simp [accepted, advanceAll]
  | cons item rest ih =>
    obtain ⟨edit, own⟩ := item
    rw [List.map_cons, List.nodup_cons] at distinct
    have other : ∀ item ∈ rest, item.2 ≠ own := fun item member same =>
      distinct.1 (List.mem_map.2 ⟨item, member, same⟩)
    by_cases fits : Fits code progress.offset edit.span
    · obtain ⟨stands', offset, written, slots⟩ := advance_of_fits stands fits own
      -- The slots of later edits stand elsewhere in the list.
      have fresh' : ∀ item ∈ rest, (advance progress edit own).slots[item.2]? = some none := by
        intro item member
        rw [slots]
        split
        · rw [List.getElem?_set_ne (other item member).symm]
          exact fresh item (List.mem_cons_of_mem _ member)
        · exact fresh item (List.mem_cons_of_mem _ member)
      have head : (advance progress edit own).slots[number]? = some (some slot) ↔
          progress.slots[number]? = some (some slot) ∨ own = number ∧
            slotBehind? (encode progress.written ++
              spliced (encode code) progress.offset [] edit.span.start) edit.target = some slot := by
        have free := fresh _ List.mem_cons_self
        have inside : own < progress.slots.length := (List.getElem?_eq_some_iff.1 free).1
        rw [slots, spliced]
        by_cases same : own = number
        · subst same
          rw [free]
          split
          · next found => simp [found, List.getElem?_set_self inside]
          · next none => simp [none, free]
        · split
          · simp [List.getElem?_set_ne same, same]
          · simp [same]
      rw [advanceAll_cons, ih stands' distinct.2 fresh', accepted, if_pos fits, head, or_assoc, offset]
      refine or_congr_right ?_
      constructor
      · rintro (⟨rfl, found⟩ | ⟨before, later, after, chosen, found⟩)
        · exact ⟨[], edit, _, rfl, found⟩
        · refine ⟨(edit, own) :: before, later, after, by rw [List.cons_append, chosen], ?_⟩
          rw [written] at found
          simpa only [spliced_cons, List.append_assoc] using found
      · rintro ⟨before, later, after, chosen, found⟩
        cases before with
        | nil =>
          obtain ⟨same, -⟩ := List.cons.inj chosen
          obtain ⟨rfl, rfl⟩ := Prod.mk.inj same
          exact .inl ⟨rfl, found⟩
        | cons first before =>
          obtain ⟨rfl, rest⟩ := List.cons.inj chosen
          refine .inr ⟨before, later, after, rest, ?_⟩
          rw [written]
          simpa only [spliced_cons, List.append_assoc] using found
    · rw [advanceAll_cons, advance_of_not_fits stands fits, accepted, if_neg fits]
      exact ih stands distinct.2 fun item member => fresh item (List.mem_cons_of_mem _ member)

theorem filter_inOrder (edits : List Edit) (place : Nat) :
    (inOrder edits).filter (·.1.span.start = place) = edits.zipIdx.filter (·.1.span.start = place) := by
  have perm : (inOrder edits).Perm edits.zipIdx := List.mergeSort_perm _ _
  have kept : (edits.zipIdx.filter (·.1.span.start = place)).Sublist (inOrder edits) := by
    refine List.sublist_mergeSort ?_ ?_ ?_ List.filter_sublist
    · simp only [decide_eq_true_eq]
      omega
    · simp only [Bool.or_eq_true, decide_eq_true_eq]
      omega
    · refine List.pairwise_filter.2 (List.pairwise_of_forall fun first second here there => ?_)
      simp only [decide_eq_true_eq] at here there ⊢
      omega
  have same := kept.filter (·.1.span.start = place)
  rw [List.filter_filter] at same
  simp only [Bool.and_self] at same
  exact (same.eq_of_length (perm.filter _).length_eq.symm).symm

/-- Edits are taken by where they begin, and those that begin together as they were given. -/
theorem pairwise_inOrder (edits : List Edit) :
    (inOrder edits).Pairwise fun first second => first.1.span.start < second.1.span.start ∨
      first.1.span.start = second.1.span.start ∧ first.2 < second.2 := by
  have sorted : (inOrder edits).Pairwise fun first second =>
      decide (first.1.span.start ≤ second.1.span.start) = true := by
    refine List.pairwise_mergeSort ?_ ?_ _
    · simp only [decide_eq_true_eq]
      omega
    · simp only [Bool.or_eq_true, decide_eq_true_eq]
      omega
  have numbered : edits.zipIdx.Pairwise fun first second => first.2 < second.2 := by
    rw [← List.pairwise_map, List.zipIdx_map_snd]
    exact List.pairwise_lt_range'
  rw [List.pairwise_iff_forall_sublist] at sorted numbered ⊢
  intro first second listed
  have before := sorted listed
  rw [decide_eq_true_eq] at before
  rcases Nat.lt_or_eq_of_le before with less | same
  · exact .inl less
  · have together := listed.filter (·.1.span.start = first.1.span.start)
    rw [filter_inOrder] at together
    rw [List.filter_cons_of_pos (by simp), List.filter_cons_of_pos (by simp [same])] at together
    exact .inr ⟨same, numbered (together.trans List.filter_sublist)⟩

/-- Writing code with edits splices them into it, in every case. -/
theorem ofEdits_splices (code : List Char) (edits : List Edit) :
    Splices code edits (inOrder edits) (ofEdits code edits) := by
  let start : Progress := { rest := code, slots := List.replicate edits.length none }
  have stands : Stands code start := ⟨[], rfl, rfl⟩
  have perm : (inOrder edits).Perm edits.zipIdx := List.mergeSort_perm _ _
  have numbers : ((inOrder edits).map Prod.snd).Nodup := by
    rw [(perm.map Prod.snd).nodup_iff, List.zipIdx_map_snd]
    exact List.nodup_range'
  have fresh : ∀ item ∈ inOrder edits, start.slots[item.2]? = some none := by
    intro item member
    have inside := List.snd_lt_of_mem_zipIdx (perm.mem_iff.1 member)
    exact List.getElem?_eq_some_iff.2 ⟨by simpa [start] using inside, by simp [start]⟩
  have whole : ofEdits code edits = ⟨(advanceAll start (inOrder edits)).written ++
      (advanceAll start (inOrder edits)).rest, (advanceAll start (inOrder edits)).slots⟩ := rfl
  have placed := placed_ofEdits code edits
  refine
    { all := perm
      sorted := pairwise_inOrder edits
      bytes := ?_
      isText := decode_encode _
      length := ?_
      slots := fun number slot => ?_
      zeros := fun slot member => ?_
      inside := placed.inside
      apart := placed.pairwise }
  · rw [whole, bytes, encode_append, written_advanceAll _ stands]
    rfl
  · rw [whole, length_slots_advanceAll, List.length_replicate]
  · have unset : ¬ start.slots[number]? = some (some slot) := fun found => by
      have member := List.mem_of_getElem? found
      simp [start] at member
    rw [whole, slots_advanceAll _ stands numbers fresh]
    exact or_iff_right unset
  · rw [(hold_ofEdits code edits slot member).2]
    decide

end Emission

end ModuleBuild
