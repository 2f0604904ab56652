import ModuleBuild.Proofs.Imports.Quotations
/-!
Code can be written with an edit for every import that was found in it. The names of the imports lie apart and
cut no character, so no edit stands in the way of another one.
-/

namespace ModuleBuild

open Utf8

namespace Emission

variable {code : List Char} {edits : List Edit}

theorem accepted_eq_self {order : List (Edit × Nat)} {place : Nat}
    (fit : ∀ item ∈ order, Fits code 0 item.1.span) (behind : ∀ item ∈ order, place ≤ item.1.span.start)
    (apart : order.Pairwise fun first second => first.1.span.stop ≤ second.1.span.start) :
    accepted code place order = order := by
  induction order generalizing place with
  | nil => rfl
  | cons item rest ih =>
    obtain ⟨here, fit⟩ := List.forall_mem_cons.1 fit
    obtain ⟨least, behind⟩ := List.forall_mem_cons.1 behind
    obtain ⟨next, apart⟩ := List.pairwise_cons.1 apart
    rw [accepted, if_pos ⟨least, here.2⟩, ih fit next apart]

/-- Edits of ranges that can be cut out and lie apart are all applied, in whatever order they are given. -/
theorem accepted_inOrder (fit : ∀ edit ∈ edits, Fits code 0 edit.span)
    (some : ∀ edit ∈ edits, edit.span.start < edit.span.stop)
    (apart : edits.Pairwise fun first second =>
      first.span.stop ≤ second.span.start ∨ second.span.stop ≤ first.span.start) :
    accepted code 0 (inOrder edits) = inOrder edits := by
  have perm : (inOrder edits).Perm edits.zipIdx := List.mergeSort_perm _ _
  have listed : ∀ item ∈ inOrder edits, item.1 ∈ edits := fun item member => by
    rw [← List.zipIdx_map_fst 0 edits]
    exact List.mem_map_of_mem (perm.mem_iff.1 member)
  have apart' : (inOrder edits).Pairwise fun first second =>
      first.1.span.stop ≤ second.1.span.start ∨ second.1.span.stop ≤ first.1.span.start := by
    rw [perm.pairwise_iff fun either => either.symm]
    rw [← List.zipIdx_map_fst 0 edits, List.pairwise_map] at apart
    exact apart
  refine accepted_eq_self (fun item member => fit item.1 (listed item member)) (fun _ _ => Nat.zero_le _) ?_
  refine ((pairwise_inOrder edits).and apart').imp_of_mem fun {first second} here there both => ?_
  -- of two ranges that are not empty, the later one does not end before the earlier one begins
  have long := some first.1 (listed first here)
  have long' := some second.1 (listed second there)
  omega

/-- Where all edits are applied, the code is written with all of them, and every token has a slot. -/
theorem ofEdits_of_accepted (all : accepted code 0 (inOrder edits) = inOrder edits) :
    (ofEdits code edits).bytes = spliced (encode code) 0 (inOrder edits) (encode code).length ∧
      ∀ (number : Nat) (edit : Edit) (path : String), edits[number]? = some edit → edit.target = .compiled path true →
        ∃ slot, (ofEdits code edits).slots[number]? = some (some slot) := by
  let start : Progress := { rest := code, slots := List.replicate edits.length none }
  have stands : Stands code start := ⟨[], rfl, rfl⟩
  have perm : (inOrder edits).Perm edits.zipIdx := List.mergeSort_perm _ _
  have numbers : ((inOrder edits).map Prod.snd).Nodup := by
    rw [(perm.map Prod.snd).nodup_iff, List.zipIdx_map_snd]
    exact List.nodup_range'
  have fresh : ∀ item ∈ inOrder edits, start.slots[item.2]? = some none := by
    intro item member
    have inside := List.snd_lt_of_mem_zipIdx (perm.mem_iff.1 member)
    exact List.getElem?_eq_some_iff.2 ⟨by simpa [start] using inside, by simp [start]⟩
  have whole : ofEdits code edits = ⟨(advanceAll start (inOrder edits)).written ++
      (advanceAll start (inOrder edits)).rest, (advanceAll start (inOrder edits)).slots⟩ := rfl
  constructor
  · have written := written_advanceAll (inOrder edits) stands
    rw [show start.offset = 0 from rfl, all] at written
    rw [whole, bytes, encode_append, written]
    rfl
  · intro number edit path listed target
    have member : (edit, number) ∈ inOrder edits :=
      perm.mem_iff.2 (List.mk_mem_zipIdx_iff_getElem?.2 listed)
    obtain ⟨before, after, cut⟩ := List.append_of_mem member
    obtain ⟨slot, behind⟩ : ∃ slot, slotBehind?
        (encode start.written ++ spliced (encode code) start.offset before edit.span.start) edit.target =
          some slot := by
      rw [target]
      exact ⟨_, rfl⟩
    rw [whole]
    exact ⟨slot, (slots_advanceAll _ stands numbers fresh number slot).2
      (.inr ⟨before, edit, after, all.trans cut, behind⟩)⟩

end Emission

namespace Imports

variable {code name : List Char} {span : Span}

theorem IsQuoted.start_lt_stop (quoted : IsQuoted code name span) : span.start < span.stop := by
  have long := List.length_pos_iff.2 quoted.nonempty
  have wide := length_le_width name
  rw [quoted.stop]
  omega

theorem IsQuoted.fits (quoted : IsQuoted code name span) : Emission.Fits code 0 span := by
  obtain ⟨before, opening, closing, after, whole, -, -, begins⟩ := quoted.around
  have ends : span.stop = width (before ++ [opening] ++ name) := by
    rw [quoted.stop, begins, width_append _ name]
  refine ⟨Nat.zero_le _, Nat.le_of_lt quoted.start_lt_stop, ?_, ?_, ?_⟩
  · rw [ends, whole, ← List.append_assoc, width_append _ (closing :: after)]
    exact Nat.le_add_right _ _
  · exact boundary_iff.2 ⟨_, _, whole.symm, begins.symm⟩
  · exact boundary_iff.2 ⟨before ++ [opening] ++ name, closing :: after, by rw [whole, List.append_assoc], ends.symm⟩

/-- The imports that are found in code stand there in quotes, in order and apart, so that edits of them, one
for each, are all applied. -/
theorem scan_is_rewritable (code : List Char) :
    (∀ found ∈ (scan code).1, ∃ span, found.span? = some span ∧ IsQuoted code found.written.toList span ∧
      Emission.Fits code 0 span) ∧
    (scan code).1.Pairwise (fun first second =>
      ∀ span ∈ first.span?, ∀ span' ∈ second.span?, span.stop < span'.start) ∧
    ∀ edits : List Edit, (edits.map (some ·.span)).Perm ((scan code).1.map (·.span?)) →
      Emission.accepted code 0 (Emission.inOrder edits) = Emission.inOrder edits ∧
      (Emission.ofEdits code edits).bytes =
        Emission.spliced (encode code) 0 (Emission.inOrder edits) (encode code).length ∧
      ∀ (number : Nat) (edit : Edit) (path : String), edits[number]? = some edit → edit.target = .compiled path true →
        ∃ slot, (Emission.ofEdits code edits).slots[number]? = some (some slot) := by
  refine ⟨fun found member => ?_, pairwise_scan code, fun edits one => ?_⟩
  · obtain ⟨span, is, quoted⟩ := standsIn_scan member
    exact ⟨span, is, quoted, quoted.fits⟩
  have quoted : ∀ edit ∈ edits, ∃ name, IsQuoted code name edit.span := by
    intro edit member
    obtain ⟨found, listed, same⟩ := List.mem_map.1 (one.mem_iff.1 (List.mem_map_of_mem member))
    obtain ⟨span, is, quoted⟩ := standsIn_scan listed
    obtain rfl := Option.some.inj (is.symm.trans same)
    exact ⟨_, quoted⟩
  have apart : (edits.map (some ·.span)).Pairwise fun first second => ∀ span ∈ first, ∀ span' ∈ second,
      span.stop ≤ span'.start ∨ span'.stop ≤ span.start := by
    rw [one.pairwise_iff fun either span is span' is' => (either span' is' span is).symm, List.pairwise_map]
    exact (pairwise_scan code).imp fun ahead span is span' is' => .inl (Nat.le_of_lt (ahead span is span' is'))
  rw [List.pairwise_map] at apart
  have all : Emission.accepted code 0 (Emission.inOrder edits) = Emission.inOrder edits := by
    refine Emission.accepted_inOrder (fun edit member => ?_) (fun edit member => ?_) ?_
    · obtain ⟨name, quoted⟩ := quoted edit member
      exact quoted.fits
    · obtain ⟨name, quoted⟩ := quoted edit member
      exact quoted.start_lt_stop
    · exact apart.imp fun either => either _ rfl _ rfl
  exact ⟨all, Emission.ofEdits_of_accepted all⟩

/-- A script with imports of three kinds, the first of which is written inside an export clause. -/
def nestedScript : List Char := "export \x7b import 'a' \x7d from \"b\"; import('c')".toList

/-- Edits of its imports, not in the order of the script. -/
def nestedEdits : List Edit :=
  [⟨⟨40, 41⟩, .compiled "/c" true⟩, ⟨⟨17, 18⟩, .address "/a"⟩, ⟨⟨28, 29⟩, .compiled "/b" true⟩]

theorem scan_nestedScript : (scan nestedScript).1 =
    [⟨"a", false, some ⟨17, 18⟩⟩, ⟨"b", false, some ⟨28, 29⟩⟩, ⟨"c", true, some ⟨40, 41⟩⟩] := by
  have found : foundIn nestedScript =
      [⟨"a", false, some ⟨17, 18⟩⟩, ⟨"b", false, some ⟨28, 29⟩⟩, ⟨"c", true, some ⟨40, 41⟩⟩] := by
    decide +kernel
  rw [scan_fst, found, List.mergeSort_of_pairwise (by decide)]
  rfl

theorem scan_is_rewritable_nested :
    (nestedEdits.map (some ·.span)).Perm ((scan nestedScript).1.map (·.span?)) ∧
      Emission.accepted nestedScript 0 (Emission.inOrder nestedEdits) = Emission.inOrder nestedEdits ∧
      ∃ slot, (Emission.ofEdits nestedScript nestedEdits).slots[2]? = some (some slot) := by
  have one : (nestedEdits.map (some ·.span)).Perm ((scan nestedScript).1.map (·.span?)) := by
    rw [scan_nestedScript]
    decide
  obtain ⟨all, -, slots⟩ := (scan_is_rewritable nestedScript).2.2 nestedEdits one
  exact ⟨one, all, slots 2 _ _ rfl rfl⟩

end Imports

end ModuleBuild
