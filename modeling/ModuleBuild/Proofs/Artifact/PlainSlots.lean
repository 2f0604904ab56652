import ModuleBuild.Proofs.Artifact.EmittedSlots
import ModuleBuild.Proofs.Text.Encoding
/-!
Emitted code is a text, and stays one when tokens are written into its slots: what stands there, and all that
may be written there, are characters of one byte.
-/

namespace ModuleBuild

/-! ## Tokens -/

def IsHex (hash : String) : Prop := ∃ bytes, hash = Blake3.hex bytes

namespace IsHex

variable {hash : String}

theorem hasToken (hex : IsHex hash) : HasToken hash := by
  obtain ⟨bytes, rfl⟩ := hex
  exact hasToken_hex bytes

theorem foldHashes (hex : IsHex hash) (imports : List String) :
    IsHex (ModuleBuild.foldHashes hash imports) := by
  unfold ModuleBuild.foldHashes
  split
  · exact hex
  · exact ⟨_, rfl⟩

theorem plain (hex : IsHex hash) {token : String} (cut : hashToken? hash = some token) {byte : UInt8}
    (member : byte ∈ Text.bytes token) : byte < 0x80 := by
  obtain ⟨bytes, rfl⟩ := hex
  obtain rfl := Option.some.inj ((hashToken?_hex bytes).symm.trans cut)
  rw [Text.bytes, String.toList_ofList] at member
  exact Utf8.lt_of_mem_encode (fun c inside => ascii_hex bytes c (List.mem_of_mem_take inside)) member

end IsHex

/-! ## Slots in a text -/

namespace HashSlot

variable {slot : HashSlot} {code : Bytes}

theorem mem_content {byte : UInt8} :
    byte ∈ slot.content code ↔ ∃ index, slot.Covers index ∧ code[index]? = some byte := by
  rw [List.mem_iff_getElem?]
  simp only [getElem?_content]
  constructor
  · rintro ⟨index, found⟩
    split at found
    · exact ⟨slot.offset + index, ⟨by omega, by rw [stop]; omega⟩, found⟩
    · cases found
  · rintro ⟨index, ⟨above, below⟩, found⟩
    rw [stop] at below
    refine ⟨index - slot.offset, ?_⟩
    rw [if_pos (by omega), show slot.offset + (index - slot.offset) = index by omega, found]

theorem content_append (inside : slot.stop ≤ code.length) (rest : Bytes) :
    slot.content (code ++ rest) = slot.content code :=
  content_congr fun _ covers => List.getElem?_append_left (Nat.lt_of_lt_of_le covers.2 inside)

end HashSlot

/-- Code is a text in which the slots of edges lie apart and hold characters of one byte. -/
structure SlotsInText (edges : List DependencyEdge) (code : Bytes) : Prop where
  fit : SlotsFit edges code.length
  isText : ∃ text, code = Utf8.encode text
  plain : ∀ slot ∈ slotsOf edges, ∀ byte ∈ slot.content code, byte < 0x80

namespace SlotsInText

variable {edges : List DependencyEdge} {code written : Bytes}

theorem congr {others : List DependencyEdge} (fits : SlotsInText edges code)
    (same : slotsOf others = slotsOf edges) : SlotsInText others code :=
  ⟨⟨same ▸ fits.fit.width, same ▸ fits.fit.inside, same ▸ fits.fit.apart⟩, fits.isText, same ▸ fits.plain⟩

theorem overwrite (fits : SlotsInText edges code) {slots : List HashSlot}
    (own : ∀ slot ∈ slots, slot ∈ slotsOf edges) (agree : AgreeOutside slots code written)
    (plain : ∀ slot ∈ slots, ∀ byte ∈ slot.content written, byte < 0x80) : SlotsInText edges written := by
  have bytes (index : Nat) : written[index]? = code[index]? ∨
      (∀ byte, written[index]? = some byte → byte < 0x80) ∧
        ∀ byte, code[index]? = some byte → byte < 0x80 := by
    by_cases covered : ∃ slot ∈ slots, slot.Covers index
    · obtain ⟨slot, member, covers⟩ := covered
      exact .inr ⟨fun byte found => plain slot member byte (HashSlot.mem_content.2 ⟨index, covers, found⟩),
        fun byte found => fits.plain slot (own slot member) byte
          (HashSlot.mem_content.2 ⟨index, covers, found⟩)⟩
    · exact .inl (agree.bytes index fun slot member covers => covered ⟨slot, member, covers⟩).symm
  refine ⟨agree.length ▸ fits.fit, ?_, fun slot member byte inside => ?_⟩
  · obtain ⟨text, rfl⟩ := fits.isText
    refine Utf8.exists_eq_encode (List.forall₂_iff_get.2 ⟨agree.length.symm, fun index one two => ?_⟩)
    have first := List.getElem?_eq_getElem one
    have second := List.getElem?_eq_getElem two
    rcases bytes index with same | ⟨new, old⟩
    · exact .inl (Option.some.inj (first.symm.trans (same.trans second)))
    · exact .inr ⟨new _ first, old _ second⟩
  · obtain ⟨index, covers, found⟩ := HashSlot.mem_content.1 inside
    rcases bytes index with same | ⟨new, -⟩
    · exact fits.plain slot member byte (HashSlot.mem_content.2 ⟨index, covers, same ▸ found⟩)
    · exact new byte found

end SlotsInText

/-! ## Emitted code -/

namespace Emission

theorem plain_placeholder : ∀ c ∈ placeholder, c.utf8Size = 1 := by
  intro c member
  rw [List.eq_of_mem_replicate member]
  rfl

def Hold (slots : List (Option HashSlot)) (code : Bytes) : Prop :=
  ∀ slot, some slot ∈ slots → slot.stop ≤ code.length ∧ slot.content code = Utf8.encode placeholder

theorem Hold.append {slots : List (Option HashSlot)} {code : Bytes} (hold : Hold slots code) (rest : Bytes) :
    Hold slots (code ++ rest) := by
  intro slot member
  obtain ⟨inside, held⟩ := hold slot member
  exact ⟨by rw [List.length_append]; omega, (HashSlot.content_append inside rest).trans held⟩

theorem hold_advance {progress : Progress} (hold : Hold progress.slots (Utf8.encode progress.written))
    (edit : Edit) (number : Nat) :
    Hold (advance progress edit number).slots (Utf8.encode (advance progress edit number).written) := by
  unfold advance
  split
  · exact hold
  · next before after _ =>
    have kept (text : List Char) : Hold progress.slots (Utf8.encode (progress.written ++ before ++ text)) := by
      simp only [Utf8.encode_append, List.append_assoc]
      exact hold.append _
    cases target : edit.target with
    | address url => exact kept _
    | compiled path isHashed =>
      cases isHashed with
      | false => exact kept _
      | true =>
        intro slot member
        rcases List.mem_or_eq_of_mem_set member with old | new
        · exact kept _ slot old
        · obtain rfl := Option.some.inj new
          have length : (Utf8.encode placeholder).length = tokenLength := width_placeholder
          have whole : Utf8.encode (progress.written ++ before ++ (path.toList ++ tokenMark ++ placeholder)) =
              Utf8.encode (progress.written ++ before ++ (path.toList ++ tokenMark)) ++
                Utf8.encode placeholder := by
            simp only [Utf8.encode_append, List.append_assoc]
          dsimp only [replacement, HashSlot.stop, HashSlot.content]
          rw [whole, ← Utf8.width_append, List.length_append, length]
          exact ⟨Nat.le_refl _, by rw [Utf8.width, List.drop_left, ← length, List.take_length]⟩

theorem hold_ofEdits (code : List Char) (edits : List Edit) :
    Hold (ofEdits code edits).slots (ofEdits code edits).bytes := by
  rw [bytes, ofEdits, Utf8.encode_append]
  refine Hold.append ?_ _
  refine List.foldlRecOn (motive := fun progress : Progress => Hold progress.slots (Utf8.encode progress.written))
    _ _ (fun slot member => ?_) fun _ hold item _ => hold_advance hold item.1 item.2
  simp at member

end Emission

end ModuleBuild
