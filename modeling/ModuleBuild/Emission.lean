import ModuleBuild.Specifier.ServingPath
import ModuleBuild.ModuleRecord
import ModuleBuild.Graph.ContentHash
/-!
Writing compiled code: import strings are replaced by the paths under which the imported modules are
served, and the places of their hash tokens are noted, so that a token can be changed later by
writing over its bytes.
-/

namespace ModuleBuild

/-- A range of bytes. -/
structure Span where
  start : Nat
  stop : Nat
deriving DecidableEq

/-- What an import string is replaced by. -/
inductive ImportTarget where
  /-- An address that stays as it is. -/
  | address (url : String)
  /-- A compiled module; a hashed import also carries a hash token. -/
  | compiled (path : String) (isHashed : Bool)

/-- What goes in the place of a range of bytes. -/
structure Edit where
  span : Span
  target : ImportTarget

/-- Written code, and the slot of each edit in the order in which the edits were given. -/
structure Emission where
  code : List Char
  slots : List (Option HashSlot)

namespace Emission

def tokenMark : List Char := "?v=".toList

def placeholder : List Char := List.replicate tokenLength '0'

/-- Code that is being written: the text so far, and the source that is left with its offset. -/
structure Progress where
  written : List Char := []
  offset : Nat := 0
  rest : List Char
  slots : List (Option HashSlot)

/-- The source before and after a span, for a source that begins at an offset. There is none when
the span is reversed, begins earlier, ends too late or cuts a character. -/
def cut? (offset : Nat) (rest : List Char) (span : Span) : Option (List Char × List Char) :=
  if offset ≤ span.start ∧ span.start ≤ span.stop then
    match Utf8.split? (span.start - offset) rest with
    | none => none
    | some (before, rest) =>
      (Utf8.split? (span.stop - span.start) rest).map fun (_, after) => (before, after)
  else none

/-- The text of a target and the offset of its token within it. -/
def replacement : ImportTarget → List Char × Option Nat
  | .address url => (url.toList, none)
  | .compiled path false => (path.toList, none)
  | .compiled path true =>
    (path.toList ++ tokenMark ++ placeholder, some (Utf8.width (path.toList ++ tokenMark)))

/-- Applies the edit with a given number, or skips it if its span cannot be cut out. -/
def advance (progress : Progress) (edit : Edit) (number : Nat) : Progress :=
  match cut? progress.offset progress.rest edit.span with
  | none => progress
  | some (before, after) =>
    let (text, token?) := replacement edit.target
    let written := progress.written ++ before
    { written := written ++ text
      offset := edit.span.stop
      rest := after
      slots :=
        match token? with
        | none => progress.slots
        | some offset =>
          progress.slots.set number (some ⟨Utf8.width written + offset, tokenLength⟩) }

/-- The edits with their numbers, by where they begin; those that begin together stay in order. -/
def inOrder (edits : List Edit) : List (Edit × Nat) :=
  edits.zipIdx.mergeSort fun a b => a.1.span.start ≤ b.1.span.start

/-- Writes code with edits applied. -/
def ofEdits (code : List Char) (edits : List Edit) : Emission :=
  let progress :=
    (inOrder edits).foldl (fun progress (edit, number) => advance progress edit number)
      { rest := code, slots := List.replicate edits.length none }
  ⟨progress.written ++ progress.rest, progress.slots⟩

def bytes (emission : Emission) : Bytes := Utf8.encode emission.code

end Emission

/-- A slot lies outside of the code, or a token does not fill it. -/
structure SlotFault where
  slot : HashSlot
  size : Nat
deriving DecidableEq

def HashSlot.patch (slot : HashSlot) (code token : Bytes) : Except SlotFault Bytes :=
  if slot.stop ≤ code.length ∧ token.length = slot.length then
    .ok (code.take slot.offset ++ token ++ code.drop slot.stop)
  else .error ⟨slot, code.length⟩

end ModuleBuild
