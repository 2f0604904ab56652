import ModuleBuild.Pattern.CharSet
import ModuleBuild.Text.Utf8
/-!
Sets of characters as sets of byte sequences. A run of code points is cut into pieces whose encodings
are all sequences with one byte of each of some ranges, the ranges of a piece in order.
-/

namespace ModuleBuild.Pattern

structure ByteRange where
  first : UInt8
  last : UInt8
deriving DecidableEq

/-- Where a run of code points has to be cut: the last of its first part and the first of the rest.
It is cut around the surrogates, where encodings grow longer, and where the bytes before the last
ones change while those do not take all their values. -/
def cut? (first last : Nat) : Option (Nat × Nat) :=
  if first < 0xD800 ∧ 0xD7FF < last then some (0xD7FF, 0xE000)
  else
    match [0x7F, 0x7FF, 0xFFFF].find? fun top => first ≤ top && top < last with
    | some top => some (top, top + 1)
    | none =>
      if last < 0x80 then none
      else
        [0x40, 0x1000, 0x40000].findSome? fun block =>
          if first / block = last / block then none
          else if first % block ≠ 0 then
            some ((first / block + 1) * block - 1, (first / block + 1) * block)
          else if last % block ≠ block - 1 then
            some (last / block * block - 1, last / block * block)
          else none

def pieces (first last : Nat) : List (Nat × Nat) :=
  match cut? first last with
  | none => [(first, last)]
  | some (stop, next) =>
    if first ≤ stop ∧ stop < next ∧ next ≤ last then pieces first stop ++ pieces next last
    else [(first, last)]
termination_by last - first

def byteRanges (first last : Nat) : List ByteRange :=
  List.zipWith ByteRange.mk (String.utf8EncodeChar (Char.ofNat first))
    (String.utf8EncodeChar (Char.ofNat last))

/-- The byte ranges of all pieces of a set, in the order of their characters. -/
def sequences (set : CharSet) : List (List ByteRange) :=
  set.runs.flatMap fun (first, last) =>
    (pieces first last).map fun (first, last) => byteRanges first last

end ModuleBuild.Pattern
