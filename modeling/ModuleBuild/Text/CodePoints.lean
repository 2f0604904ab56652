/-!
Sets of code points, given by the places where membership changes.
-/

namespace ModuleBuild.Text

/-- Ascending boundaries: a code point is in the set when an odd number of them is not above it. -/
def within : List Nat → Nat → Bool
  | [], _ => false
  | boundary :: rest, code => boundary ≤ code && !within rest code

end ModuleBuild.Text
