import ModuleBuild.Text.Word
import ModuleBuild.Text.Blank
import ModuleBuild.Text.Case
/-!
Sets of characters, as patterns write them. A set is given by the ascending places where membership
changes, so that equal sets are equal values. Surrogates are no characters: what begins right after
them begins right where they do.
-/

namespace ModuleBuild

/-- A code point is in the set when an odd number of boundaries is not above it. -/
structure CharSet where
  boundaries : List Nat
deriving DecidableEq

namespace CharSet

def contains (set : CharSet) (c : Char) : Bool := Text.within set.boundaries c.toNat

def none : CharSet := ⟨[]⟩

def any : CharSet := ⟨[0]⟩

/-- A place among the code points, moved to before the surrogates if it is right after them. -/
def place (code : Nat) : Nat := if 0xD800 ≤ code ∧ code ≤ 0xE000 then 0xD800 else code

/-- The characters from one to another, which is not before the first. -/
def range (first last : Char) : CharSet :=
  ⟨place first.toNat :: if last.toNat = 0x10FFFF then [] else [place (last.toNat + 1)]⟩

def single (c : Char) : CharSet := range c c

/-! ## Operations -/

/-- Adds a boundary in front, or takes it away where there is one. -/
def toggle (boundary : Nat) (rest : List Nat) : List Nat :=
  if rest.head? = some boundary then rest.drop 1 else boundary :: rest

/-- The boundaries of a combination of two sets, from their boundaries in order, each with whether it
is the first set's. -/
def settle (choose : Bool → Bool → Bool) (inFirst inSecond : Bool) : List (Nat × Bool) → List Nat
  | [] => []
  | (boundary, isFirst) :: rest =>
    let nowFirst := inFirst ^^ isFirst
    let nowSecond := inSecond ^^ !isFirst
    let later := settle choose nowFirst nowSecond rest
    if choose inFirst inSecond = choose nowFirst nowSecond then later else toggle boundary later

/-- The characters whose membership in two sets is as asked; those in neither are left out. -/
def combine (choose : Bool → Bool → Bool) (a b : CharSet) : CharSet :=
  ⟨settle choose false false
    (List.merge (a.boundaries.map (·, true)) (b.boundaries.map (·, false)) fun x y => x.1 ≤ y.1)⟩

def union : CharSet → CharSet → CharSet := combine (· || ·)

def inter : CharSet → CharSet → CharSet := combine (· && ·)

def diff : CharSet → CharSet → CharSet := combine fun inFirst inSecond => inFirst && !inSecond

def symmDiff : CharSet → CharSet → CharSet := combine (· ^^ ·)

def complement (set : CharSet) : CharSet := ⟨toggle 0 set.boundaries⟩

/-- The set of some characters, given by their code points. -/
def ofCodes (codes : List Nat) : CharSet :=
  codes.foldl (fun set code => union (single (Char.ofNat code)) set) none

def ofList (chars : List Char) : CharSet := ofCodes (chars.map Char.toNat)

def caseless (set : CharSet) : CharSet :=
  let isIn (code : Nat) : Bool := Text.within set.boundaries code
  union set (ofCodes (Text.foldClasses.flatMap fun alike =>
    if alike.any isIn then alike.filter (!isIn ·) else []))

/-- The first and the last code point of each run of members. -/
def runs (set : CharSet) : List (Nat × Nat) := pairs set.boundaries
where
  /-- The character that begins at a place. -/
  start (boundary : Nat) : Nat := if boundary = 0xD800 then 0xE000 else boundary
  pairs : List Nat → List (Nat × Nat)
    | [] => []
    | [first] => [(start first, 0x10FFFF)]
    | first :: next :: rest => (start first, next - 1) :: pairs rest

def sole? (set : CharSet) : Option Char :=
  match set.runs with
  | [(first, last)] => if first = last then some (Char.ofNat first) else Option.none
  | _ => Option.none

def isAscii (set : CharSet) : Bool := set.runs.all fun (_, last) => last < 128

/-! ## Classes -/

def lowerAscii : CharSet := range 'a' 'z'

def upperAscii : CharSet := range 'A' 'Z'

def digitAscii : CharSet := range '0' '9'

def letterAscii : CharSet := union lowerAscii upperAscii

def wordAscii : CharSet := union letterAscii (union digitAscii (single '_'))

def blankAscii : CharSet := ofList ['\t', '\n', '\x0b', '\x0c', '\r', ' ']

def word : CharSet := union wordAscii ⟨Text.wordBoundaries⟩

def digit : CharSet := union digitAscii ⟨Text.digitBoundaries⟩

def blank : CharSet :=
  union blankAscii (union (ofCodes [0x85, 0xA0, 0x1680, 0x2028, 0x2029, 0x202F, 0x205F, 0x3000])
    (range '\u2000' '\u200A'))

/-- Closes a set under change of case among the letters of ASCII. -/
def caselessAscii (set : CharSet) : CharSet :=
  let shifted (letters : CharSet) (shift : Nat → Nat) : CharSet :=
    ⟨(inter set letters).boundaries.map shift⟩
  union set (union (shifted lowerAscii (· - 32)) (shifted upperAscii (· + 32)))

/-- The classes that are written `[:name:]` inside brackets. -/
def named? (name : String) : Option CharSet :=
  match name with
  | "alnum" => some (union letterAscii digitAscii)
  | "alpha" => some letterAscii
  | "ascii" => some (range '\x00' '\x7f')
  | "blank" => some (ofList ['\t', ' '])
  | "cntrl" => some (union (range '\x00' '\x1f') (single '\x7f'))
  | "digit" => some digitAscii
  | "graph" => some (range '!' '~')
  | "lower" => some lowerAscii
  | "print" => some (range ' ' '~')
  | "punct" =>
    some (union (range '!' '/') (union (range ':' '@') (union (range '[' '\x60') (range '\x7b' '~'))))
  | "space" => some blankAscii
  | "upper" => some upperAscii
  | "word" => some wordAscii
  | "xdigit" => some (union digitAscii (union (range 'a' 'f') (range 'A' 'F')))
  | _ => Option.none

end CharSet

end ModuleBuild
