import ModuleBuild.Pattern.Basic
import ModuleBuild.Text.Split
/-!
Where patterns match. The places of a text are the gaps before, between and after its characters,
counted from zero, and a set of places is a number with their bits. An expression takes a set of
places to all places at which a match can end that begins in the set; a pattern is found in a text
when the whole set of places leads anywhere.
-/

namespace ModuleBuild.Pattern

/-- Whether an assertion holds between two characters, each missing at an end of the text, given which
characters form words. -/
def Assertion.holds (isWord : Char → Bool) (before? after? : Option Char) : Assertion → Bool
  | textStart => before?.isNone
  | textEnd => after?.isNone
  | lineStart => before?.all (· == '\n')
  | lineEnd => after?.all (· == '\n')
  | lineStartReturn => before?.all (· == '\n') || (before? == some '\r' && after? != some '\n')
  | lineEndReturn => after?.all (· == '\r') || (after? == some '\n' && before? != some '\r')
  | wordBoundary => before?.any isWord != after?.any isWord
  | notWordBoundary => before?.any isWord == after?.any isWord
  | wordStart => !before?.any isWord && after?.any isWord
  | wordEnd => before?.any isWord && !after?.any isWord
  | noWordBefore => !before?.any isWord
  | noWordAfter => !after?.any isWord

/-! ## Sets of places -/

def bit (holds : Bool) : Nat := if holds then 1 else 0

/-- The places before the characters for which a condition holds. -/
def placesBefore (holds : Char → Bool) : List Char → Nat
  | [] => 0
  | c :: rest => bit (holds c) ||| (placesBefore holds rest <<< 1)

def placesOf (part : List Char) : List Char → Nat
  | [] => bit part.isEmpty
  | c :: rest => bit (Text.startsWith part (c :: rest)) ||| (placesOf part rest <<< 1)

/-- The places at which a condition holds for the characters around. -/
def placesBetween (holds : Option Char → Option Char → Bool) (before? : Option Char) :
    List Char → Nat
  | [] => bit (holds before? none)
  | c :: rest => bit (holds before? (some c)) ||| (placesBetween holds (some c) rest <<< 1)

def allPlaces (text : List Char) : Nat := placesBetween (fun _ _ => true) none text

def without (places others : Nat) : Nat := (places ||| others) ^^^ others

/-! ## Steps -/

inductive Track where
  /-- Stays where it is, at some places only. -/
  | stay (places : Nat)
  /-- Passes over a number of characters, from some places only. -/
  | pass (width places : Nat)
  | seq (first second : Track)
  | alt (first second : Track)
  | repeated (body : Track) (least : Nat) (most? : Option Nat)

def Expr.track (text : List Char) : Expr → Track
  | empty => .stay (allPlaces text)
  | literal part => .pass part.length (placesOf part text)
  | set chars => .pass 1 (placesBefore chars.contains text)
  | look assertion ascii =>
    let isWord := if ascii then CharSet.wordAscii.contains else Text.isWord
    .stay (placesBetween (fun before? after? => assertion.holds isWord before? after?) none text)
  | repeated body least most? _ => .repeated (body.track text) least most?
  | group _ body => body.track text
  | seq first rest => .seq (first.track text) (rest.track text)
  | alt first rest => .alt (first.track text) (rest.track text)

/-- The places reached by a number of steps. A step that changes nothing is the last that counts. -/
def times (step : Nat → Nat) : Nat → Nat → Nat
  | 0, places => places
  | n + 1, places =>
    let next := step places
    if next = places then places else times step n next

/-- The places reached by at most a number of steps, `reached` and `latest` included. -/
def upTo (step : Nat → Nat) : Nat → (reached latest : Nat) → Nat
  | 0, reached, _ => reached
  | n + 1, reached, latest =>
    let new := without (step latest) reached
    if new = 0 then reached else upTo step n (reached ||| new) new

/-- The places reached by one step or more, `landed` included. Steps from the places in `seen` were
taken, but for those from `latest`. There are no more rounds than places, for each finds a new one. -/
def onceOrMore (step : Nat → Nat) : (rounds : Nat) → (seen landed latest : Nat) → Nat
  | 0, _, landed, _ => landed
  | n + 1, seen, landed, latest =>
    let reached := step latest
    let new := without reached seen
    if new = 0 then landed ||| reached
    else onceOrMore step n (seen ||| new) (landed ||| reached) new

/-- The places at which a match can end that begins in a set of places, in a text with no more places
than `count`. -/
def Track.ends (count : Nat) : Track → Nat → Nat
  | stay places, start => start &&& places
  | pass width places, start => (start &&& places) <<< width
  | seq first second, start => second.ends count (first.ends count start)
  | alt first second, start => first.ends count start ||| second.ends count start
  | repeated body least most?, start =>
    let step := body.ends count
    match least, most? with
    | least, some most =>
      let reached := times step least start
      upTo step (most - least) reached reached
    | 0, none => start ||| onceOrMore step count start 0 start
    | least + 1, none =>
      let reached := times step least start
      onceOrMore step count reached 0 reached

/-- Whether a pattern is found anywhere in a text. -/
def isFoundIn (pattern : Pattern) (text : String) : Bool :=
  let chars := text.toList
  (pattern.expr.track chars).ends (chars.length + 1) (allPlaces chars) != 0

end ModuleBuild.Pattern
