import ModuleBuild.Pattern.Basic
import ModuleBuild.Pattern.ByteRange
import Std.Data.HashMap
/-!
How much room a pattern takes. A pattern stands for two automata over bytes, one that reads forward
and finds the groups and one that reads backward, and it is refused when either would need more than
ten MiB. A state counts 32 bytes, a range of bytes that leads from a state with several such ranges
counts 8, and a way out of a fork counts 4. States for the characters of a set are shared where
they lead on alike, as far as a table with a fixed number of slots remembers the earlier one; which
slot a state falls on depends on the numbers of the states it leads to.

No automaton is built here; only its size is reckoned, in the order in which its states are numbered.
-/

namespace ModuleBuild.Pattern

/-- The states numbered so far and the bytes that their ranges and ways out take. -/
structure Extent where
  states : Nat := 0
  listed : Nat := 0
deriving DecidableEq

namespace Extent

def memory (extent : Extent) : Nat := 32 * extent.states + extent.listed

def limit : Nat := 10485760

def isWithinLimit (extent : Extent) : Bool := extent.memory ≤ limit

def addStates (count : Nat) (extent : Extent) : Extent :=
  { extent with states := extent.states + count }

def addWays (count : Nat) (extent : Extent) : Extent :=
  { extent with listed := extent.listed + 4 * count }

def addRanges (count : Nat) (extent : Extent) : Extent :=
  { states := extent.states + 1, listed := extent.listed + 8 * count }

end Extent

/-! ## Sets of characters -/

def stir (hash : UInt64) (value : Nat) : UInt64 := (hash ^^^ value.toUInt64) * 1099511628211

def hashOf (values : List Nat) : Nat := (values.foldl stir 14695981039346656037).toNat

structure Link where
  range : ByteRange
  target : Nat
deriving DecidableEq

/-- Part of an automaton in the making, with the states that are remembered, by their slots. -/
structure Draft (Key : Type) where
  extent : Extent
  slots : Std.HashMap Nat (Key × Nat) := ∅

/-- Adds a state and remembers it in place of what its slot held. -/
def Draft.add {Key : Type} (draft : Draft Key) (slot : Nat) (key : Key) (add : Extent → Extent) :
    Nat × Draft Key :=
  let number := draft.extent.states
  (number, { extent := add draft.extent, slots := draft.slots.insert slot (key, number) })

/-- Looks for a state like the one asked for, and adds that if there is none in its slot. -/
def Draft.share {Key : Type} [DecidableEq Key] (draft : Draft Key) (slot : Nat) (key : Key)
    (add : Extent → Extent) : Nat × Draft Key :=
  match draft.slots[slot]? with
  | some (known, state) => if known = key then (state, draft) else draft.add slot key add
  | none => draft.add slot key add

/-- The state with some links, in a table of ten thousand slots. -/
def Draft.state (draft : Draft (List Link)) (links : List Link) : Nat × Draft (List Link) :=
  let values := links.flatMap fun link =>
    [link.range.first.toNat, link.range.last.toNat, link.target]
  draft.share (hashOf values % 10000) links (·.addRanges links.length)

/-- Byte sequences grouped by their first range, as far as neighbours have the same. -/
def byFirst (sequences : List (List ByteRange)) : List (ByteRange × List (List ByteRange)) :=
  sequences.foldr (fun sequence groups =>
    match sequence, groups with
    | [], _ => groups
    | range :: rest, (first, others) :: more =>
      if range = first then (first, (rest :: others)) :: more
      else (range, [rest]) :: (first, others) :: more
    | range :: rest, [] => [(range, [rest])]) []

/-- The state from which some sequences lead to a target. No sequence is longer than `width`. -/
def entrance (target : Nat) :
    (width : Nat) → List (List ByteRange) → Draft (List Link) → Nat × Draft (List Link)
  | 0, _, draft => (target, draft)
  | width + 1, sequences, draft =>
    if sequences.all List.isEmpty then (target, draft)
    else
      let (links, draft) := (byFirst sequences).foldl (fun (links, draft) (range, rest) =>
        let (next, draft) := entrance target width rest draft
        (⟨range, next⟩ :: links, draft)) ([], draft)
      draft.state links.reverse

def forwardSet (sequences : List (List ByteRange)) (extent : Extent) : Extent :=
  (entrance extent.states 4 sequences { extent := extent.addStates 1 }).2.extent

/-- Adds the states of a set that is read backward: one fork for all sequences, which share the states
of their starts, in a table of a thousand slots. -/
def backwardSet (sequences : List (List ByteRange)) (extent : Extent) : Extent :=
  let finish := extent.states + 1
  let draft : Draft (Nat × ByteRange) := { extent := extent.addStates 2 }
  (sequences.foldl (fun draft sequence =>
    let draft := (sequence.foldl (fun (state, draft) range =>
      let slot := hashOf [state, range.first.toNat, range.last.toNat] % 1000
      Draft.share draft slot (state, range) (·.addStates 1)) (finish, draft)).2
    { draft with extent := draft.extent.addWays 1 }) draft).extent

def addSet (isBackward : Bool) (chars : CharSet) (extent : Extent) : Extent :=
  if chars.isAscii then (extent.addStates 1).addRanges chars.runs.length
  else
    let sequences := sequences chars
    if isBackward then backwardSet sequences extent else forwardSet sequences extent

/-! ## Literals -/

/-- The words among alternatives that come before, between and after the empty ones. Empty words in
front count once. -/
def chunks (words : List Bytes) : List (List Bytes) :=
  let words :=
    match words with
    | [] :: rest => [] :: rest.dropWhile List.isEmpty
    | _ => words
  words.foldr (fun word chunks =>
    match word, chunks with
    | [], _ => [] :: chunks
    | _, chunk :: more => (word :: chunk) :: more
    | _, [] => [[word]]) [[]]

def byFirstByte (words : List Bytes) : List (List Bytes) :=
  let firsts := (words.filterMap List.head?).eraseDups
  firsts.map fun first => words.filterMap fun word =>
    match word with
    | byte :: rest => if byte = first then some rest else none
    | [] => none

/-- Adds the states of the tree of some words: one for every chunk of words that go on, and a fork to
them and to the end. No word is longer than `height`. -/
def addWords : (height : Nat) → List Bytes → Extent → Extent
  | 0, _, extent => extent
  | height + 1, words, extent =>
    let chunks := (chunks words).map byFirstByte
    let extent := chunks.flatten.foldl (fun extent rest =>
      if rest.all List.isEmpty then extent else addWords height rest extent) extent
    let extent := chunks.foldl (fun extent branches =>
      match branches with
      | [] => extent
      | [_] => extent.addStates 1
      | _ => extent.addRanges branches.length) extent
    let ways := (chunks.filter (!·.isEmpty)).length + (chunks.length - 1)
    (extent.addStates 1).addWays ways

/-! ## Expressions -/

namespace Expr

def literals? : Expr → Option (List (List Char))
  | alt first rest =>
    match first, rest.literals? with
    | literal text, some more => some (text :: more)
    | _, _ => none
  | literal text => some [text]
  | _ => none

/-- The length of the shortest match, as can be told from the form, if there is a match. -/
def shortest? : Expr → Option Nat
  | empty | look .. => some 0
  | literal text => some text.length
  | set chars => if chars.boundaries.isEmpty then none else some 1
  | repeated body least _ _ => body.shortest?.map (· * least)
  | group _ body => body.shortest?
  | seq first rest => first.shortest?.bind fun m => rest.shortest?.map (m + ·)
  | alt first rest => first.shortest?.bind fun m => rest.shortest?.map (min m ·)

/-- Whether the state at which an expression ends is a fork, with more ways to come. -/
def endsInFork (isBackward : Bool) : Expr → Bool
  | repeated body least none _ => least ≠ 0 || body.shortest?.any (0 < ·)
  | repeated body least (some most) _ => least = most && least ≠ 0 && body.endsInFork isBackward
  | group _ body => isBackward && body.endsInFork isBackward
  | seq first rest =>
    if isBackward then first.endsInFork isBackward else rest.endsInFork isBackward
  | _ => false

/-- Whether every match begins at the start of the text, as can be told from the form. -/
def isAtStart : Expr → Bool
  | look .textStart _ => true
  | repeated body least _ _ => least ≠ 0 && body.isAtStart
  | group _ body => body.isAtStart
  | seq first rest => first.isAtStart || (first.isEmptyOnly && rest.isAtStart)
  | alt first rest => first.isAtStart && rest.isAtStart
  | _ => false

/-- Whether every match ends at the end of the text, as can be told from the form. -/
def isAtEnd : Expr → Bool
  | look .textEnd _ => true
  | repeated body least _ _ => least ≠ 0 && body.isAtEnd
  | group _ body => body.isAtEnd
  | seq first rest => rest.isAtEnd || (rest.isEmptyOnly && first.isAtEnd)
  | alt first rest => first.isAtEnd && rest.isAtEnd
  | _ => false

end Expr

/-- Adds copies of a part, each linked to the one before by `link`. Stops over the limit. -/
def addCopies (add link : Extent → Extent) : Nat → Extent → Extent
  | 0, extent => extent
  | n + 1, extent =>
    if extent.isWithinLimit then addCopies add link n (add (link extent)) else extent

def addExactly (add link : Extent → Extent) : Nat → Extent → Extent
  | 0, extent => extent.addStates 1
  | n + 1, extent => addCopies add link n (add extent)

/-- Which alternative an expression is, if it is one. -/
inductive Turn where
  | alone
  | second
  | further

/-- Adds the states of an expression. The fork of alternatives is numbered after the second. -/
def Expr.addTo (isBackward : Bool) : Turn → Expr → Extent → Extent
  | turn, expr, extent =>
    let joins (expr : Expr) : Nat := if expr.endsInFork isBackward then 1 else 0
    let counted (extent : Extent) : Extent :=
      match turn with
      | .alone => extent
      | .second => (extent.addStates 2).addWays (2 + joins expr)
      | .further => extent.addWays (1 + joins expr)
    match expr with
    | empty | look .. => counted (extent.addStates 1)
    | literal text => counted (extent.addStates (Utf8.width text))
    | set chars => counted (addSet isBackward chars extent)
    | group _ body =>
      counted
        (if isBackward then body.addTo isBackward .alone extent
        else
          ((body.addTo isBackward .alone (extent.addStates 1)).addStates 1).addWays (joins body))
    | seq first rest =>
      counted
        (if isBackward then
          first.addTo isBackward .alone
            ((rest.addTo isBackward .alone extent).addWays (joins rest))
        else
          rest.addTo isBackward .alone
            ((first.addTo isBackward .alone extent).addWays (joins first)))
    | repeated body least most? _ =>
      let add := body.addTo isBackward .alone
      let link (extent : Extent) : Extent := extent.addWays (joins body)
      counted <|
        match least, most? with
        | 0, some 1 => link ((add (extent.addStates 1)).addStates 1 |>.addWays 2)
        | 0, none =>
          if body.shortest?.any (0 < ·) then link ((add (extent.addStates 1)).addWays 1)
          else link ((add extent).addStates 3 |>.addWays 4)
        | least + 1, none =>
          let extent := if least = 0 then extent else link (addExactly add link least extent)
          link (add extent) |>.addStates 1 |>.addWays 1
        | least, some most =>
          let extent := addExactly add link least extent
          if least = most then extent
          else
            let extent := extent.addStates 1
            let extent := if least = 0 then extent else link extent
            addCopies (fun extent => link (add (extent.addStates 1)) |>.addWays 2) id
              (most - least) extent
    | alt first rest =>
      match turn, expr.literals? with
      | .alone, some words =>
        let words := words.map fun text =>
          if isBackward then (Utf8.encode text).reverse else Utf8.encode text
        let height := (words.map List.length).foldl max 0
        addWords height words (extent.addStates 1)
      | .alone, none =>
        rest.addTo isBackward .second
          ((first.addTo isBackward .alone extent).addWays (joins first))
      | .second, _ => rest.addTo isBackward .further (first.addTo isBackward .second extent)
      | .further, _ => rest.addTo isBackward .further (first.addTo isBackward .further extent)

/-- The states that pass over the text before a match, unless every match is at an end of the text. -/
def leadIn (isAtEnd : Bool) : Extent :=
  if isAtEnd then Extent.addStates 1 {} else (Extent.addWays 2 {}).addStates 2 |>.addRanges 1

/-- The automaton that reads forward; it also marks where the match and its groups begin and end. -/
def Expr.forwardExtent (expr : Expr) : Extent :=
  expr.addTo false .alone ((leadIn expr.isAtStart).addStates 1) |>.addStates 2
    |>.addWays (if expr.endsInFork false then 1 else 0)

def Expr.backwardExtent (expr : Expr) : Extent :=
  expr.addTo true .alone (leadIn expr.isAtEnd) |>.addStates 1
    |>.addWays (if expr.endsInFork true then 1 else 0)

def Expr.isWithinLimit (expr : Expr) : Bool :=
  expr.backwardExtent.isWithinLimit && expr.forwardExtent.isWithinLimit

end ModuleBuild.Pattern
