import ModuleBuild.Pattern.Escape
import ModuleBuild.Text.Split
/-!
Classes in brackets: characters, ranges, named classes and brackets inside brackets, combined by set
operations. Every class is read together with how deep its parts are nested: a bracket, a list of two
items or more, and an operation each are one level.
-/

namespace ModuleBuild.Pattern

open Text

inductive SetOperation where
  | intersection
  | difference
  | symmetricDifference

def SetOperation.apply : SetOperation → CharSet → CharSet → CharSet
  | intersection => .inter
  | difference => .diff
  | symmetricDifference => .symmDiff

structure Class where
  set : CharSet
  depth : Nat := 0

/-- A bracket that is open: what stands before its last operator, and what was listed since. -/
structure Bracket where
  isNegated : Bool
  left? : Option (SetOperation × Class) := none
  items : Nat := 0
  listed : Class := { set := .none }

namespace Bracket

def add (bracket : Bracket) (item : Class) : Bracket :=
  { bracket with
    items := bracket.items + 1
    listed :=
      { set := .union bracket.listed.set item.set
        depth := max bracket.listed.depth item.depth } }

/-- Combines what was listed with what stands before the operator. -/
def combined (flags : Flags) (bracket : Bracket) : Class :=
  let right : Class :=
    { bracket.listed with
      depth := if 2 ≤ bracket.items then bracket.listed.depth + 1 else bracket.listed.depth }
  match bracket.left? with
  | none => right
  | some (operation, left) =>
    { set := operation.apply (folded flags left.set) (folded flags right.set)
      depth := max left.depth right.depth + 1 }

def operate (flags : Flags) (bracket : Bracket) (operation : SetOperation) : Bracket :=
  { isNegated := bracket.isNegated, left? := some (operation, bracket.combined flags) }

def close? (flags : Flags) (bracket : Bracket) : Option Class :=
  let whole := bracket.combined flags
  (negated? flags bracket.isNegated (folded flags whole.set)).map fun set =>
    { set, depth := whole.depth + 1 }

/-- Takes in dashes with layout after each, and gives their width. -/
def addDashes (flags : Flags) (bracket : Bracket) (text : List Char) : Bracket × Nat :=
  match text with
  | '-' :: rest =>
    let space := layoutWidth flags rest
    let (bracket, width) := addDashes flags (bracket.add { set := .single '-' }) (rest.drop space)
    (bracket, 1 + space + width)
  | _ => (bracket, 0)
termination_by text.length
decreasing_by grind

end Bracket

/-- Reads what follows an opening bracket up to its first ordinary item. -/
def openBracket (flags : Flags) (text : List Char) : Bracket × Nat :=
  let space := layoutWidth flags text
  let text := text.drop space
  let isNegated := text.head? = some '^'
  let sign := if isNegated then 1 + layoutWidth flags (text.drop 1) else 0
  let text := text.drop sign
  let (bracket, dashes) := Bracket.addDashes flags { isNegated } text
  if dashes = 0 ∧ text.head? = some ']' then
    (bracket.add { set := .single ']' }, space + sign + 1)
  else (bracket, space + sign + dashes)

def namedClass? (text : List Char) : Option (CharSet × Bool × Nat) :=
  (strip? ['[', ':'] text).bind fun rest =>
    let isNegated := rest.head? = some '^'
    let rest := if isNegated then rest.drop 1 else rest
    let name := rest.takeWhile Char.isAlpha
    if startsWith [':', ']'] (rest.drop name.length) then
      (CharSet.named? (String.ofList name)).map fun set =>
        (set, isNegated, name.length + (if isNegated then 5 else 4))
    else none

def bracketItem? (flags : Flags) (text : List Char) : Option (Escape × Nat) :=
  match text with
  | [] => none
  | '\\' :: rest => (escape? flags rest).map fun (item, width) => (item, width + 1)
  | c :: _ => some (.literal c false, 1)

/-- The character after a dash, but for blanks and one number sign where layout does not count. -/
def afterDash? (flags : Flags) (text : List Char) : Option Char :=
  if !flags.verbose then text.head?
  else
    let text' := text.dropWhile isBlank
    let text' := if text'.head? = some '#' then (text'.drop 1).dropWhile isBlank else text'
    text'.head?.or text.head?

def bracketRange? (flags : Flags) (text : List Char) : Option (CharSet × Nat) :=
  let isMember (c : Char) : Bool := flags.unicode || c.toNat < 128
  match bracketItem? flags text with
  | none => none
  | some (item, width) =>
    let rest := text.drop width
    let space := layoutWidth flags rest
    let rest := rest.drop space
    let alone : Option (CharSet × Nat) :=
      match item with
      | .literal c _ => if isMember c then some (.single c, width) else none
      | .set set => some (set, width)
      | .look _ => none
    match rest with
    | [] => none
    | '-' :: after =>
      let next? := afterDash? flags after
      if next? = some ']' ∨ next? = some '-' then alone
      else
        let gap := layoutWidth flags after
        match item, bracketItem? flags (after.drop gap) with
        | .literal first _, some (.literal last _, more) =>
          if first ≤ last ∧ isMember last then
            some (.range first last, width + space + 1 + gap + more)
          else none
        | _, _ => none
    | _ => alone

inductive BracketPart where
  | opening
  | closing
  | operation (operation : SetOperation)
  | item (set : CharSet)

def bracketPart? (flags : Flags) (text : List Char) : Option (BracketPart × Nat) :=
  match text with
  | ']' :: _ => some (.closing, 1)
  | '&' :: '&' :: _ => some (.operation .intersection, 2)
  | '-' :: '-' :: _ => some (.operation .difference, 2)
  | '~' :: '~' :: _ => some (.operation .symmetricDifference, 2)
  | '[' :: _ =>
    match namedClass? text with
    | some (set, isNegated, width) =>
      (negated? flags isNegated (folded flags set)).map fun set => (.item set, width)
    | none => some (.opening, 1)
  | _ => (bracketRange? flags text).map fun (set, width) => (.item set, width)

/-- Reads the parts of open brackets, the innermost first, up to the end of the outermost. -/
def brackets? (flags : Flags) (opened : List Bracket) (used : Nat) (text : List Char) :
    Option (Class × Nat) :=
  match opened, text with
  | [], _ => none
  | _, [] => none
  | bracket :: outer, c :: rest =>
    let space := layoutWidth flags (c :: rest)
    if 0 < space then brackets? flags opened (used + space) (rest.drop (space - 1))
    else
      match bracketPart? flags (c :: rest) with
      | none => none
      | some (part, width) =>
        let used := used + (width - 1) + 1
        let rest := rest.drop (width - 1)
        match part with
        | .item set => brackets? flags (bracket.add { set } :: outer) used rest
        | .operation operation => brackets? flags (bracket.operate flags operation :: outer) used rest
        | .opening =>
          let (inner, width) := openBracket flags rest
          brackets? flags (inner :: bracket :: outer) (used + width) (rest.drop width)
        | .closing =>
          match bracket.close? flags, outer with
          | none, _ => none
          | some whole, [] => some (whole, used)
          | some whole, enclosing :: outer => brackets? flags (enclosing.add whole :: outer) used rest
termination_by text.length
decreasing_by all_goals grind

def bracketClass? (flags : Flags) (text : List Char) : Option (Class × Nat) :=
  let (bracket, width) := openBracket flags text
  brackets? flags [bracket] width (text.drop width)

end ModuleBuild.Pattern
