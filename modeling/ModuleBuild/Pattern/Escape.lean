import ModuleBuild.Pattern.Basic
import ModuleBuild.Text.Hex
/-!
What patterns write after a backslash: characters by name or by number, classes, and assertions. Flags
decide how far classes reach, and whether layout between the parts of a pattern counts.
-/

namespace ModuleBuild.Pattern

open Text

structure Flags where
  /-- Letters match in either case. -/
  caseless : Bool := false
  /-- `^` and `$` match at line ends. -/
  multiline : Bool := false
  /-- `.` matches line feeds. -/
  dotAll : Bool := false
  /-- Classes know characters beyond ASCII. -/
  unicode : Bool := true
  /-- Lines may end in a carriage return. -/
  returns : Bool := false
  /-- Repetitions take as few as they can, unless marked. -/
  reluctant : Bool := false
  /-- Blanks and comments between parts do not count. -/
  verbose : Bool := false

/-- The number of blanks and of characters in comments at the start of a text. -/
def layout (inComment : Bool) : List Char → Nat
  | [] => 0
  | c :: rest =>
    if inComment then layout (c != '\n') rest + 1
    else if isBlank c then layout false rest + 1
    else if c == '#' then layout true rest + 1
    else 0

def layoutWidth (flags : Flags) (text : List Char) : Nat := if flags.verbose then layout false text else 0

inductive Escape where
  /-- A character; it may be spelled as a byte, by two digits. -/
  | literal (c : Char) (isByte : Bool)
  | set (set : CharSet)
  | look (assertion : Assertion)

/-- A number of hexadecimal digits with layout before each, and their width. -/
def hexDigits? (flags : Flags) : Nat → List Char → Option (List Char × Nat)
  | 0, _ => some ([], 0)
  | n + 1, text =>
    let space := layoutWidth flags text
    match text.drop space with
    | [] => none
    | c :: rest =>
      if isHexDigit c then
        (hexDigits? flags n rest).map fun (digits, width) => (c :: digits, space + 1 + width)
      else none

/-- Hexadecimal digits up to a closing brace, with layout before each, and their width with the
brace's. -/
def hexToBrace? (flags : Flags) (text : List Char) : Option (List Char × Nat) :=
  let space := layoutWidth flags text
  match shorter : text.drop space with
  | [] => none
  | c :: rest =>
    if c = '\x7d' then some ([], space + 1)
    else if isHexDigit c then
      (hexToBrace? flags rest).map fun (digits, width) => (c :: digits, space + 1 + width)
    else none
termination_by text.length
decreasing_by
  have := congrArg List.length shorter
  simp at this
  omega

/-- The character of a hexadecimal escape, with a fixed number of digits or digits in braces. -/
def hexEscape? (flags : Flags) (count : Nat) (text : List Char) : Option (Escape × Nat) :=
  let space := layoutWidth flags text
  match text.drop space with
  | '\x7b' :: rest =>
    match hexToBrace? flags rest with
    | some (c :: digits, width) =>
      (charOfCode? (hexValue (c :: digits))).map fun c => (.literal c false, space + 1 + width)
    | _ => none
  | _ =>
    match hexDigits? flags count text with
    | some (digits, width) =>
      (charOfCode? (hexValue digits)).map fun c => (.literal c (count = 2), width)
    | none => none

def isBoundaryNameChar (c : Char) : Bool := c.isAlpha || c == '-'

/-- The characters of a name with layout after each, and their width. -/
def boundaryName (flags : Flags) (text : List Char) : List Char × Nat :=
  match text with
  | [] => ([], 0)
  | c :: rest =>
    if isBoundaryNameChar c then
      let space := layoutWidth flags rest
      let (name, width) := boundaryName flags (rest.drop space)
      (c :: name, 1 + space + width)
    else ([], 0)
termination_by text.length
decreasing_by grind

/-- A word boundary may be told apart by a name in braces after it. Braces that hold something else
are no part of it. -/
def boundary? (flags : Flags) (text : List Char) : Option (Assertion × Nat) :=
  match text with
  | '\x7b' :: rest =>
    let space := layoutWidth flags rest
    match rest.drop space with
    | [] => none
    | c :: more =>
      if !isBoundaryNameChar c then some (.wordBoundary, 0)
      else
        let (name, width) := boundaryName flags (c :: more)
        if ((c :: more).drop width).head? ≠ some '\x7d' then none
        else
          let found (assertion : Assertion) : Option (Assertion × Nat) :=
            some (assertion, 1 + space + width + 1)
          match String.ofList name with
          | "start" => found .wordStart
          | "end" => found .wordEnd
          | "start-half" => found .noWordBefore
          | "end-half" => found .noWordAfter
          | _ => none
  | _ => some (.wordBoundary, 0)

def letterClass? (flags : Flags) (letter : Char) : Option CharSet :=
  match letter with
  | 'd' => some (if flags.unicode then .digit else .digitAscii)
  | 's' => some (if flags.unicode then .blank else .blankAscii)
  | 'w' => some (if flags.unicode then .word else .wordAscii)
  | _ => none

def escape? (flags : Flags) (text : List Char) : Option (Escape × Nat) :=
  match text with
  | [] => none
  | c :: rest =>
    let hex (count : Nat) : Option (Escape × Nat) :=
      (hexEscape? flags count rest).map fun (item, width) => (item, width + 1)
    match letterClass? flags c, letterClass? flags c.toLower with
    | some set, _ => some (.set set, 1)
    | none, some set => if flags.unicode then some (.set set.complement, 1) else none
    | none, none =>
      match c with
      | 'x' => hex 2
      | 'u' => hex 4
      | 'U' => hex 8
      | 'a' => some (.literal '\x07' false, 1)
      | 'f' => some (.literal '\x0c' false, 1)
      | 't' => some (.literal '\t' false, 1)
      | 'n' => some (.literal '\n' false, 1)
      | 'r' => some (.literal '\r' false, 1)
      | 'v' => some (.literal '\x0b' false, 1)
      | 'A' => some (.look .textStart, 1)
      | 'z' => some (.look .textEnd, 1)
      | 'B' => some (.look .notWordBoundary, 1)
      | '<' => some (.look .wordStart, 1)
      | '>' => some (.look .wordEnd, 1)
      | 'b' => (boundary? flags rest).map fun (assertion, width) => (.look assertion, width + 1)
      | _ => if c.toNat < 128 && !c.isAlphanum then some (.literal c false, 1) else none

/-- Closes a set under change of case, if letters match in either case. -/
def folded (flags : Flags) (set : CharSet) : CharSet :=
  if !flags.caseless then set
  else if flags.unicode then set.caseless
  else set.caselessAscii

/-- A set, or what is not in it. Where classes do not know characters beyond ASCII, what is not in a
set is no set of characters. -/
def negated? (flags : Flags) (isNegated : Bool) (set : CharSet) : Option CharSet :=
  if !isNegated then some set
  else if flags.unicode then some set.complement
  else none

end ModuleBuild.Pattern
