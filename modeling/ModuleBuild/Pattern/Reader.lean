import ModuleBuild.Pattern.Bracket
import ModuleBuild.Pattern.Extent
import ModuleBuild.Text.Alphabetic
/-!
Reading patterns from text: literals, escapes, classes in brackets with set operations, groups,
alternatives, repetitions, assertions, and flags for case, lines and layout. There are no references
back to groups and no look-around, and properties of characters cannot be named. A text that is no
pattern gives nothing, and so does a pattern that is nested too deep or takes too much room.

Every step of a reader takes at least one character, so it ends on every text.
-/

namespace ModuleBuild.Pattern

open Text

/-! ## Repetitions and groups -/

/-- Decimal digits with layout after each, and their width. -/
def decimal (flags : Flags) (text : List Char) : List Char × Nat :=
  match text with
  | [] => ([], 0)
  | c :: rest =>
    if c.isDigit then
      let space := layoutWidth flags rest
      let (digits, width) := decimal flags (rest.drop space)
      (c :: digits, 1 + space + width)
    else ([], 0)
termination_by text.length
decreasing_by grind

/-- The number of characters to pass over around the numbers of a repetition, where blanks never
count. -/
def gapWidth (flags : Flags) (text : List Char) : Nat :=
  if flags.verbose then layoutWidth flags text else (text.takeWhile isBlank).length

/-- Reads a number below 2^32 with a gap before and after it. -/
def count? (flags : Flags) (text : List Char) : Option (Nat × Nat) :=
  let before := gapWidth flags text
  let (digits, width) := decimal flags (text.drop before)
  let after := gapWidth flags (text.drop (before + width))
  let value := digits.foldl (fun value c => value * 10 + (c.toNat - 48)) 0
  if digits.isEmpty || UInt32.size ≤ value then none else some (value, before + width + after)

/-- Reads the bounds of a repetition, from after the opening brace on. -/
def bounds? (flags : Flags) (text : List Char) : Option ((Nat × Option Nat) × Nat) :=
  match count? flags text with
  | none => none
  | some (least, width) =>
    match text.drop width with
    | '\x7d' :: _ => some ((least, some least), width + 1)
    | ',' :: rest =>
      let space := layoutWidth flags rest
      let rest := rest.drop space
      if rest.head? = some '\x7d' then some ((least, none), width + 1 + space + 1)
      else
        match count? flags rest with
        | none => none
        | some (most, more) =>
          if (rest.drop more).head? = some '\x7d' ∧ least ≤ most then
            some ((least, some most), width + 1 + space + more + 1)
          else none
    | _ => none

def flags? (flags : Flags) (isOff : Bool) (seen : List Char) (used : Nat) :
    List Char → Option (Flags × Nat)
  | [] => none
  | c :: rest =>
    if c = ':' ∨ c = ')' then
      if seen.head? = some '-' then none else some (flags, used)
    else if seen.contains c then none
    else
      let next (flags : Flags) : Option (Flags × Nat) :=
        flags? flags isOff (c :: seen) (used + 1) rest
      match c with
      | '-' => flags? flags true (c :: seen) (used + 1) rest
      | 'i' => next { flags with caseless := !isOff }
      | 'm' => next { flags with multiline := !isOff }
      | 's' => next { flags with dotAll := !isOff }
      | 'u' => next { flags with unicode := !isOff }
      | 'R' => next { flags with returns := !isOff }
      | 'x' => next { flags with verbose := !isOff }
      | 'U' => next { flags with reluctant := !isOff }
      | _ => none

def isGroupName : List Char → Bool
  | [] => false
  | c :: rest =>
    (c == '_' || isAlphabetic c) && rest.all fun c =>
      c == '_' || c == '.' || c == '[' || c == ']' || isAlphabetic c || isNumeric c

/-- What opens a group, or changes flags inside the group that is open. -/
inductive Opening where
  | group (flags : Flags)
  | numbered (name? : Option (List Char))
  | settings (flags : Flags)

def opening? (flags : Flags) (text : List Char) : Option (Opening × Nat) :=
  let named (mark : Nat) : Option (Opening × Nat) :=
    let rest := text.drop mark
    let name := rest.takeWhile (· ≠ '>')
    if name.length < rest.length && isGroupName name then
      some (.numbered (some name), mark + name.length + 1)
    else none
  if startsWith "?=".toList text || startsWith "?!".toList text ||
      startsWith "?<=".toList text || startsWith "?<!".toList text then none
  else if startsWith "?P<".toList text then named 3
  else if startsWith "?<".toList text then named 2
  else
    match text with
    | '?' :: rest =>
      match flags? flags false [] 0 rest with
      | none => none
      | some (changed, width) =>
        if (rest.drop width).head? = some ')' then
          if width = 0 then none else some (.settings changed, width + 2)
        else some (.group changed, width + 2)
    | _ => some (.numbered none, 0)

/-! ## The whole pattern -/

/-- An item of a pattern and how deep it is nested: groups, repetitions, and sequences and
alternatives of two parts or more are one level each. A change of flags cannot be repeated. -/
structure Item where
  expr : Expr
  depth : Nat := 0
  isSettings : Bool := false

def together (combine : List Expr → Expr) (items : List Item) : Item :=
  match items with
  | [item] => { item with isSettings := false }
  | items =>
    { expr := combine (items.map (·.expr))
      depth := if items.isEmpty then 0 else (items.map (·.depth)).foldl max 0 + 1 }

/-- A group that is open: the alternatives before, the items of the current one, both with the latest
first, its number if it has one, and the flags that hold after it. -/
structure Level where
  alternatives : List Item := []
  items : List Item := []
  number? : Option Nat := none
  outerFlags : Flags := {}

namespace Level

def split (level : Level) : Level :=
  { level with
    alternatives := together .concat level.items.reverse :: level.alternatives
    items := [] }

def content (level : Level) : Item := together .alternation level.split.alternatives.reverse

def push (level : Level) (item : Item) : Level := { level with items := item :: level.items }

def item (level : Level) : Item :=
  let content := level.content
  { expr :=
      match level.number? with
      | some index => .group index content.expr
      | none => content.expr
    depth := content.depth + 1 }

def repeatLast? (level : Level) (least : Nat) (most? : Option Nat) (isGreedy : Bool) : Option Level :=
  match level.items with
  | item :: items =>
    if item.isSettings then none
    else
      some { level with
        items :=
          { expr := .repetition item.expr least most? isGreedy, depth := item.depth + 1 } :: items }
  | [] => none

end Level

structure State where
  level : Level := {}
  outer : List Level := []
  flags : Flags := {}
  groups : Nat := 0
  names : List (List Char) := []

namespace State

def push (state : State) (expr : Expr) (depth : Nat) : State :=
  { state with level := state.level.push { expr, depth } }

def opens? (state : State) (opening : Opening) : Option State :=
  let opened (number? : Option Nat) (flags : Flags) : State :=
    { state with
      level := { number?, outerFlags := state.flags }
      outer := state.level :: state.outer
      flags }
  let numbered (names : List (List Char)) : State :=
    { opened (some (state.groups + 1)) state.flags with groups := state.groups + 1, names }
  match opening with
  | .group flags => some (opened none flags)
  | .numbered none => some (numbered state.names)
  | .numbered (some name) =>
    if state.names.contains name then none else some (numbered (name :: state.names))
  | .settings flags =>
    some { state with flags, level := state.level.push { expr := .empty, isSettings := true } }

def closes? (state : State) : Option State :=
  match state.outer with
  | [] => none
  | level :: outer =>
    some { state with
      level := level.push state.level.item
      outer
      flags := state.level.outerFlags }

end State

/-- A character. Where classes do not know characters beyond ASCII, there is none beyond it that is
spelled as a byte or that matches in either case. -/
def literalExpr? (flags : Flags) (c : Char) (isByte : Bool) : Option Expr :=
  if !flags.unicode && 128 ≤ c.toNat && (isByte || flags.caseless) then none
  else some (.ofSet (folded flags (.single c)))

def dotExpr? (flags : Flags) : Option Expr :=
  if !flags.unicode then none
  else if flags.dotAll then some (.set .any)
  else if flags.returns then some (.set (CharSet.ofList ['\n', '\r']).complement)
  else some (.set (CharSet.single '\n').complement)

def caretExpr (flags : Flags) : Expr :=
  .look (if !flags.multiline then .textStart
    else if flags.returns then .lineStartReturn else .lineStart) false

def dollarExpr (flags : Flags) : Expr :=
  .look (if !flags.multiline then .textEnd
    else if flags.returns then .lineEndReturn else .lineEnd) false

/-- The expression of an assertion. Which characters form words matters to some of them only. -/
def lookExpr (flags : Flags) (assertion : Assertion) : Expr :=
  .look assertion (!flags.unicode && assertion ≠ .textStart && assertion ≠ .textEnd)

/-- Takes in the part that begins with a character; also gives the number of characters after that
one that belong to it. -/
def State.take? (state : State) (c : Char) (rest : List Char) : Option (State × Nat) :=
  let flags := state.flags
  let repeated (least : Nat) (most? : Option Nat) (width space : Nat) : Option (State × Nat) :=
    let isMarked := (rest.drop (width + space)).head? = some '?'
    (state.level.repeatLast? least most? (isMarked = flags.reluctant)).map fun level =>
      ({ state with level }, if isMarked then width + space + 1 else width)
  match c with
  | '(' =>
    let space := layoutWidth flags rest
    match opening? flags (rest.drop space) with
    | none => none
    | some (opening, width) => (state.opens? opening).map fun state => (state, space + width)
  | ')' => state.closes?.map (·, 0)
  | '|' => some ({ state with level := state.level.split }, 0)
  | '[' =>
    (bracketClass? flags rest).map fun (whole, width) =>
      (state.push (.ofSet whole.set) whole.depth, width)
  | '?' => repeated 0 (some 1) 0 0
  | '*' => repeated 0 none 0 0
  | '+' => repeated 1 none 0 0
  | '\x7b' =>
    match bounds? flags rest with
    | none => none
    | some ((least, most?), width) =>
      repeated least most? width (layoutWidth flags (rest.drop width))
  | '.' => (dotExpr? flags).map fun expr => (state.push expr 0, 0)
  | '^' => some (state.push (caretExpr flags) 0, 0)
  | '$' => some (state.push (dollarExpr flags) 0, 0)
  | '\\' =>
    match escape? flags rest with
    | none => none
    | some (.literal c isByte, width) =>
      (literalExpr? flags c isByte).map fun expr => (state.push expr 0, width)
    | some (.set set, width) => some (state.push (.ofSet set) 0, width)
    | some (.look assertion, width) => some (state.push (lookExpr flags assertion) 0, width)
  | _ => (literalExpr? flags c false).map fun expr => (state.push expr 0, 0)

def nestingLimit : Nat := 250

def itemFrom? (state : State) (text : List Char) : Option Item :=
  match text with
  | [] => if state.outer.isEmpty then some state.level.content else none
  | c :: rest =>
    let space := layoutWidth state.flags (c :: rest)
    if 0 < space then itemFrom? state (rest.drop (space - 1))
    else
      match state.take? c rest with
      | none => none
      | some (state, width) => itemFrom? state (rest.drop width)
termination_by text.length
decreasing_by all_goals grind

/-- Reads a pattern. -/
def read? (source : String) : Option Pattern :=
  match itemFrom? {} source.toList with
  | none => none
  | some { expr, depth, .. } =>
    if depth ≤ nestingLimit && expr.isWithinLimit then some { source, expr } else none

end ModuleBuild.Pattern
