import ModuleBuild.Pattern.CharSet
/-!
Patterns over texts. Expressions are kept in a reduced form: adjoining literals are one literal,
sequences and alternatives are never nested in their own kind, alternatives of single characters are
one set, and what all alternatives begin with stands in front of them.
-/

namespace ModuleBuild

namespace Pattern

/-- A condition on a place in a text. -/
inductive Assertion where
  | textStart
  | textEnd
  | lineStart
  | lineEnd
  /-- Lines that may also end in a carriage return, alone or before a line feed. -/
  | lineStartReturn
  | lineEndReturn
  | wordBoundary
  | notWordBoundary
  | wordStart
  | wordEnd
  | noWordBefore
  | noWordAfter
deriving DecidableEq

inductive Expr where
  | empty
  /-- One character or more in a row. -/
  | literal (text : List Char)
  | set (set : CharSet)
  /-- A condition on words in all of Unicode, or in ASCII alone. -/
  | look (assertion : Assertion) (ascii : Bool)
  /-- At least `least` and, if there is a bound, at most `most?` matches in a row. Whether as many are
  taken as can be or as few makes no difference to what is found. -/
  | repeated (body : Expr) (least : Nat) (most? : Option Nat) (isGreedy : Bool)
  /-- A group with its number. -/
  | group (index : Nat) (body : Expr)
  /-- A part that is no sequence, and what follows it. -/
  | seq (first rest : Expr)
  /-- An alternative that has none itself, and the others. -/
  | alt (first rest : Expr)
deriving DecidableEq

namespace Expr

/-- The expression of a set, which is a literal if the set has one member. -/
def ofSet (chars : CharSet) : Expr :=
  match chars.sole? with
  | some c => literal [c]
  | none => set chars

def ofText (text : List Char) : Expr := if text.isEmpty then empty else literal text

/-! ## Sequences -/

def parts : Expr → List Expr
  | empty => []
  | seq first rest => first :: rest.parts
  | expr => [expr]

def ofParts : List Expr → Expr
  | [] => empty
  | [expr] => expr
  | expr :: rest => seq expr (ofParts rest)

def glue : Expr → List Expr → List Expr
  | literal text, literal more :: rest => literal (text ++ more) :: rest
  | part, rest => part :: rest

def concat (exprs : List Expr) : Expr := ofParts ((exprs.flatMap parts).foldr glue [])

/-! ## Alternatives -/

def alternatives : Expr → List Expr
  | alt first rest => first :: rest.alternatives
  | expr => [expr]

def ofAlternatives : List Expr → Expr
  | [] => set .none
  | [expr] => expr
  | expr :: rest => alt expr (ofAlternatives rest)

def character? : Expr → Option CharSet
  | literal [c] => some (.single c)
  | _ => none

def set? : Expr → Option CharSet
  | set chars => some chars
  | _ => none

/-- One of several expressions, as one set if all of them are characters or all are sets. -/
def joined (exprs : List Expr) : Expr :=
  let union (sets : List CharSet) : Expr := ofSet (sets.foldl .union .none)
  match exprs.flatMap alternatives with
  | [expr] => expr
  | exprs =>
    match exprs.mapM character?, exprs.mapM set? with
    | some sets, _ => union sets
    | none, some sets => union sets
    | none, none => ofAlternatives exprs

def commonStart : List Expr → List Expr → List Expr
  | a :: first, b :: second => if a = b then a :: commonStart first second else []
  | _, _ => []

/-- What sequences begin with in common; only a sequence of two parts or more begins with anything. -/
def commonParts (exprs : List Expr) : List Expr :=
  let sequences := exprs.map fun expr =>
    match expr with
    | seq .. => expr.parts
    | _ => []
  match sequences with
  | first :: second :: rest => (second :: rest).foldl commonStart first
  | _ => []

def alternation (exprs : List Expr) : Expr :=
  let whole := joined exprs
  match whole with
  | alt .. =>
    let start := commonParts whole.alternatives
    if start.isEmpty then whole
    else
      concat (start ++
        [joined (whole.alternatives.map fun expr => concat (expr.parts.drop start.length))])
  | _ => whole

/-! ## Repetitions -/

/-- Whether all matches are empty, as can be told from the form. -/
def isEmptyOnly : Expr → Bool
  | empty | look .. => true
  | literal _ | set _ => false
  | repeated body _ most? _ => body.isEmptyOnly && most?.isSome
  | group _ body => body.isEmptyOnly
  | seq first rest | alt first rest => first.isEmptyOnly && rest.isEmptyOnly

/-- A repetition; more than one empty match in a row is as good as one. -/
def repetition (body : Expr) (least : Nat) (most? : Option Nat) (isGreedy : Bool) : Expr :=
  let (least, most?) :=
    if body.isEmptyOnly then (min least 1, some (min (most?.getD 1) 1)) else (least, most?)
  if most? = some 0 then empty
  else if least = 1 ∧ most? = some 1 then body
  else repeated body least most? isGreedy

end Expr

def isMeta (c : Char) : Bool := "\\.+*?()|[]\x7b\x7d^$#&-~".contains c

def escape (text : List Char) : List Char :=
  text.flatMap fun c => if isMeta c then ['\\', c] else [c]

end Pattern

/-- An expression with the text it was written as. -/
structure Pattern where
  source : String
  expr : Pattern.Expr

namespace Pattern

/-- The pattern of all texts that begin with a given one. -/
def startingWith (text : String) : Pattern :=
  { source := String.ofList ('^' :: escape text.toList)
    expr := .concat [.look .textStart false, .ofText text.toList] }

def exactly (text : String) : Pattern :=
  { source := String.ofList ('^' :: escape text.toList ++ ['$'])
    expr := .concat [.look .textStart false, .ofText text.toList, .look .textEnd false] }

end Pattern

end ModuleBuild
