import ModuleBuild.Pattern.Reader
import ModuleBuild.Pattern.Search
import ModuleBuild.Specifier.Basic
import ModuleBuild.Text.Quoted
/-!
From import strings to specifiers. An import is first joined to its importer, if its form allows
that; the result, or the bare import, is offered to the rules in order, and the first rule whose
pattern is found in it decides. Where no rule applies, it has to be a specifier as it stands.
-/

namespace ModuleBuild

/-- What a rule makes of a name: another name in its place, and whether the module is left alone. -/
structure RuleOutcome where
  renamed? : Option String := none
  isExternal : Bool := false

structure Rule where
  pattern : Pattern
  outcome : String → RuleOutcome

/-- A text that is no pattern. -/
structure PatternError where
  source : String
deriving DecidableEq

inductive ResolveError where
  | unresolved (written : String) (importer? : Option Specifier)
  /-- A rule led to a text that is no specifier. -/
  | invalidTarget (written target : String)
deriving DecidableEq

def ResolveError.message : ResolveError → String
  | unresolved written none => s!"cannot resolve '{written}'"
  | unresolved written (some importer) => s!"cannot resolve '{written}' imported from {importer}"
  | invalidTarget written target =>
    s!"resolve listener rewrote '{written}' to invalid target '{target}'"

def readPattern (source : String) : Except PatternError Pattern :=
  match Pattern.read? source with
  | some pattern => .ok pattern
  | none => .error ⟨source⟩

namespace Rule

/-- Puts another text in place of a name, or, if that name ends in a slash, of all names below it. -/
def rename (name target : String) (isExternal : Bool) : Rule :=
  { pattern :=
      if name.toList.getLast? = some '/' then Pattern.startingWith name else Pattern.exactly name
    outcome := fun candidate =>
      let rest := (Text.strip? name.toList candidate.toList).getD []
      { renamed? := some (String.ofList (target.toList ++ rest)), isExternal } }

/-- The rule that renames, unless the name is so long that its pattern takes too much room. -/
def ofEntry (name target : String) (isExternal : Bool) : Except PatternError Rule :=
  let rule := rename name target isExternal
  if rule.pattern.expr.isWithinLimit then .ok rule else .error ⟨rule.pattern.source⟩

/-- Leaves alone every module whose name has a pattern in it. -/
def external (source : String) : Except PatternError Rule :=
  (readPattern source).map fun pattern => { pattern, outcome := fun _ => { isExternal := true } }

/-- Decides the same for every name that has a pattern in it. -/
def constant (source : String) (outcome : RuleOutcome) : Except PatternError Rule :=
  (readPattern source).map fun pattern => { pattern, outcome := fun _ => outcome }

end Rule

/-- A resolved import. -/
structure Resolved where
  specifier : Specifier
  isExternal : Bool
deriving DecidableEq

structure Resolver where
  rules : List Rule := []

namespace Resolver

/-- The resolver of a configuration: external patterns first, then the aliases. An alias to a remote
module leaves it alone, unless the target begins with one of the addresses to compile. -/
def ofImportMap (aliases : List (String × String)) (externals compileRemote : List String) :
    Except PatternError Resolver := do
  let externals ← externals.mapM Rule.external
  let aliases ← aliases.mapM fun (name, target) =>
    let isCompiled := compileRemote.any fun start => Text.startsWith start.toList target.toList
    Rule.ofEntry name target (Specifier.isRemoteText target.toList && !isCompiled)
  return { rules := externals ++ aliases }

/-- What an import is known as before the rules: joined to its importer, or as it is written. -/
def candidate (importer? : Option Specifier) (written : String) : String :=
  match importer?.bind (·.join? written) with
  | some joined => joined.text
  | none => written

def resolve (resolver : Resolver) (importer? : Option Specifier) (written : String) :
    Except ResolveError Resolved :=
  let candidate := candidate importer? written
  match resolver.rules.find? (·.pattern.isFoundIn candidate) with
  | some rule =>
    let outcome := rule.outcome candidate
    let target := outcome.renamed?.getD candidate
    match Specifier.parse target with
    | .ok specifier => .ok { specifier, isExternal := outcome.isExternal }
    | .error _ => .error (.invalidTarget written target)
  | none =>
    match Specifier.parse candidate with
    | .ok specifier => .ok { specifier, isExternal := false }
    | .error _ => .error (.unresolved written importer?)

def description (resolver : Resolver) : String :=
  let patterns := resolver.rules.map fun rule => Text.quoted rule.pattern.source
  "Resolver \x7b listeners: [" ++ ", ".intercalate patterns ++ "] \x7d"

end Resolver

end ModuleBuild
