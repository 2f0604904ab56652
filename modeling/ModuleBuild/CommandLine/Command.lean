import ModuleBuild.CommandLine.Arguments
/-!
Commands: what the arguments of the program ask for.
-/

namespace ModuleBuild.CommandLine

inductive Task where
  | build (outputDirectory? : Option String) (isClean : Bool)
  | dev (debounce? : Option Nat)
  | analyze (output? : Option String)

structure Command where
  isVerbose : Bool
  isQuiet : Bool
  isWithoutColor : Bool
  /-- Where to look for the settings file. -/
  root : String
  settingsFile? : Option String
  /-- Entries to use in place of those in the settings. -/
  entries : List Config.Entry
  task : Task

def Arguments.toTask (arguments : Arguments) : CommandName → Task
  | .build => .build arguments.outputDirectory? arguments.isClean
  | .dev => .dev arguments.debounce?
  | .analyze => .analyze arguments.output?

/-- A command from what was given before and after its name. -/
def Command.ofArguments (outer : Arguments) (name : CommandName) (inner : Arguments) : Command :=
  { isVerbose := outer.isVerbose || inner.isVerbose
    isQuiet := outer.isQuiet || inner.isQuiet
    isWithoutColor := outer.isWithoutColor || inner.isWithoutColor
    root := inner.root?.getD "."
    settingsFile? := inner.settingsFile?
    entries := inner.entries
    task := inner.toTask name }

def helpWord : String := "help"

/-- Whether help can be given on some words: on nothing, on help or on one command. -/
def isHelpTopic : List String → Bool
  | [] => true
  | [word] => word = helpWord || (CommandName.ofWord? word).isSome
  | _ => false

/-- What is wrong when the arguments end without a command. -/
def withoutCommand (outer : Reading) : UsageError :=
  if outer.arguments.isEmpty then .nothingWanted else .missingCommand

/-- Reads arguments up to the name of a command, and from there on as those of the command. -/
def readFrom (outer : Reading) : List String → Except UsageError Command
  | [] => .error (withoutCommand outer)
  | argument :: rest =>
    if argument = helpWord then .error (if isHelpTopic rest then .helpWanted else .unknownCommand)
    else
      match CommandName.ofWord? argument with
      | some name => do
        let inner ← readArguments name {} rest
        outer.arguments.checkConflicts
        return .ofArguments outer.arguments name inner
      | none =>
        if argument = optionsEnd then
          match rest with
          | [] => .error (withoutCommand outer)
          | word :: _ =>
            if word = helpWord || (CommandName.ofWord? word).isSome then .error .unknownArgument
            else .error .unknownCommand
        else
          match outer.option? (optionForms none) argument with
          | some (.ok outer) => readFrom outer rest
          | some (.error error) => .error error
          | none => .error .unknownCommand

def readCommand (arguments : List String) : Except UsageError Command := readFrom {} arguments

end ModuleBuild.CommandLine
