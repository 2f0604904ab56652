import ModuleBuild.CommandLine.Entry
/-!
The arguments of a command: options with one or two dashes, with or without a value. A value stands
behind an equals sign, right behind a short name, or in the next argument. No option but that for
entries may be repeated.
-/

namespace ModuleBuild.CommandLine

inductive UsageError where
  | helpWanted
  | versionWanted
  /-- No argument says what to do. -/
  | nothingWanted
  | missingCommand
  | unknownCommand
  | unknownArgument
  /-- An option lacks its value. -/
  | missingValue
  /-- An option that takes no value has one. -/
  | unneededValue
  | unfitValue
  /-- Two options exclude each other, or one is repeated. -/
  | conflict
deriving DecidableEq

inductive CommandName where
  | build
  | dev
  | analyze
deriving DecidableEq

def CommandName.ofWord? : String → Option CommandName
  | "build" => some .build
  | "dev" => some .dev
  | "analyze" => some .analyze
  | _ => none

inductive Switch where
  | verbose
  | quiet
  | withoutColor
  | clean
  | help
  | version
deriving DecidableEq

inductive Parameter where
  | root
  | settingsFile
  | entry
  | outputDirectory
  | debounce
  | output
deriving DecidableEq

inductive OptionName where
  | switch (name : Switch)
  | parameter (name : Parameter)

/-- An option with its long name and, for most, a short one. -/
structure OptionForm where
  long : String
  short? : Option Char := none
  name : OptionName

/-- What is understood before and after the name of a command. -/
def commonOptions : List OptionForm :=
  [⟨"verbose", some 'v', .switch .verbose⟩, ⟨"quiet", some 'q', .switch .quiet⟩,
    ⟨"no-color", none, .switch .withoutColor⟩, ⟨"help", some 'h', .switch .help⟩]

def projectOptions : List OptionForm :=
  [⟨"root", none, .parameter .root⟩, ⟨"config", some 'c', .parameter .settingsFile⟩,
    ⟨"entry", some 'e', .parameter .entry⟩]

/-- The options that are understood before a command, or by one. -/
def optionForms : Option CommandName → List OptionForm
  | none => commonOptions ++ [⟨"version", some 'V', .switch .version⟩]
  | some .build =>
    commonOptions ++ projectOptions ++
      [⟨"out-dir", some 'd', .parameter .outputDirectory⟩, ⟨"clean", none, .switch .clean⟩]
  | some .dev => commonOptions ++ projectOptions ++ [⟨"debounce", none, .parameter .debounce⟩]
  | some .analyze => commonOptions ++ projectOptions ++ [⟨"output", some 'o', .parameter .output⟩]

structure Arguments where
  isVerbose : Bool := false
  isQuiet : Bool := false
  isWithoutColor : Bool := false
  isClean : Bool := false
  root? : Option String := none
  settingsFile? : Option String := none
  entries : List Config.Entry := []
  outputDirectory? : Option String := none
  debounce? : Option Nat := none
  output? : Option String := none

namespace Arguments

def turnOn (arguments : Arguments) : Switch → Except UsageError Arguments
  | .verbose =>
    if arguments.isVerbose then .error .conflict else .ok { arguments with isVerbose := true }
  | .quiet => if arguments.isQuiet then .error .conflict else .ok { arguments with isQuiet := true }
  | .withoutColor =>
    if arguments.isWithoutColor then .error .conflict
    else .ok { arguments with isWithoutColor := true }
  | .clean => if arguments.isClean then .error .conflict else .ok { arguments with isClean := true }
  | .help => .error .helpWanted
  | .version => .error .versionWanted

/-- The value of a parameter that is given for the first time. -/
def firstValue {α : Type} (given? : Option α) (value : Except UsageError α) :
    Except UsageError (Option α) :=
  if given?.isSome then .error .conflict else value.map some

def pathValue (text : String) : Except UsageError String :=
  if text = "" then .error .missingValue else .ok text

/-- A whole number of 64 bits. A plus sign may stand before it. -/
def numberValue (text : String) : Except UsageError Nat :=
  let digits := match text.toList with | '+' :: rest => rest | digits => digits
  let value := digits.foldl (fun value c => value * 10 + (c.toNat - 48)) 0
  if !digits.isEmpty && digits.all Char.isDigit && value < UInt64.size then .ok value
  else .error .unfitValue

def setValue (arguments : Arguments) (text : String) : Parameter → Except UsageError Arguments
  | .root => do return { arguments with root? := ← firstValue arguments.root? (pathValue text) }
  | .settingsFile => do
    return { arguments with settingsFile? := ← firstValue arguments.settingsFile? (pathValue text) }
  | .entry =>
    match readEntry text with
    | .error _ => .error .unfitValue
    | .ok entry => .ok { arguments with entries := arguments.entries ++ [entry] }
  | .outputDirectory => do
    return {
      arguments with
      outputDirectory? := ← firstValue arguments.outputDirectory? (pathValue text) }
  | .debounce => do
    return { arguments with debounce? := ← firstValue arguments.debounce? (numberValue text) }
  | .output => do
    return { arguments with output? := ← firstValue arguments.output? (pathValue text) }

def checkConflicts (arguments : Arguments) : Except UsageError Unit :=
  if arguments.isVerbose && arguments.isQuiet then .error .conflict else .ok ()

def isEmpty (arguments : Arguments) : Bool :=
  !arguments.isVerbose && !arguments.isQuiet && !arguments.isWithoutColor

end Arguments

structure Reading where
  arguments : Arguments := {}
  /-- A parameter whose value is still to come, or was not looked at yet. -/
  open? : Option (Parameter × Option String) := none

namespace Reading

def settle (reading : Reading) : Except UsageError Arguments :=
  match reading.open? with
  | none => .ok reading.arguments
  | some (_, none) => .error .missingValue
  | some (parameter, some text) => reading.arguments.setValue text parameter

def turnOn (reading : Reading) (switch : Switch) : Except UsageError Reading := do
  let arguments ← reading.settle
  return { arguments := ← arguments.turnOn switch }

/-- Opens a parameter; a value that is attached to its name is looked at right away. -/
def openParameter (reading : Reading) (parameter : Parameter) (attached? : Option String) :
    Except UsageError Reading := do
  let arguments ← reading.settle
  match attached? with
  | some text => return { arguments := ← arguments.setValue text parameter }
  | none => return { arguments, open? := some (parameter, none) }

def long (forms : List OptionForm) (reading : Reading) (word : List Char) :
    Except UsageError Reading :=
  let (name, attached?) :=
    match Text.splitFirst? '=' word with
    | some (name, value) => (name, some (String.ofList value))
    | none => (word, none)
  match forms.find? (·.long.toList = name) with
  | none => .error .unknownArgument
  | some form =>
    match form.name, attached? with
    | .parameter parameter, _ => reading.openParameter parameter attached?
    | .switch _, some _ => .error .unneededValue
    | .switch switch, none => reading.turnOn switch

/-- Reads what follows a single dash: switches, and at the end a parameter with its value. -/
def short (forms : List OptionForm) (reading : Reading) : List Char → Except UsageError Reading
  | [] => .ok reading
  | c :: rest =>
    match forms.find? (·.short? = some c) with
    | none => .error .unknownArgument
    | some form =>
      match form.name with
      | .switch switch => do
        let reading ← reading.turnOn switch
        reading.short forms rest
      | .parameter parameter =>
        match rest with
        | [] => reading.openParameter parameter none
        | '=' :: value => reading.openParameter parameter (some (String.ofList value))
        | value => reading.openParameter parameter (some (String.ofList value))

def option? (forms : List OptionForm) (reading : Reading) (argument : String) :
    Option (Except UsageError Reading) :=
  match argument.toList with
  | '-' :: '-' :: word => some (reading.long forms word)
  | '-' :: c :: rest => some (reading.short forms (c :: rest))
  | _ => none

end Reading

def optionsEnd : String := "--"

def readArguments (name : CommandName) (reading : Reading) :
    List String → Except UsageError Arguments
  | [] => do
    let arguments ← reading.settle
    arguments.checkConflicts
    return arguments
  | argument :: rest =>
    if argument = optionsEnd then
      if rest.isEmpty then readArguments name reading rest else .error .unknownArgument
    else
      match reading.option? (optionForms (some name)) argument with
      | some (.ok reading) => readArguments name reading rest
      | some (.error error) => .error error
      | none =>
        match reading.open? with
        | some (parameter, none) =>
          readArguments name { reading with open? := some (parameter, some argument) } rest
        | _ => .error .unknownArgument

end ModuleBuild.CommandLine
