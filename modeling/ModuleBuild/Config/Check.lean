import ModuleBuild.Config.Basic
import ModuleBuild.Files.Tree
import ModuleBuild.Text.Blank
/-!
What a configuration has to satisfy before a build: names that can be names of files, and settings
that mean something. The first fault is reported.
-/

namespace ModuleBuild.Config

/-- What is wrong with a setting. -/
inductive SettingFault where
  | entryName (name : String)
  | reservedName
  | repeatedName (name : String)
  | withoutModules (name : String)
  | emptyPattern
  | noPattern (error : PatternError)
  | emptyAlias
  | logLevel (level : String)
  | emptyOutputDirectory
  | emptyCacheDirectory
deriving DecidableEq

/-- The levels of logging, from the most to the least talkative. -/
def logLevels : List String := ["trace", "debug", "info", "warn", "error"]

def reservedName : String := "shared"

namespace SettingFault

def field : SettingFault → String
  | entryName _ | reservedName | repeatedName _ | withoutModules _ => "entries"
  | emptyPattern | noPattern _ => "external"
  | emptyAlias => "import_map"
  | logLevel _ => "settings.log_level"
  | emptyOutputDirectory => "out_dir"
  | emptyCacheDirectory => "cache_dir"

def message : SettingFault → String
  | entryName name => s!"entry name '{name}' may only contain letters, digits, '-' and '_'"
  | reservedName => s!"entry name '{Config.reservedName}' is reserved for the shared chunk"
  | repeatedName name => s!"entry name '{name}' is used more than once"
  | withoutModules name => s!"entry '{name}' has no modules"
  | emptyPattern => "patterns cannot be empty"
  | noPattern error => s!"'{error.source}' is not a pattern"
  | emptyAlias => "aliases and targets cannot be empty"
  | logLevel level => s!"'{level}' is not one of " ++ ", ".intercalate logLevels
  | emptyOutputDirectory | emptyCacheDirectory => "cannot be empty"

end SettingFault

inductive ConfigError where
  /-- The settings file that was asked for is no file. -/
  | notFound (path : List Char)
  /-- The settings cannot be read, or one of them has a value that does not fit. -/
  | malformed
  /-- A text in the environment would be cut inside a character. -/
  | cutCharacter
  | invalid (fault : SettingFault)
  | withoutEntries
  /-- A module of an entry is no file. -/
  | entryNotFound (path : List Char)
deriving DecidableEq

def ConfigError.message : ConfigError → String
  | notFound path => s!"config file not found: {String.ofList path}"
  | malformed | cutCharacter => "failed to load configuration"
  | invalid fault => s!"invalid config value for \x60{fault.field}\x60: {fault.message}"
  | withoutEntries => "no entries specified"
  | entryNotFound path => s!"entry module not found: {String.ofList path}"

def isBlankText (text : String) : Bool := (Text.trimmed text.toList).isEmpty

def isNameChar (c : Char) : Bool := c.isAlphanum || c == '-' || c == '_'

def isEntryName (name : String) : Bool := name ≠ "" && name.toList.all isNameChar

/-- Checks entries in order; some names are taken already. -/
def checkEntries (taken : List String) : List Entry → Except SettingFault Unit
  | [] => .ok ()
  | entry :: rest =>
    if !isEntryName entry.name then .error (.entryName entry.name)
    else if entry.name = reservedName then .error .reservedName
    else if entry.name ∈ taken then .error (.repeatedName entry.name)
    else if entry.modules.all isBlankText then .error (.withoutModules entry.name)
    else checkEntries (entry.name :: taken) rest

def checkPatterns : List String → Except SettingFault Unit
  | [] => .ok ()
  | source :: rest =>
    if isBlankText source then .error .emptyPattern
    else
      match readPattern source with
      | .error error => .error (.noPattern error)
      | .ok _ => checkPatterns rest

def isLogLevel (level : String) : Bool := level.map Char.toLower ∈ logLevels

def checkSettings (config : Config) : Except SettingFault Unit := do
  checkPatterns config.external
  if config.importMap.entries.any fun (name, target) => isBlankText name || isBlankText target then
    throw .emptyAlias
  if let some level := config.logLevel? then
    unless isLogLevel level do throw (.logLevel level)
  if config.outputDirectory.isEmpty then throw .emptyOutputDirectory
  if config.cacheDirectory.isEmpty then throw .emptyCacheDirectory

/-- Checks a configuration without a look at files. -/
def check (config : Config) : Except ConfigError Unit :=
  if config.entries.isEmpty then .error .withoutEntries
  else
    (do checkEntries [] config.entries; config.checkSettings : Except SettingFault Unit).mapError
      .invalid

/-- The specifiers of all modules of entries that are paths. -/
def entryPaths (config : Config) : List (List Char) :=
  ((config.entries.flatMap (·.modules)).map fun written =>
    (config.entrySpecifier written).toList).filter Path.isAbsolute

/-- Checks that the modules of entries that are paths are files. -/
def checkFiles (config : Config) (files : FileTree) : Except ConfigError Unit :=
  match config.entryPaths.find? (!files.isFile ·) with
  | some path => .error (.entryNotFound path)
  | none => .ok ()

def checkIn (config : Config) (files : FileTree) : Except ConfigError Unit := do
  config.check
  config.checkFiles files

end ModuleBuild.Config
