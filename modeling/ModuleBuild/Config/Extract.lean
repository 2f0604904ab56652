import ModuleBuild.Config.Basic
import ModuleBuild.Config.Value
/-!
Giving settings a meaning. Settings that are not known are passed over, settings that are absent have
defaults, and one whose value is of another sort makes the whole unusable.
-/

namespace ModuleBuild.Config.Value

def text? : Value → Option String
  | .text value => some value
  | _ => none

def path? (value : Value) : Option (List Char) := value.text?.map String.toList

def boolean? : Value → Option Bool
  | .boolean value => some value
  | _ => none

def natural? : Value → Option Nat
  | .integer value => if 0 ≤ value ∧ value < UInt64.size then some value.toNat else none
  | _ => none

def list? {α : Type} (read : Value → Option α) : Value → Option (List α)
  | .list items => items.mapM read
  | _ => none

def texts? : Value → Option (List String) := list? text?

def optionalText? : Value → Option (Option String)
  | .empty => some none
  | value => value.text?.map some

def textMap? : Value → Option (OrderedMap String String)
  | .table entries =>
    let ordered := entries.mergeSort fun first second => !decide (second.1 < first.1)
    (ordered.mapM fun entry => (text? entry.2).map (entry.1, ·)).map OrderedMap.ofList
  | _ => none

/-- The settings of a group that has the given names; they may be listed without their names. -/
def group? (names : List String) : Value → Option (List (String × Value))
  | .table entries => some entries
  | .list items => some (names.zip items)
  | _ => none

def settingOr {α : Type} (default : α) (read : Value → Option α) (key : String)
    (group : List (String × Value)) : Option α :=
  match OrderedMap.lookup key group with
  | none => some default
  | some value => read value

def setting? {α : Type} (read : Value → Option α) (key : String)
    (group : List (String × Value)) : Option α :=
  (OrderedMap.lookup key group).bind read

def toEntry? (value : Value) : Option Entry := do
  let group ← value.group? ["name", "modules", "preload"]
  let name ← setting? text? "name" group
  let modules ← setting? texts? "modules" group
  let isPreloaded ← settingOr false boolean? "preload" group
  return { name, modules, isPreloaded }

def toWatching? (value : Value) : Option Watching := do
  let default : Watching := {}
  let group ← value.group? ["debounce_ms", "ignore"]
  let debounceMillis ← settingOr default.debounceMillis natural? "debounce_ms" group
  let ignored ← settingOr default.ignored texts? "ignore" group
  return { debounceMillis, ignored }

def toLogLevel? (value : Value) : Option (Option String) := do
  let group ← value.group? ["log_level"]
  settingOr none optionalText? "log_level" group

/-- The configuration that settings describe. -/
def toConfig? (value : Value) : Option Config := do
  let default : Config := {}
  let group ← value.group? []
  let root ← settingOr default.root path? "root" group
  let entries ← settingOr default.entries (list? toEntry?) "entries" group
  let outputDirectory ← settingOr default.outputDirectory path? "out_dir" group
  let cacheDirectory ← settingOr default.cacheDirectory path? "cache_dir" group
  let importMap ← settingOr default.importMap textMap? "import_map" group
  let compileRemote ← settingOr default.compileRemote texts? "compile_remote" group
  let external ← settingOr default.external texts? "external" group
  let watching ← settingOr default.watching toWatching? "dev" group
  let logLevel? ← settingOr none toLogLevel? "settings" group
  return {
    root, entries, outputDirectory, cacheDirectory, importMap, compileRemote, external, watching
    logLevel? }

end ModuleBuild.Config.Value
