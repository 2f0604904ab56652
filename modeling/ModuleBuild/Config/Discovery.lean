import ModuleBuild.Config.Check
import ModuleBuild.Config.Environment
import ModuleBuild.Config.Extract
import ModuleBuild.Toml.Reader
/-!
Finding and reading the configuration of a project. There are four layers: the defaults, the
settings file, the environment and what a command asks for; later layers are laid over earlier ones.
-/

namespace ModuleBuild.Config

/-- What a command asks for; what it leaves open does not count. -/
structure Overrides where
  outputDirectory? : Option String := none
  cacheDirectory? : Option String := none
  entries : List Entry := []

def Entry.toValue (entry : Entry) : Value :=
  .table
    [("name", .text entry.name), ("modules", .ofTexts entry.modules),
      ("preload", .boolean entry.isPreloaded)]

def Overrides.toValue (overrides : Overrides) : Value :=
  let texts :=
    [("out_dir", overrides.outputDirectory?), ("cache_dir", overrides.cacheDirectory?)]
  let entries : List (String × Value) :=
    if overrides.entries.isEmpty then []
    else [("entries", .list (overrides.entries.map Entry.toValue))]
  .table (texts.filterMap (fun (key, text?) => text?.map (key, .text ·)) ++ entries)

def fileName : List Char := "kiln.toml".toList

/-- Where to look for settings. -/
structure Discovery where
  /-- Paths that are not absolute are taken from here. -/
  workingDirectory : List Char
  root : List Char
  /-- A settings file to use in place of the one in the root. -/
  file? : Option (List Char) := none

namespace Discovery

/-- Whether a path is a file as seen from the working directory. -/
def isFile (discovery : Discovery) (files : FileTree) (path : List Char) : Bool :=
  files.isFile (Path.join discovery.workingDirectory path)

def find? (discovery : Discovery) (files : FileTree) : Option (List Char) :=
  match discovery.file? with
  | some file => some file
  | none =>
    let file := Path.join discovery.root fileName
    if discovery.isFile files file then some file else none

def readFile? (discovery : Discovery) (files : FileTree) (file : List Char) : Option Value := do
  let bytes ← (files.read (Path.join discovery.workingDirectory file)).toOption
  let text ← (Utf8.decode bytes).toOption
  Toml.read? text

/-- All settings, later layers over earlier ones; defaults are left out. -/
def layers (discovery : Discovery) (files : FileTree) (environment : List (String × String))
    (overrides : Overrides) : Except ConfigError Value :=
  let withHigher (settings? : Option Value) : Except ConfigError Value :=
    match ofEnvironment? environment, settings? with
    | none, _ => .error .cutCharacter
    | some _, none => .error .malformed
    | some higher, some settings => .ok ((settings.overlay higher).overlay overrides.toValue)
  match discovery.find? files with
  | none => withHigher (some (.table []))
  | some file =>
    if discovery.isFile files file then withHigher (discovery.readFile? files file)
    else .error (.notFound file)

/-- Where a configured root leads: from the directory of the settings file, or from the root of the
discovery if there is no such file or its path is a lone name. -/
def absoluteRoot (discovery : Discovery) (files : FileTree) (configured : List Char) : List Char :=
  let directory :=
    match (discovery.find? files).bind Path.parent? with
    | some parent => if parent.isEmpty then discovery.root else parent
    | none => discovery.root
  Path.clean (Path.join (Path.join discovery.workingDirectory directory) configured)

/-- Reads a configuration without checking it; its root becomes absolute. -/
def extract (discovery : Discovery) (files : FileTree) (environment : List (String × String))
    (overrides : Overrides) : Except ConfigError Config :=
  match discovery.layers files environment overrides with
  | .error error => .error error
  | .ok settings =>
    match settings.toConfig? with
    | some config => .ok { config with root := discovery.absoluteRoot files config.root }
    | none => .error .malformed

/-- Reads and checks a configuration. -/
def load (discovery : Discovery) (files : FileTree) (environment : List (String × String))
    (overrides : Overrides) : Except ConfigError Config :=
  match discovery.extract files environment overrides with
  | .error error => .error error
  | .ok config => config.check.map fun () => config

end Discovery

end ModuleBuild.Config
