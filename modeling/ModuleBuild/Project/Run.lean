import ModuleBuild.CommandLine.Command
import ModuleBuild.Files.ChangeFilter
import ModuleBuild.Project.Basic
/-!
Carrying out commands on the files of a project.
-/

namespace ModuleBuild.Project

open CommandLine

structure Surroundings where
  workingDirectory : List Char
  /-- The variables of the environment. -/
  environment : List (String × String) := []

/-- What a command gives. -/
inductive Answer where
  | built (output : Bundle.BundleOutput)
  | analyzed (report : Json)
  /-- Everything is compiled, and changes of files are to be followed from here on. -/
  | following (project : Project) (report : PassReport)

def discovery (surroundings : Surroundings) (command : Command) : Config.Discovery :=
  { workingDirectory := surroundings.workingDirectory
    root := command.root.toList
    file? := command.settingsFile?.map String.toList }

def loadConfig (surroundings : Surroundings) (command : Command) (files : FileTree) :
    Except Config.ConfigError Config := do
  let overrides : Config.Overrides := { entries := command.entries }
  let config ← (discovery surroundings command).load files surroundings.environment overrides
  config.checkIn files
  return config

/-- Compiles a project for a result that needs all its modules. -/
def compileCleanly (project : Project) (files : FileTree) :
    Except ProjectError Project × FileTree :=
  let (report, project, files) := project.compile files
  if report.errors.isEmpty then (.ok project, files)
  else (.error (.compileFailed report), files)

/-- Takes away what an earlier build left in a directory. -/
def clean (directory : List Char) (files : FileTree) : Except FileFault FileTree :=
  match files.find directory with
  | .error _ => .ok files
  | .ok (.file _) => .error .notDirectory
  | .ok (.directory _) => .ok (files.erase directory)

def build (project : Project) (outputDirectory? : Option String) (isClean : Bool)
    (files : FileTree) : Except ProjectError Answer × FileTree :=
  let directory :=
    match outputDirectory? with
    | some path => project.config.resolve path.toList
    | none => project.config.outputPath
  match project.compileCleanly files with
  | (.error error, files) => (.error error, files)
  | (.ok project, files) =>
    match if isClean then clean directory files else .ok files with
    | .error fault => (.error (.file fault), files)
    | .ok files =>
      let (result, files) := project.bundle directory files
      ((result.map Answer.built).mapError .bundle, files)

def analyze (project : Project) (output? : Option String) (files : FileTree) :
    Except ProjectError Answer × FileTree :=
  match project.compileCleanly files with
  | (.error error, files) => (.error error, files)
  | (.ok project, files) =>
    let report := (Bundle.analyze project.workspace.graph project.entries).report
    match output? with
    | none => (.ok (.analyzed report), files)
    | some path =>
      match files.write (project.config.resolve path.toList) (Text.bytes report.render) with
      | .error fault => (.error (.file fault), files)
      | .ok files => (.ok (.analyzed report), files)

def follow (project : Project) (debounce? : Option Nat) (files : FileTree) : Answer × FileTree :=
  let (report, project, files) := project.compile files
  let watching := project.config.watching
  let debounceMillis := debounce?.getD watching.debounceMillis
  let config := { project.config with watching := { watching with debounceMillis } }
  (.following { project with config } report, files)

/-- The changes of files that matter to a project with a settings file. -/
def changeFilter (project : Project) (settingsFile : List Char) : ChangeFilter :=
  let config := project.config
  { root := config.root, settingsFile, ignored := config.watching.ignored
    outputs := [config.outputPath, config.cachePath] }

def fileChanged (project : Project) (path : List Char) (files : FileTree) :
    List Settled × Project × FileTree :=
  match Specifier.ofPath (Utf8.encode path) with
  | .error _ => ([], project, files)
  | .ok specifier =>
    let (outcome, workspace) :=
      project.workspace.sourceChanged (project.tools files) specifier
    let project := { project with workspace }
    (outcome.settled, project, project.save files)

/-- Carries out a command. -/
def run (surroundings : Surroundings) (command : Command) (files : FileTree) :
    Except ProjectError Answer × FileTree :=
  match loadConfig surroundings command files with
  | .error error => (.error (.config error), files)
  | .ok config =>
    match openAt config files with
    | (.error error, files) => (.error error, files)
    | (.ok project, files) =>
      match command.task with
      | .build outputDirectory? isClean => project.build outputDirectory? isClean files
      | .analyze output? => project.analyze output? files
      | .dev debounce? =>
        let (answer, files) := project.follow debounce? files
        (.ok answer, files)

end ModuleBuild.Project
