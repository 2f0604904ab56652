import ModuleBuild.CommandLine.Measure
import ModuleBuild.CommandLine.Usage
import ModuleBuild.Project.Run
/-!
The program. It reads the files that a command needs into a tree, carries out the command on that
tree, and writes back what changed.
-/

namespace ModuleBuild.Main

open CommandLine

/-! ## Files -/

/-- Adds what is at a path to a tree, with what is on the way to it. -/
def readInto (files : FileTree) (path : List Char) : IO FileTree :=
  (Path.stages (Path.clean path)).foldlM (fun files stage => do
    let place := (← IO.currentDir) / String.ofList stage
    if ← place.isDir then return (files.makeDirectory stage).2
    else if ← place.pathExists then
      let bytes ← IO.FS.readBinFile place
      return (files.put stage bytes.toList).toOption.getD files
    else return files) files

partial def readBelow (files : FileTree) (path : List Char) : IO FileTree := do
  let place := (← IO.currentDir) / String.ofList path
  if ← place.isDir then
    (← place.readDir).foldlM (fun files item =>
      readBelow files (Path.join path item.fileName.toList)) (← readInto files path)
  else readInto files path

def writeChanges (before after : FileTree) : IO Unit := do
  for (path, _) in before.files do
    unless after.isFile path do IO.FS.removeFile (String.ofList path)
  for (path, bytes) in after.files do
    unless (before.read path).toOption = some bytes do
      IO.FS.createDirAll (String.ofList ((Path.parent? path).getD []))
      IO.FS.writeBinFile (String.ofList path) ⟨bytes.toArray⟩

/-- Adds the sources of modules to a tree, and of all that they import. -/
partial def readSources (resolver : Resolver) (files : FileTree) (known wanted : List Specifier) :
    IO FileTree := do
  match wanted.filter (· ∉ known) with
  | [] => return files
  | unknown =>
    let paths := (unknown.filter Files.isPath).map fun specifier =>
      Specifier.pathPart specifier.chars
    let files ← paths.foldlM readInto files
    readSources resolver files (unknown ++ known) (Files.importsAmong files resolver)

def settingsFile (surroundings : Project.Surroundings) (command : Command) : List Char :=
  let discovery := Project.discovery surroundings command
  let file := discovery.file?.getD (Path.join discovery.root Config.fileName)
  Path.clean (Path.join surroundings.workingDirectory file)

/-- Adds what a command with a configuration reads and writes to a tree. -/
def readProject (config : Config) (task : Task) (files : FileTree) : IO FileTree := do
  let files ← (Project.storePath config :: config.entryPaths).foldlM readInto files
  let files ←
    match task with
    | .build directory? isClean =>
      let directory := (directory?.map fun path => config.resolve path.toList).getD config.outputPath
      if isClean then readBelow files directory else readInto files directory
    | .analyze (some path) => readInto files (config.resolve path.toList)
    | _ => pure files
  match config.resolver with
  | .error _ => return files
  | .ok resolver =>
    match Project.resolveEntries config resolver with
    | .error _ => return files
    | .ok entries => readSources resolver files [] (entries.flatMap (·.modules))

def snapshot (surroundings : Project.Surroundings) (command : Command) : IO FileTree := do
  let files ← readInto .empty (settingsFile surroundings command)
  let discovery := Project.discovery surroundings command
  match discovery.load files surroundings.environment { entries := command.entries } with
  | .error _ => return files
  | .ok config => readProject config command.task files

/-! ## Messages -/

def say (mark message : String) : IO Unit := IO.eprintln s!"{mark} {message}"

def sayProblems (report : PassReport) : IO Unit := do
  for (specifier, error) in report.errors do say "✗" s!"{specifier}: {error.message}"
  for missing in report.missing do say "⚠" missing.message

def sayError (error : ProjectError) : IO Unit := do
  if let .compileFailed report := error then sayProblems report
  say "✗" error.message
  if let some hint := error.hint? then say " " s!"help: {hint}"

def sayBundle (files : FileTree) (output : Bundle.BundleOutput) (nanos : Nat) : IO Unit := do
  let directory := (Path.parent? output.manifestPath).getD []
  let width := output.manifest.chunks.foldl (fun width chunk => max width chunk.file.length) 0
  for chunk in output.manifest.chunks do
    let path := Path.join directory chunk.file.toList
    let file := String.ofList (chunk.file.toList.rightpad width ' ')
    let size := sizeText ((files.read path).toOption.getD []).length
    let size := String.ofList (size.toList.leftpad 10 ' ')
    IO.eprintln s!"  {file}  {size}  {chunk.modules.length} module(s)"
  let count := output.manifest.chunks.length
  say "✓" s!"wrote {count} chunk(s) to {String.ofList directory} in {durationText nanos}"

def saySettled (settled : Settled) : IO Unit :=
  match settled.error? with
  | some error => say "✗" s!"{settled.specifier}: {error}"
  | none => if settled.needsReload then say "ℹ" s!"updated {settled.specifier}" else pure ()

/-! ## Commands -/

def changedPaths (before after : FileTree) : List (List Char) :=
  let paths := before.files.map (·.1) ++ (after.files.map (·.1)).filter (!before.isFile ·)
  paths.filter fun path => (before.read path).toOption ≠ (after.read path).toOption

/-- Follows changes of files until the settings change. -/
partial def follow (surroundings : Project.Surroundings) (command : Command) (project : Project)
    (files : FileTree) : IO Unit := do
  IO.sleep (UInt32.ofNat project.config.watching.debounceMillis)
  let found ← snapshot surroundings command
  let filter := project.changeFilter (settingsFile surroundings command)
  let changes := (changedPaths files found).filterMap filter.classify?
  if changes.any (· matches .settings _) then
    say "ℹ" s!"{String.ofList filter.settingsFile} changed, reloading"
  else
    let (project, after) ← changes.foldlM (fun (project, files) change =>
      match change with
      | .settings _ => pure (project, files)
      | .source path => do
        let (settled, project, files) := project.fileChanged path files
        settled.forM saySettled
        return (project, files)) (project, found)
    writeChanges found after
    follow surroundings command project after

/-- Carries out a command, and starts over when the settings of a project that is followed change. -/
partial def carryOut (surroundings : Project.Surroundings) (command : Command) : IO UInt32 := do
  let start ← IO.monoNanosNow
  let before ← snapshot surroundings command
  let (result, after) := Project.run surroundings command before
  writeChanges before after
  match result with
  | .error error =>
    sayError error
    return 1
  | .ok (.built output) =>
    unless command.isQuiet do sayBundle after output ((← IO.monoNanosNow) - start)
    return 0
  | .ok (.analyzed report) =>
    match command.task with
    | .analyze (some path) => unless command.isQuiet do say "✓" s!"wrote analysis to {path}"
    | _ => IO.println report.render
    return 0
  | .ok (.following project report) =>
    sayProblems report
    let modules := report.outcomes.size
    if report.isClean then
      say "✓" s!"compiled {modules} modules ({report.transpiled} transpiled, {report.reused} from cache)"
    else
      let problems := report.errors.length + report.missing.length
      say "⚠" s!"compiled with {problems} error(s); watching for fixes"
    follow surroundings command project after
    carryOut surroundings command

/-- The variables of the environment, as the system keeps them for a process. -/
def environment : IO (List (String × String)) := do
  let bytes ← try IO.FS.readBinFile "/proc/self/environ" catch _ => pure ByteArray.empty
  let text := Utf8.decodeLenient bytes.toList
  return (Text.splitOn '\x00' text).filterMap fun line =>
    (Text.splitFirst? '=' line).map fun (name, value) => (String.ofList name, String.ofList value)

def run (arguments : List String) : IO UInt32 := do
  match readCommand arguments with
  | .error error =>
    if error.isRequest then
      IO.println error.message
      return 0
    else
      IO.eprintln error.message
      return 2
  | .ok command =>
    let directory ← IO.currentDir
    let workingDirectory := directory.toString.toList
    carryOut { workingDirectory, environment := ← environment } command

end ModuleBuild.Main

def main (arguments : List String) : IO UInt32 := ModuleBuild.Main.run arguments
