import ModuleBuild.Artifact.Manifest
import ModuleBuild.CommandLine.Arguments
/-!
What the program says about its own use.
-/

namespace ModuleBuild.CommandLine

def versionText : String := s!"kiln {BuildManifest.currentVersion}"

def usageText : String :=
  "\n".intercalate [
    "Incremental, content-addressed ES module builds",
    "",
    "Usage: kiln [OPTIONS] <COMMAND>",
    "",
    "Commands:",
    "  build    Compile every entry and write production bundles",
    "  dev      Compile, then watch the project and recompile on change",
    "  analyze  Print the bundle partition as JSON",
    "  help     Print this message",
    "",
    "Options:",
    "  -v, --verbose        Enable verbose logging (debug level)",
    "  -q, --quiet          Suppress all output except errors",
    "      --no-color       Disable colored output",
    "  -h, --help           Print help",
    "  -V, --version        Print version",
    "",
    "Options of all commands:",
    "      --root <DIR>     Project root [default: .]",
    "  -c, --config <FILE>  Config file (defaults to <root>/kiln.toml)",
    "  -e, --entry <ENTRY>  Entry override, name=path[,path...] or just path",
    "",
    "Options of build:",
    "  -d, --out-dir <DIR>  Output directory for bundles",
    "      --clean          Remove the output directory before writing",
    "",
    "Options of dev:",
    "      --debounce <MS>  Debounce window for file events, in milliseconds",
    "",
    "Options of analyze:",
    "  -o, --output <FILE>  Write the report to a file instead of stdout"]

namespace UsageError

/-- Whether the arguments only ask for something to be shown. -/
def isRequest : UsageError → Bool
  | helpWanted | versionWanted => true
  | _ => false

def message : UsageError → String
  | helpWanted | nothingWanted => usageText
  | versionWanted => versionText
  | missingCommand => "a command is required but was not given"
  | unknownCommand => "unrecognized command"
  | unknownArgument => "unexpected argument found"
  | missingValue => "a value is required for an option but was not given"
  | unneededValue => "an option that takes no value has one"
  | unfitValue => "invalid value for an option"
  | conflict => "options cannot be used together or more than once"

end UsageError

end ModuleBuild.CommandLine
