import ModuleBuild.Config.Basic
import ModuleBuild.Text.Blank
/-!
Entries as they are written on the command line: a name, an equals sign and paths with commas between
them. Without an equals sign, all of it is paths, and the entry is named for the file.
-/

namespace ModuleBuild.CommandLine

open Text

inductive EntryFault where
  /-- The text does not end in the name of a file. -/
  | nameless (text : String)
  /-- The name or the paths are empty. -/
  | incomplete (text : String)
deriving DecidableEq

def EntryFault.message : EntryFault → String
  | nameless text => s!"cannot derive an entry name from '{text}'"
  | incomplete text => s!"expected name=path[,path...], got '{text}'"

def entryParts? (text : List Char) : Option (List Char × List Char) :=
  match splitFirst? '=' text with
  | some (name, paths) => some (trimmed name, paths)
  | none => (Path.fileStem? text).map (·, text)

def readEntry (text : String) : Except EntryFault Config.Entry :=
  match entryParts? text.toList with
  | none => .error (.nameless text)
  | some (name, paths) =>
    let modules := ((splitOn ',' paths).map trimmed).filter (!·.isEmpty)
    if name.isEmpty || modules.isEmpty then .error (.incomplete text)
    else .ok { name := String.ofList name, modules := modules.map String.ofList }

end ModuleBuild.CommandLine
