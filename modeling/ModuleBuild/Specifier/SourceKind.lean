import ModuleBuild.Specifier.Basic
import ModuleBuild.Text.Quoted
/-!
The language of a module's source, told by its file extension.
-/

namespace ModuleBuild

inductive SourceKind where
  | javaScript
  | typeScript
  | jsx
  | tsx
  | css
  | json
  /-- A language that cannot be compiled, named by its extension. -/
  | other (extension : String)
deriving DecidableEq

namespace SourceKind

def ofExtension (extension : String) : SourceKind :=
  match extension with
  | "js" | "mjs" | "cjs" => .javaScript
  | "ts" | "mts" | "cts" => .typeScript
  | "jsx" => .jsx
  | "tsx" => .tsx
  | "css" => .css
  | "json" => .json
  | _ => .other extension

def isSupported : SourceKind → Bool
  | .other _ => false
  | _ => true

def isStyle (kind : SourceKind) : Bool := kind == .css

/-- Modules without an extension are scripts, and remote ones also when theirs is unknown: it is
often only the end of a version number. -/
def ofSpecifier (specifier : Specifier) : SourceKind :=
  match specifier.extension?.map ofExtension with
  | none => .javaScript
  | some kind => if !kind.isSupported && specifier.isRemote then .javaScript else kind

def description : SourceKind → String
  | javaScript => "JavaScript"
  | typeScript => "TypeScript"
  | jsx => "Jsx"
  | tsx => "Tsx"
  | css => "Css"
  | json => "Json"
  | other extension => s!"Other({Text.quoted extension})"

end SourceKind

end ModuleBuild
