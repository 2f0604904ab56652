import ModuleBuild.Imports.Scan
import ModuleBuild.Json.Reader
/-!
From source to code. Scripts pass unchanged, with their imports found; data and style sheets become
modules that export them.
-/

namespace ModuleBuild

/-- Code ready to be written, with its imports in source order. -/
structure Transpiled where
  code : List Char
  imports : List FoundImport
  /-- The module does more on import than to declare. -/
  hasSideEffects : Bool

inductive TranspileError where
  /-- The source was refused, at a line and column if that is known. -/
  | failed (reason : String) (location? : Option (Nat × Nat))
  | unsupportedSyntax (kind : SourceKind)
deriving DecidableEq

def TranspileError.message : TranspileError → String
  | failed reason none => reason
  | failed reason (some (line, column)) => s!"{reason} at {line}:{column}"
  | unsupportedSyntax kind => s!"unsupported syntax for {kind.description} source"

/-- A way to turn the source of a module into code. -/
abbrev Transpiler := Specifier → List Char → SourceKind → Except TranspileError Transpiled

/-- Finds the imports of scripts and wraps data and style sheets; it changes no syntax. -/
def transpile : Transpiler := fun _ source kind =>
  match kind with
  | .javaScript | .typeScript | .jsx | .tsx =>
    let (imports, hasSideEffects) := Imports.scan source
    .ok { code := source, imports, hasSideEffects }
  | .json =>
    match Json.read (Utf8.encode source) with
    | .error error =>
      .error (.failed s!"invalid JSON: {error.message}" (some (error.line, error.column)))
    | .ok _ =>
      let code := "export default ".toList ++ Text.trimmed source ++ ";\n".toList
      .ok { code, imports := [], hasSideEffects := false }
  | .css =>
    let code := s!"const css = {Json.quoted (String.ofList source)};\nexport default css;\n".toList
    .ok { code, imports := [], hasSideEffects := true }
  | .other _ => .error (.unsupportedSyntax kind)

end ModuleBuild
