import ModuleBuild.Compile.Transpile
import ModuleBuild.OrderedMap
/-!
A transpiler with prescribed results for some modules, to see what a compilation makes of them.
-/

namespace ModuleBuild

structure ScriptedTranspiler where
  /-- Modules that are refused. -/
  failing : List Specifier := []
  /-- Results that take the place of successful ones; `none` says that the syntax is not supported. -/
  results : OrderedMap Specifier (Option Transpiled) := .empty

namespace ScriptedTranspiler

def failure : TranspileError := .failed "unexpected token" none

def transpiler (scripted : ScriptedTranspiler) : Transpiler := fun specifier source kind =>
  if specifier ∈ scripted.failing then .error failure
  else
    match transpile specifier source kind, scripted.results.get? specifier with
    | .ok _, some none => .error (.unsupportedSyntax kind)
    | .ok _, some (some output) => .ok output
    | result, _ => result

end ScriptedTranspiler

end ModuleBuild
