import ModuleBuild.Specifier.SourceKind
/-!
What is known about one module: its source language, its hashes, the modules it imports, its
compiled output and how far its compilation has come.
-/

namespace ModuleBuild

/-- A stretch of bytes in compiled output that holds the hash token of a dependency. -/
structure HashSlot where
  offset : Nat
  length : Nat
deriving DecidableEq

def HashSlot.stop (slot : HashSlot) : Nat := slot.offset + slot.length

/-- An import of another module. A dynamic import is loaded when it is asked for; it takes no part
in content hashes and does not bind modules into one chunk. -/
structure DependencyEdge where
  target : Specifier
  isDynamic : Bool := false
  slot? : Option HashSlot := none
deriving DecidableEq

structure ModuleFlags where
  isStyle : Bool := false
  hasSideEffects : Bool := false
  /-- Every importer reaches the module by a dynamic import only. -/
  isDynamicEntryOnly : Bool := false
deriving DecidableEq

inductive ModuleState where
  | pending
  | ready
  | errored (reason : String)
deriving DecidableEq

/-- Where compiled output is kept, and its size in bytes. -/
structure OutputReference where
  key : String
  length : Nat
deriving DecidableEq

structure ModuleRecord where
  specifier : Specifier
  kind? : Option SourceKind := none
  /-- The hash of the module's own source; empty until it was loaded. -/
  sourceHash : String := ""
  /-- The hash that also covers what the module imports statically. -/
  contentHash : String := ""
  /-- Imports in source order. -/
  dependencies : List DependencyEdge := []
  output? : Option OutputReference := none
  /-- The module is not compiled; imports keep pointing at its specifier. -/
  isExternal : Bool := false
  flags : ModuleFlags := {}
  state : ModuleState := .pending
deriving DecidableEq

namespace ModuleRecord

/-- A module that was mentioned and not yet compiled. -/
def awaiting (specifier : Specifier) : ModuleRecord := { specifier }

/-- A module that is left alone: ready at once, without imports or output. -/
def external (specifier : Specifier) : ModuleRecord :=
  { specifier, isExternal := true, state := .ready }

def isReady (record : ModuleRecord) : Bool := record.state == .ready

def isPending (record : ModuleRecord) : Bool := record.state == .pending

def error? (record : ModuleRecord) : Option String :=
  match record.state with
  | .errored reason => some reason
  | _ => none

def staticDependencies (record : ModuleRecord) : List DependencyEdge :=
  record.dependencies.filter (!·.isDynamic)

def dynamicDependencies (record : ModuleRecord) : List DependencyEdge :=
  record.dependencies.filter (·.isDynamic)

/-- The record of a module that failed: nothing derived from an earlier success is kept. -/
def failed (record : ModuleRecord) (reason : String) : ModuleRecord :=
  { record with
    state := .errored reason
    dependencies := []
    output? := none
    contentHash := "" }

end ModuleRecord

end ModuleBuild
