import ModuleBuild.Graph.Walk
import ModuleBuild.Digest.Blake3
/-!
Content hashes. The content hash of a module folds the hash of its own source with the content
hashes of what it imports statically, in source order. A module without such imports has its source
hash as content hash.

Import cycles are cut where the walk closes them: a module on the current path counts with its
source hash there. A module met again off the path counts with what it folded to before. Modules
that are missing, external or not yet loaded take no part.
-/

namespace ModuleBuild

/-- The hash of source bytes. -/
def sourceHash (source : Bytes) : String := Blake3.hex source

/-- Combines a source hash with the hashes of imports, written one after another. -/
def foldHashes (source : String) (imports : List String) : String :=
  if imports.isEmpty then source
  else Blake3.hex (Text.bytes source ++ imports.flatMap Text.bytes)

/-- The bytes of a hash that compiled importers embed. -/
def tokenLength : Nat := 16

/-- The start of a hash that compiled importers embed; there is none when the cut would fall into a
character. -/
def hashToken? (hash : String) : Option String :=
  let text := hash.toList
  (Utf8.split? (min (Utf8.width text) tokenLength) text).map fun (token, _) =>
    String.ofList token

namespace ModuleRecord

/-- Whether a module takes part in content hashes. -/
def folds (record : ModuleRecord) : Bool := !record.isExternal && record.sourceHash != ""

end ModuleRecord

namespace ContentHash

/-- A module whose imports are being folded: its source hash and the hashes gathered so far, the
latest first. -/
structure Frame where
  sourceHash : String
  gathered : List String

structure Fold where
  /-- The modules on the path, innermost first. Those that take no part have no frame. -/
  path : List (Option Frame) := []
  /-- The hashes of modules already folded. -/
  folded : List (Specifier × String) := []
  result? : Option String := none

/-- Hands a hash to the innermost module on the path, or makes it the result. -/
def Fold.deliver (fold : Fold) (hash : String) : Fold :=
  match fold.path with
  | some frame :: outer =>
    { fold with path := some { frame with gathered := hash :: frame.gathered } :: outer }
  | none :: _ => fold
  | [] => { fold with result? := some hash }

def enter (_ : Specifier) (record? : Option ModuleRecord) (_ : Nat) (fold : Fold) :
    Fold × WalkControl :=
  match record? with
  | some record =>
    if record.folds then
      ({ fold with path := some ⟨record.sourceHash, []⟩ :: fold.path }, .continue)
    else ({ fold with path := none :: fold.path }, .skipChildren)
  | none => ({ fold with path := none :: fold.path }, .skipChildren)

def leave (specifier : Specifier) (_ : Option ModuleRecord) (fold : Fold) : Fold :=
  match fold.path with
  | some frame :: outer =>
    let hash := foldHashes frame.sourceHash frame.gathered.reverse
    Fold.deliver { fold with path := outer, folded := (specifier, hash) :: fold.folded } hash
  | none :: outer => { fold with path := outer }
  | [] => fold

def revisit (specifier : Specifier) (record? : Option ModuleRecord) (onPath : Bool) (fold : Fold) :
    Fold :=
  match record?, fold.path with
  | some record, _ :: _ =>
    if !record.folds then fold
    else if onPath then fold.deliver record.sourceHash
    else
      match OrderedMap.lookup specifier fold.folded with
      | some hash => fold.deliver hash
      | none => fold
  | _, _ => fold

def visitor : Visitor Fold := { enter, leave, revisit }

end ContentHash

namespace ModuleGraph

/-- The content hash that follows from the graph; modules that are missing, external or not yet
loaded have none. -/
def contentHash? (graph : ModuleGraph) (specifier : Specifier) : Option String :=
  (graph.walk specifier .static [] ContentHash.visitor {}).state.result?

/-- Whether the content hash stored in a record is the one that follows from the graph. -/
def isCurrent (graph : ModuleGraph) (record : ModuleRecord) : Bool :=
  (graph.contentHash? record.specifier).getD "" == record.contentHash

end ModuleGraph

end ModuleBuild
