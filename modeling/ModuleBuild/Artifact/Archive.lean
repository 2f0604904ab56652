import ModuleBuild.Artifact.Store
import ModuleBuild.Json.Reader
import ModuleBuild.Text.Hex
/-!
The written form of a store: a JSON array of its blobs, its metadata and its sidecars, each record in
turn an array of its parts. Counters and faults belong to a session and are not written.
-/

namespace ModuleBuild

def bytesOfHex? : List Char → Option Bytes
  | [] => some []
  | high :: low :: rest =>
    if Text.isHexDigit high && Text.isHexDigit low then
      (bytesOfHex? rest).map ((Text.hexValue [high, low]).toUInt8 :: ·)
    else none
  | [_] => none

/-- A way to write values as JSON and to read them back. -/
class Archived (α : Type) where
  toJson : α → Json
  ofJson? : Json → Option α

namespace Archived

variable {α β : Type} [Archived α] [Archived β]

instance : Archived String where
  toJson := .ofString
  ofJson?
    | .string text? => text?
    | _ => none

instance : Archived Bool where
  toJson := .bool
  ofJson?
    | .bool value => some value
    | _ => none

instance : Archived Nat where
  toJson n := .number (toString n)
  ofJson?
    | .number spelling => spelling.toNat?
    | _ => none

instance : Archived Bytes where
  toJson bytes := .ofString (String.ofList (Blake3.hexDigits bytes))
  ofJson?
    | .string (some digits) => bytesOfHex? digits.toList
    | _ => none

instance : Archived (List α) where
  toJson items := .array (items.map toJson)
  ofJson?
    | .array items => items.mapM ofJson?
    | _ => none

instance : Archived (Option α) where
  toJson
    | none => .null
    | some value => .array [toJson value]
  ofJson?
    | .null => some none
    | .array [value] => (ofJson? value).map some
    | _ => none

instance : Archived (α × β) where
  toJson pair := .array [toJson pair.1, toJson pair.2]
  ofJson?
    | .array [first, second] => do return (← ofJson? first, ← ofJson? second)
    | _ => none

abbrev via (parts : β → α) (whole : α → β) : Archived β where
  toJson value := toJson (parts value)
  ofJson? json := (ofJson? json).map whole

instance : Archived Specifier := via Specifier.text Specifier.mk

/-- A kind is written by an extension of its files, and an unknown one apart from those. -/
instance : Archived SourceKind :=
  via
    (fun kind =>
      match kind with
      | .javaScript => (true, "js")
      | .typeScript => (true, "ts")
      | .jsx => (true, "jsx")
      | .tsx => (true, "tsx")
      | .css => (true, "css")
      | .json => (true, "json")
      | .other extension => (false, extension))
    fun (isKnown, extension) =>
      if isKnown then SourceKind.ofExtension extension else .other extension

instance : Archived HashSlot :=
  via (fun slot => (slot.offset, slot.length)) fun (offset, length) => ⟨offset, length⟩

instance : Archived DependencyEdge :=
  via (fun edge => (edge.target, edge.isDynamic, edge.slot?))
    fun (target, isDynamic, slot?) => { target, isDynamic, slot? }

instance : Archived ModuleFlags :=
  via (fun flags => (flags.isStyle, flags.hasSideEffects, flags.isDynamicEntryOnly))
    fun (isStyle, hasSideEffects, isDynamicEntryOnly) =>
      { isStyle, hasSideEffects, isDynamicEntryOnly }

instance : Archived OutputReference :=
  via (fun output => (output.key, output.length)) fun (key, length) => { key, length }

instance : Archived Sidecar :=
  via
    (fun sidecar =>
      (sidecar.specifier, sidecar.sourceHash, sidecar.contentHash, sidecar.kind?,
        sidecar.dependencies, sidecar.flags, sidecar.output?, sidecar.externals))
    fun (specifier, sourceHash, contentHash, kind?, dependencies, flags, output?, externals) =>
      { specifier, sourceHash, contentHash, kind?, dependencies, flags, output?, externals }

instance : Archived ArtifactStore :=
  via (fun store => (store.blobs.entries, store.metadata.entries, store.sidecars.values))
    fun (blobs, metadata, sidecars) =>
      { blobs := .ofList blobs
        metadata := .ofList metadata
        keepsText := true
        sidecars := .ofList (sidecars.map fun sidecar : Sidecar => (sidecar.specifier, sidecar)) }

end Archived

namespace ArtifactStore

def archive (store : ArtifactStore) : Bytes := Text.bytes (Archived.toJson store).render

def ofArchive? (bytes : Bytes) : Option ArtifactStore :=
  (Json.read bytes).toOption.bind Archived.ofJson?

end ArtifactStore

end ModuleBuild
