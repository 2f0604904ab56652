import ModuleBuild.Artifact.Manifest
import ModuleBuild.Proofs.Json.Quoting
/-!
A manifest is read back from its text.
-/

namespace ModuleBuild

theorem Text.bytes_append (first second : String) :
    Text.bytes (first ++ second) = Text.bytes first ++ Text.bytes second := by
  rw [Text.bytes, String.toList_append, Utf8.encode_append]
  rfl

namespace BuildManifest

theorem bytes_encode (manifest : BuildManifest) :
    Text.bytes manifest.encode =
      0x7B :: (Text.bytes (Json.quoted versionKey) ++ 0x3A ::
          (Text.bytes (Json.quoted manifest.compilerVersion) ++ 0x2C ::
        (Text.bytes (Json.quoted importMapKey) ++ 0x3A ::
          (Text.bytes (Json.quoted manifest.importMapDigest) ++ 0x2C ::
        (Text.bytes (Json.quoted pluginListKey) ++ 0x3A ::
          (Text.bytes (Json.quoted manifest.pluginListDigest) ++ [0x7D])))))) := by
  have opening : Text.bytes "\x7b" = [0x7B] := rfl
  have closing : Text.bytes "\x7d" = [0x7D] := rfl
  have colon : Text.bytes ":" = [0x3A] := rfl
  have comma : Text.bytes "," = [0x2C] := rfl
  have joined (first second third : String) :
      ",".intercalate [first, second, third] = first ++ "," ++ second ++ "," ++ third := rfl
  simp only [encode, joined, Text.bytes_append, opening, closing, colon,
    comma, List.append_assoc, List.cons_append, List.nil_append]

theorem decode?_encode (manifest : BuildManifest) : decode? manifest.encode = some manifest := by
  have read : Json.readLoosely (Text.bytes manifest.encode) = .ok (.object
      [(some versionKey, .string (some manifest.compilerVersion)),
        (some importMapKey, .string (some manifest.importMapDigest)),
        (some pluginListKey, .string (some manifest.pluginListDigest))]) := by
    rw [Json.readLoosely, Json.readWith, bytes_encode, Json.run_object, Json.run_member, Json.run_comma,
      Json.run_member, Json.run_comma, Json.run_member, Json.run_close, Json.run_end]
    rfl
  rw [decode?, read]
  rfl

end BuildManifest

end ModuleBuild
