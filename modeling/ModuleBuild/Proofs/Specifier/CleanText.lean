import ModuleBuild.Specifier.Basic
import ModuleBuild.Proofs.Specifier.CleanPath
import Mathlib.Data.List.TakeWhile
/-!
Cleaned specifier texts. Cleaning a text leaves its query alone and its path clean, so that it has nothing to
do a second time; the same holds of an address, whose scheme and host are kept.
-/

namespace ModuleBuild

namespace Text

theorem startsWith_iff {start text : List Char} : startsWith start text = true ↔ ∃ rest, text = start ++ rest := by
  simp only [startsWith, Option.isSome_iff_exists, strip?_eq_some_iff]

theorem of_dropWhile_eq_cons {p : Char → Bool} {text more : List Char} {c : Char}
    (cut : text.dropWhile p = c :: more) : p c = false := by
  have stop := List.head?_dropWhile_not p text
  rw [cut] at stop
  exact stop

end Text

namespace Specifier

open Text ModuleBuild.Path

/-! ## Path and query -/

theorem head_suffixPart (text : List Char) : ∀ c ∈ (suffixPart text).head?, opensSuffix c = true := by
  intro c head
  obtain ⟨more, cut⟩ := List.head?_eq_some_iff.1 head
  simpa using of_dropWhile_eq_cons cut

/-- A path without marks in it and a query are found again as they were put together. -/
theorem parts_append {path suffix : List Char} (plain : ∀ c ∈ path, opensSuffix c = false)
    (opens : ∀ c ∈ suffix.head?, opensSuffix c = true) :
    pathPart (path ++ suffix) = path ∧ suffixPart (path ++ suffix) = suffix := by
  have plain' : ∀ c ∈ path, (!opensSuffix c) = true := fun c member => by rw [plain c member]; rfl
  rw [pathPart, suffixPart, List.takeWhile_append_of_pos plain', List.dropWhile_append_of_pos plain']
  cases suffix with
  | nil => simp
  | cons c rest => simp [opens c rfl]

theorem plain_pathPart {text : List Char} {c : Char} (member : c ∈ pathPart text) : opensSuffix c = false := by
  simpa using List.mem_takeWhile_imp member

theorem plain_clean {path : List Char} (plain : ∀ c ∈ path, opensSuffix c = false) :
    ∀ c ∈ clean path, opensSuffix c = false := by
  intro c member
  rcases mem_clean member with inside | rfl | rfl
  · exact plain c inside
  · rfl
  · rfl

theorem isAbsolute_pathPart (text : List Char) : isAbsolute (pathPart text) = isAbsolute text := by
  cases text with
  | nil => rfl
  | cons c rest =>
    by_cases opens : opensSuffix c = true
    · have differ : c ≠ '/' := by
        rintro rfl
        cases opens
      simp [pathPart, isAbsolute, opens, differ]
    · simp [pathPart, isAbsolute, opens]

theorem isAbsolute_append {path : List Char} (nonempty : path ≠ []) (rest : List Char) :
    isAbsolute (path ++ rest) = isAbsolute path := by
  cases path with
  | nil => exact absurd rfl nonempty
  | cons c path => rfl

/-! ## Cleaning -/

theorem parts_cleaned (text : List Char) :
    pathPart (cleaned text) = clean (pathPart text) ∧ suffixPart (cleaned text) = suffixPart text :=
  parts_append (plain_clean fun _ => plain_pathPart) (head_suffixPart text)

theorem cleaned_cleaned (text : List Char) : cleaned (cleaned text) = cleaned text := by
  obtain ⟨path, suffix⟩ := parts_cleaned text
  rw [cleaned, path, suffix, clean_clean, ← cleaned]

theorem isAbsolute_cleaned (text : List Char) : isAbsolute (cleaned text) = isAbsolute text := by
  rw [cleaned, isAbsolute_append (clean_ne_nil _), isAbsolute_clean, isAbsolute_pathPart]

theorem length_cleaned_le {text : List Char} (absolute : isAbsolute text = true) :
    (cleaned text).length ≤ text.length := by
  have nonempty : pathPart text ≠ [] := by
    intro empty
    have same := isAbsolute_pathPart text
    rw [empty, absolute] at same
    cases same
  calc (cleaned text).length = (clean (pathPart text)).length + (suffixPart text).length := List.length_append
    _ ≤ (pathPart text).length + (suffixPart text).length := Nat.add_le_add_right (length_clean_le nonempty) _
    _ = text.length := by rw [← List.length_append, pathPart_append_suffixPart]

/-! ## Addresses -/

theorem mem_remoteSchemes {scheme : List Char} :
    scheme ∈ remoteSchemes ↔ scheme = "https://".toList ∨ scheme = "http://".toList := by
  simp [remoteSchemes]

theorem isRemoteText_iff {text : List Char} :
    isRemoteText text = true ↔ ∃ scheme ∈ remoteSchemes, ∃ rest, text = scheme ++ rest := by
  simp only [isRemoteText, List.any_eq_true, startsWith_iff]

theorem find?_scheme {scheme : List Char} (is : scheme ∈ remoteSchemes) (rest : List Char) :
    remoteSchemes.find? (startsWith · (scheme ++ rest)) = some scheme := by
  -- neither scheme begins the other one
  rcases mem_remoteSchemes.1 is with rfl | rfl <;> rfl

theorem splitOrigin?_eq (text : List Char) : splitOrigin? text =
    (remoteSchemes.find? (startsWith · text)).map fun scheme =>
      match (text.drop scheme.length).dropWhile (· ≠ '/') with
      | [] => (text, ['/'])
      | path => (scheme ++ (text.drop scheme.length).takeWhile (· ≠ '/'), path) := rfl

/-- A scheme with a host, and what stands before the path of an address. -/
def IsOrigin (origin : List Char) : Prop := ∃ scheme ∈ remoteSchemes, ∃ host, origin = scheme ++ host ∧ '/' ∉ host

theorem IsOrigin.isRemoteText {origin : List Char} (is : IsOrigin origin) (rest : List Char) :
    isRemoteText (origin ++ rest) = true := by
  obtain ⟨scheme, listed, host, rfl, -⟩ := is
  exact isRemoteText_iff.2 ⟨scheme, listed, host ++ rest, List.append_assoc _ _ _⟩

theorem splitOrigin?_append {origin path : List Char} (is : IsOrigin origin) (absolute : isAbsolute path = true) :
    splitOrigin? (origin ++ path) = some (origin, path) := by
  obtain ⟨scheme, listed, host, rfl, noSlash⟩ := is
  obtain ⟨rest, rfl⟩ : ∃ rest, path = '/' :: rest := by
    cases path with
    | nil => cases absolute
    | cons c rest => exact ⟨rest, by simpa [isAbsolute] using absolute⟩
  have hosted : ∀ c ∈ host, decide (c ≠ '/') = true := by
    intro c member
    simpa using fun same : c = '/' => noSlash (same ▸ member)
  rw [splitOrigin?_eq, List.append_assoc, find?_scheme listed, Option.map_some, List.drop_left,
    List.dropWhile_append_of_pos hosted, List.takeWhile_append_of_pos hosted]
  simp

/-- A remote text is an origin with a path, or an origin alone, which stands for its root. -/
theorem splitOrigin?_of_remote {text : List Char} (remote : isRemoteText text = true) :
    ∃ origin path, splitOrigin? text = some (origin, path) ∧ IsOrigin origin ∧ isAbsolute path = true ∧
      (text = origin ++ path ∨ text = origin ∧ path = ['/']) := by
  obtain ⟨scheme, listed, rest, rfl⟩ := isRemoteText_iff.1 remote
  have cut := List.takeWhile_append_dropWhile (p := fun c => decide (c ≠ '/')) (l := rest)
  have noSlash : '/' ∉ rest.takeWhile fun c => decide (c ≠ '/') := fun member => by
    simpa using List.mem_takeWhile_imp member
  cases path : rest.dropWhile fun c => decide (c ≠ '/') with
  | nil =>
    rw [path, List.append_nil] at cut
    refine ⟨scheme ++ rest, ['/'], ?_, ⟨scheme, listed, rest, rfl, cut ▸ noSlash⟩, rfl, .inr ⟨rfl, rfl⟩⟩
    rw [splitOrigin?_eq, find?_scheme listed, Option.map_some, List.drop_left, path]
  | cons c more =>
    have slash : c = '/' := by simpa using of_dropWhile_eq_cons path
    have whole : scheme ++ rest = scheme ++ rest.takeWhile (fun c => decide (c ≠ '/')) ++ c :: more := by
      rw [List.append_assoc, ← path, cut]
    have origin : IsOrigin (scheme ++ rest.takeWhile fun c => decide (c ≠ '/')) :=
      ⟨scheme, listed, _, rfl, noSlash⟩
    have absolute : isAbsolute (c :: more) = true := by rw [slash]; rfl
    exact ⟨_, c :: more, whole ▸ splitOrigin?_append origin absolute, origin, absolute, .inl whole⟩

theorem splitOrigin?_eq_none {text : List Char} (notRemote : isRemoteText text = false) :
    splitOrigin? text = none := by
  rw [splitOrigin?_eq, List.find?_eq_none.2, Option.map_none]
  intro scheme listed starts
  exact Bool.eq_false_iff.1 notRemote (List.any_eq_true.2 ⟨scheme, listed, starts⟩)

theorem cleanedAddress_append {origin path : List Char} (is : IsOrigin origin) (absolute : isAbsolute path = true) :
    cleanedAddress (origin ++ path) = origin ++ cleaned path := by
  rw [cleanedAddress, splitOrigin?_append is absolute]

theorem cleanedAddress_cleaned {origin path : List Char} (is : IsOrigin origin)
    (absolute : isAbsolute path = true) :
    cleanedAddress (origin ++ cleaned path) = origin ++ cleaned path := by
  rw [cleanedAddress_append is ((isAbsolute_cleaned path).trans absolute), cleaned_cleaned]

end Specifier

end ModuleBuild
