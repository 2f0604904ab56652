import ModuleBuild.Proofs.Specifier.Canonical
/-!
What the query of an importer does to its relative imports. A relative import is joined to everything before the
last slash of the importer, and that slash may stand in the query. The import is then lost in the query, and the
path stays the importer's own; a query without a slash does not matter.
-/

namespace ModuleBuild

namespace Text

variable {separator : Char} {before after text : List Char}

theorem splitFirst?_append (absent : separator ∉ before) (after : List Char) :
    splitFirst? separator (before ++ separator :: after) = some (before, after) := by
  have plain : ∀ c ∈ before, decide (c ≠ separator) = true := fun c member =>
    decide_eq_true fun same => absent (same ▸ member)
  rw [splitFirst?, List.dropWhile_append_of_pos plain, List.takeWhile_append_of_pos plain,
    List.dropWhile_cons_of_neg (by simp), List.takeWhile_cons_of_neg (by simp), List.append_nil]

theorem splitLast?_append (before : List Char) (absent : separator ∉ after) :
    splitLast? separator (before ++ separator :: after) = some (before, after) := by
  have turned : (before ++ separator :: after).reverse = after.reverse ++ separator :: before.reverse := by simp
  rw [splitLast?, turned, splitFirst?_append (mt List.mem_reverse.1 absent)]
  simp

theorem splitLast?_of_notMem (absent : separator ∉ text) : splitLast? separator text = none := by
  cases cut : splitLast? separator text with
  | none => rfl
  | some parts =>
    refine absurd ?_ absent
    rw [(splitLast?_eq_some cut).1]
    exact List.mem_append_right _ List.mem_cons_self

theorem exists_last (present : separator ∈ text) :
    ∃ before after, text = before ++ separator :: after ∧ separator ∉ after := by
  obtain ⟨last, start, turned, absent⟩ := List.eq_append_cons_of_mem (List.mem_reverse.2 present)
  refine ⟨start.reverse, last.reverse, ?_, mt List.mem_reverse.1 absent⟩
  rw [← List.reverse_reverse text, turned]
  simp

end Text

namespace Specifier

open Text ModuleBuild.Path

/-! ## Directories -/

theorem directory_append_slash (before : List Char) {after : List Char} (absent : '/' ∉ after) :
    directory (before ++ '/' :: after) = before := by
  rw [directory, splitLast?_append before absent]

theorem directory_of_notMem {text : List Char} (absent : '/' ∉ text) : directory text = [] := by
  rw [directory, splitLast?_of_notMem absent]

theorem directory_append (path : List Char) {query : List Char} (absent : '/' ∉ query) :
    directory (path ++ query) = directory path := by
  by_cases present : '/' ∈ path
  · obtain ⟨before, after, rfl, last⟩ := exists_last present
    have later : '/' ∉ after ++ query := fun member => (List.mem_append.1 member).elim last absent
    rw [List.append_assoc, List.cons_append, directory_append_slash before later,
      directory_append_slash before last]
  · rw [directory_of_notMem present, directory_of_notMem fun member =>
      (List.mem_append.1 member).elim present absent]

theorem directory_subset (text : List Char) : directory text ⊆ text := by
  intro c member
  unfold directory at member
  split at member
  · next before after cut =>
    rw [(splitLast?_eq_some cut).1]
    exact List.mem_append_left _ member
  · cases member

/-! ## Paths with a query -/

/-- An import joined to a path with a query is what it is without the query exactly if there is no slash in that. -/
theorem cleaned_join_eq_iff {path query : List Char} (plain : ∀ c ∈ path, opensSuffix c = false)
    (opens : ∀ c ∈ query.head?, opensSuffix c = true) (written : List Char) :
    cleaned (directory (path ++ query) ++ '/' :: written) = cleaned (directory path ++ '/' :: written) ↔
      '/' ∉ query := by
  refine ⟨fun same present => ?_, fun absent => by rw [directory_append path absent]⟩
  -- the query up to its last slash stays, and what follows the path is then longer than the import can make it
  obtain ⟨before, after, rfl, last⟩ := exists_last present
  have opens' : ∀ c ∈ (before ++ '/' :: written).head?, opensSuffix c = true := by
    cases before with
    | nil => exact absurd (opens '/' rfl) (by decide)
    | cons c before => exact opens
  have inQuery : suffixPart (directory (path ++ (before ++ '/' :: after)) ++ '/' :: written) =
      before ++ '/' :: written := by
    rw [← List.append_assoc, directory_append_slash _ last, List.append_assoc]
    exact (parts_append plain opens').2
  have inImport : suffixPart (directory path ++ '/' :: written) = suffixPart written := by
    rw [suffixPart, List.dropWhile_append_of_pos fun c member => by rw [plain c (directory_subset path member)]; rfl]
    rfl
  have suffixes := congrArg suffixPart same
  rw [(parts_cleaned _).2, (parts_cleaned _).2, inQuery, inImport] at suffixes
  have short : (suffixPart written).length ≤ written.length := (List.dropWhile_sublist _).length_le
  rw [← suffixes, List.length_append, List.length_cons] at short
  omega

/-! ## Importers with a query -/

theorem ofChars_inj {first second : List Char} : ofChars first = ofChars second ↔ first = second := by
  refine ⟨fun same => ?_, fun same => by rw [same]⟩
  rw [← chars_ofChars first, same, chars_ofChars]

/-- The specifier of the same module without its query. -/
def withoutQuery (specifier : Specifier) : Specifier := ofChars (pathPart specifier.chars)

/-- An address has a path behind its host, as every address has that was read. -/
def HasPath (text : List Char) : Prop :=
  isRemoteText text = true → ∃ origin path, IsOrigin origin ∧ isAbsolute path = true ∧ text = origin ++ path

theorem hasPath_parse {value : String} {specifier : Specifier} (is : parse value = .ok specifier) :
    HasPath specifier.chars := by
  intro remote
  rcases parse_eq_ok is with ⟨remote', chars⟩ | ⟨notRemote, -, chars⟩ | ⟨absolute, chars⟩
  · obtain ⟨origin, path, split, isOrigin, absolute, -⟩ := splitOrigin?_of_remote remote'
    rw [chars, cleanedAddress, split]
    exact ⟨origin, cleaned path, isOrigin, (isAbsolute_cleaned path).trans absolute, rfl⟩
  · rw [chars, notRemote] at remote
    cases remote
  · rw [chars, notRemote_of_absolute ((isAbsolute_cleaned _).trans absolute)] at remote
    cases remote

theorem isRemoteText_pathPart (text : List Char) : isRemoteText (pathPart text) = isRemoteText text := by
  rw [Bool.eq_iff_iff, isRemoteText_iff, isRemoteText_iff]
  constructor
  · rintro ⟨scheme, listed, rest, same⟩
    refine ⟨scheme, listed, rest ++ suffixPart text, ?_⟩
    rw [← List.append_assoc, ← same, pathPart_append_suffixPart]
  · rintro ⟨scheme, listed, rest, rfl⟩
    refine ⟨scheme, listed, pathPart rest, List.takeWhile_append_of_pos ?_⟩
    rcases mem_remoteSchemes.1 listed with rfl | rfl <;> simp [opensSuffix]

theorem forms_of_relative {text : List Char} (relative : isRelative text = true) :
    isRemoteText text = false ∧ isAbsolute text = false := by
  obtain ⟨rest, rfl⟩ : ∃ rest, text = '.' :: rest := by
    rw [isRelative, Bool.or_eq_true, startsWith_iff, startsWith_iff] at relative
    rcases relative with ⟨rest, same⟩ | ⟨rest, same⟩ <;> exact ⟨_, same⟩
  exact ⟨rfl, rfl⟩

section Relative

variable {importer : Specifier} {written : String} (relative : isRelative written.toList = true)

include relative

theorem join?_address {origin path : List Char} (split : splitOrigin? importer.chars = some (origin, path)) :
    importer.join? written = some (ofChars (origin ++ cleaned (directory path ++ '/' :: written.toList))) := by
  obtain ⟨notRemote, notAbsolute⟩ := forms_of_relative relative
  simp [join?, notRemote, notAbsolute, relative, split]

theorem join?_local (notRemote : isRemoteText importer.chars = false) :
    importer.join? written = some (ofChars (cleaned (directory importer.chars ++ '/' :: written.toList))) := by
  obtain ⟨notRemote', notAbsolute⟩ := forms_of_relative relative
  simp [join?, notRemote', notAbsolute, relative, splitOrigin?_eq_none notRemote]

/-- The query of an importer decides nothing about a relative import exactly if there is no slash in it. -/
theorem join?_withoutQuery_iff (withPath : HasPath (pathPart importer.chars)) :
    importer.join? written = importer.withoutQuery.join? written ↔ '/' ∉ suffixPart importer.chars := by
  have parts := pathPart_append_suffixPart importer.chars
  have plain : ∀ c ∈ pathPart importer.chars, opensSuffix c = false := fun _ => plain_pathPart
  have opens := head_suffixPart importer.chars
  have chars : importer.withoutQuery.chars = pathPart importer.chars := chars_ofChars _
  cases remote : isRemoteText importer.chars with
  | false =>
    have remote' : isRemoteText importer.withoutQuery.chars = false := by
      rw [chars, isRemoteText_pathPart, remote]
    rw [join?_local relative remote, join?_local relative remote', Option.some_inj, ofChars_inj, chars,
      ← cleaned_join_eq_iff plain opens, parts]
  | true =>
    obtain ⟨origin, path, is, absolute, whole⟩ := withPath (by rw [isRemoteText_pathPart, remote])
    have nonempty : path ≠ [] := fun empty => by
      rw [empty] at absolute
      cases absolute
    have plain' : ∀ c ∈ path, opensSuffix c = false := fun c member =>
      plain c (whole ▸ List.mem_append_right _ member)
    have split : splitOrigin? importer.chars = some (origin, path ++ suffixPart importer.chars) := by
      have cut := splitOrigin?_append is ((isAbsolute_append nonempty (suffixPart importer.chars)).trans absolute)
      rwa [← List.append_assoc, ← whole, parts] at cut
    have split' : splitOrigin? importer.withoutQuery.chars = some (origin, path) := by
      rw [chars, whole]
      exact splitOrigin?_append is absolute
    rw [join?_address relative split, join?_address relative split', Option.some_inj, ofChars_inj,
      List.append_cancel_left_eq, cleaned_join_eq_iff plain' opens]

end Relative

theorem join?_withoutQuery_iff_address :
    let importer : Specifier := ⟨"https://h/a/b.js?v=1#x"⟩
    HasPath (pathPart importer.chars) ∧ isRelative "../c?y=/z".toList = true ∧
      importer.join? "../c?y=/z" = importer.withoutQuery.join? "../c?y=/z" := by
  intro importer
  have read : parse "https://h/a/b.js" = .ok importer.withoutQuery := by decide +kernel
  have withPath : HasPath (pathPart importer.chars) := by
    rw [← chars_ofChars (pathPart importer.chars)]
    exact hasPath_parse read
  exact ⟨withPath, rfl, (join?_withoutQuery_iff rfl withPath).2 (by decide)⟩

/-- A slash in the query of an importer takes a relative import with it into the query. -/
theorem join?_loses_import : ¬ ∀ (importer : Specifier) (written : String),
    parse importer.text = .ok importer → parse importer.withoutQuery.text = .ok importer.withoutQuery →
    HasPath importer.withoutQuery.chars → isRelative written.toList = true →
    importer.join? written = importer.withoutQuery.join? written := by
  intro all
  have read : parse "/a/b" = .ok (withoutQuery ⟨"/a/b?x=/y"⟩) := by decide +kernel
  have same := all ⟨"/a/b?x=/y"⟩ "./c" (by decide +kernel) (by decide +kernel) (hasPath_parse read) rfl
  exact absurd same (by decide +kernel)

end Specifier

end ModuleBuild
