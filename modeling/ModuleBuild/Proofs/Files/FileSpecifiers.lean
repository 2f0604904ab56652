import ModuleBuild.Project.Sources
import ModuleBuild.Proofs.Files.Writes
import ModuleBuild.Proofs.Specifier.Canonical
import ModuleBuild.Proofs.Text.Encoding
/-!
Files under the specifiers that their paths make. A path is read as a specifier like any other text: blanks at
its end are dropped, and a mark in it opens a query. What is loaded is therefore the file itself exactly if its
path has neither.
-/

namespace ModuleBuild

namespace Text

theorem last_of_trimmed {text : List Char} (same : trimmed text = text) :
    ∀ c ∈ text.getLast?, isBlank c = false := by
  intro c last
  rw [← same, trimmed, List.getLast?_reverse] at last
  obtain ⟨more, cut⟩ := List.head?_eq_some_iff.1 last
  exact of_dropWhile_eq_cons cut

end Text

namespace Specifier

open Text Utf8 ModuleBuild.Path

/-- A path without a mark of a query and without a blank at its end. -/
structure IsPlain (path : List Char) : Prop where
  unmarked : ∀ c ∈ path, opensSuffix c = false
  unblanked : ∀ c ∈ path.getLast?, isBlank c = false

theorem ofPath_encode (path : List Char) : ofPath (encode path) = parse (String.ofList path) := by
  rw [ofPath, decodeLenient, pieces_encode, List.map_map]
  exact congrArg (fun text => parse (String.ofList text)) (List.map_id path)

variable {path : List Char} (absolute : isAbsolute path = true)

include absolute

/-- The specifier of a file has its path, cleaned up to the first mark, without blanks at the end. -/
theorem ofPath_of_absolute : ofPath (encode path) = .ok (ofChars (cleaned (trimmed path))) :=
  (ofPath_encode path).trans (parse_of_absolute absolute)

/-- The path in the specifier of a file is the file's own exactly if that is plain. -/
theorem pathPart_cleaned_eq_iff (clean : Path.clean path = path) :
    pathPart (cleaned (trimmed path)) = path ↔ IsPlain path := by
  rw [(parts_cleaned _).1]
  constructor
  · intro same
    have trims := isAbsolute_trimmed absolute
    have nonempty : pathPart (trimmed path) ≠ [] := fun empty => by
      have rooted := isAbsolute_pathPart (trimmed path)
      rw [empty, trims] at rooted
      cases rooted
    -- nothing that is dropped is made up for, so nothing was dropped
    have cut : (pathPart (trimmed path)).Sublist (trimmed path) := List.takeWhile_sublist _
    have short := length_clean_le nonempty
    have whole : pathPart (trimmed path) = path :=
      (cut.trans (trimmed_sublist path)).eq_of_length_le (by rw [same] at short; exact short)
    have trimmed_eq : trimmed path = path :=
      (trimmed_sublist path).eq_of_length_le (by rw [← congrArg List.length whole]; exact cut.length_le)
    exact ⟨fun c member => plain_pathPart (whole.symm ▸ member), last_of_trimmed trimmed_eq⟩
  · rintro ⟨unmarked, unblanked⟩
    have first : ∀ c ∈ path.head?, isBlank c = false := by
      intro c head
      rw [isAbsolute, head, beq_iff_eq, Option.some.injEq] at absolute
      subst absolute
      rfl
    have whole : pathPart path = path :=
      List.takeWhile_eq_self_iff.2 fun c member => by rw [unmarked c member]; rfl
    rw [trimmed_eq_self first unblanked, whole, clean]

end Specifier

namespace FileTree

open ModuleBuild.Path

variable {tree : FileTree} {path : List Char} {bytes found : Bytes} {names other : List String}

theorem read_ok (is : tree.read path = .ok bytes) : endsInDirectory path = false ∧
    ∃ names, tree.namesOn path = .ok names ∧ tree.descend names = .ok (.file bytes) := by
  unfold read at is
  split at is
  · next held there =>
    obtain rfl := Except.ok.inj is
    unfold find at there
    split at there
    · next bytes' place =>
      split at there
      · cases there
      · next ending =>
        cases there
        obtain ⟨names, on, below⟩ : ∃ names, tree.namesOn path = .ok names ∧
            tree.descend names = .ok (.file held) := by
          cases on : tree.namesOn path with
          | error fault =>
            rw [on] at place
            cases place
          | ok names =>
            rw [on] at place
            exact ⟨names, rfl, place⟩
        exact ⟨by simpa using ending, names, on, below⟩
    · next none => exact absurd there (none held)
  · cases is
  · cases is

/-! ## Trees with one file -/

def only (bytes : Bytes) : List String → FileTree
  | [] => .file bytes
  | name :: rest => .directory [(name, only bytes rest)]

theorem descend_only (there : tree.descend names = .ok (.file found)) :
    (only bytes names).descend names = .ok (.file bytes) := by
  induction names generalizing tree with
  | nil => rfl
  | cons name rest ih =>
    obtain ⟨entries, child, -, short, -, below⟩ := descend_cons_ok there
    rw [only, descend, if_neg short, OrderedMap.lookup, if_pos rfl]
    exact ih below

theorem eq_of_descend_only (there : (only bytes names).descend other = .ok (.file found)) : other = names := by
  induction names generalizing other with
  | nil =>
    cases other with
    | nil => rfl
    | cons => cases there
  | cons name rest ih =>
    cases other with
    | nil => cases there
    | cons next others =>
      obtain ⟨entries, child, same, -, known, below⟩ := descend_cons_ok there
      obtain rfl := FileTree.directory.inj same
      rw [OrderedMap.lookup] at known
      split at known
      · next equal =>
        obtain rfl := Option.some.inj known
        rw [equal, ih below]
      · cases known

theorem clean_eq_of_namesOf {first second : List Char} (absolute : isAbsolute first = true)
    (absolute' : isAbsolute second = true)
    (same : namesOf (components (clean first)) = namesOf (components (clean second))) :
    clean first = clean second := by
  -- a cleaned absolute path is its names, each after a slash
  have form {path : List Char} (absolute : isAbsolute path = true) : ∃ texts : List (List Char),
      namesOf (components (clean path)) = texts.map String.ofList ∧
        clean path = render (.root :: texts.map .name) := by
    have settled := settled_walk path
    rw [absolute] at settled
    obtain ⟨texts, base, place, -, is⟩ := settled.reversed
    cases is
    refine ⟨texts, ?_, ?_⟩
    · rw [components_clean absolute, place]
      simp [namesOf, List.filterMap_map]
    · rw [clean_eq, if_neg fun empty => by simp [empty] at place, place]
      rfl
  obtain ⟨texts, names, is⟩ := form absolute
  obtain ⟨texts', names', is'⟩ := form absolute'
  rw [names, names'] at same
  rw [is, is', List.map_injective_iff.2 (fun a b equal => String.ofList_inj.1 equal) same]

end FileTree

namespace Files

open Specifier ModuleBuild.Path

/-- The file at a path is what is loaded under the specifier of the path. -/
def Loads (files : FileTree) (path : List Char) (bytes : Bytes) : Prop :=
  ∃ specifier kind, Specifier.ofPath (Utf8.encode path) = .ok specifier ∧
    sourceAt? files specifier = some (.source ⟨bytes, kind⟩)

variable {path : List Char} (absolute : isAbsolute path = true)

include absolute

theorem loads_iff_read (files : FileTree) (bytes : Bytes) :
    Loads files path bytes ↔ files.read (pathPart (cleaned (Text.trimmed path))) = .ok bytes := by
  have read := ofPath_of_absolute absolute
  have rooted : isAbsolute (cleaned (Text.trimmed path)) = true :=
    (isAbsolute_cleaned _).trans (isAbsolute_trimmed absolute)
  generalize cleaned (Text.trimmed path) = text at read rooted ⊢
  have notRemote : ¬ (ofChars text).isRemote = true := by
    rw [isRemote, chars_ofChars, notRemote_of_absolute rooted]
    exact Bool.false_ne_true
  have named : ¬ (!isPath (ofChars text)) = true := by
    rw [isPath, chars_ofChars, rooted]
    exact Bool.false_ne_true
  constructor
  · rintro ⟨specifier, kind, is, loaded⟩
    obtain rfl := Except.ok.inj (read.symm.trans is)
    rw [sourceAt?, if_neg notRemote, if_neg named, chars_ofChars] at loaded
    split at loaded
    · next held there =>
      obtain ⟨rfl, -⟩ := Source.mk.inj (SourceEntry.source.inj (Option.some.inj loaded))
      exact there
    · cases loaded
    · cases loaded
  · intro there
    refine ⟨_, SourceKind.ofSpecifier (ofChars text), read, ?_⟩
    rw [sourceAt?, if_neg notRemote, if_neg named, chars_ofChars, there]

/-- A file is loaded under the specifier of its path, whatever is in the tree, exactly if the path is plain. -/
theorem loads_iff_isPlain (clean : Path.clean path = path) {files : FileTree} {held : Bytes}
    (there : files.read path = .ok held) :
    (∀ (files : FileTree) (bytes : Bytes), files.read path = .ok bytes → Loads files path bytes) ↔
      IsPlain path := by
  rw [← pathPart_cleaned_eq_iff absolute clean]
  constructor
  · intro all
    -- in a tree with this file alone, only its own path leads to it
    obtain ⟨ending, names, place, below⟩ := FileTree.read_ok there
    have forward := notMem_components_clean absolute
    rw [clean] at forward
    obtain ⟨rfl, everywhere⟩ := FileTree.namesOn_of_forward place forward
    have own : (FileTree.only held (FileTree.namesOf (components path))).read path = .ok held :=
      FileTree.read_of_descend (everywhere _) ending (FileTree.descend_only below)
    obtain ⟨-, names, place', below'⟩ := FileTree.read_ok ((loads_iff_read absolute _ _).1 (all _ _ own))
    have same := FileTree.eq_of_descend_only below'
    rw [(parts_cleaned _).1] at place' ⊢
    have trims := (isAbsolute_pathPart _).trans (isAbsolute_trimmed absolute)
    obtain ⟨rfl, -⟩ := FileTree.namesOn_of_forward place' (notMem_components_clean trims)
    exact (FileTree.clean_eq_of_namesOf trims absolute (by rw [clean, same])).trans clean
  · intro same files bytes there
    rw [loads_iff_read absolute, same]
    exact there

omit absolute

/-- A file with a blank inside its name and dots around it. -/
def spacedFile : FileTree := .only [65] ["my dir", ".a b.js."]

theorem loads_iff_isPlain_spaced : isAbsolute "/my dir/.a b.js.".toList = true ∧
    Path.clean "/my dir/.a b.js.".toList = "/my dir/.a b.js.".toList ∧
    spacedFile.read "/my dir/.a b.js.".toList = .ok [65] ∧
    Loads spacedFile "/my dir/.a b.js.".toList [65] := by
  have clean : Path.clean "/my dir/.a b.js.".toList = "/my dir/.a b.js.".toList := by decide +kernel
  have there : spacedFile.read "/my dir/.a b.js.".toList = .ok [65] := by decide +kernel
  have plain : IsPlain "/my dir/.a b.js.".toList := by
    constructor
    · simp [opensSuffix]
    · rintro c ⟨⟩
      rfl
  exact ⟨rfl, clean, there, (loads_iff_isPlain rfl clean there).2 plain _ _ there⟩

/-- A file with a mark or a last blank in its name is not loaded under the specifier of its path. -/
theorem marked_files_are_not_loaded : ¬ ∀ (files : FileTree) (path : List Char) (bytes : Bytes),
    isAbsolute path = true → Path.clean path = path → files.read path = .ok bytes → Loads files path bytes := by
  intro all
  have loaded := all (.only [65] ["a?b"]) "/a?b".toList [65] rfl (by decide +kernel) (by decide +kernel)
  exact absurd ((loads_iff_read rfl _ _).1 loaded) (by decide +kernel)

end Files

end ModuleBuild
