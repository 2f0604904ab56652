import ModuleBuild.Config.Discovery
import ModuleBuild.Proofs.Files.FileSpecifiers
import ModuleBuild.Proofs.Files.JoinedPaths
import ModuleBuild.Proofs.Specifier.Joining
/-!
Where the root of a project leads, for every way to write the path of its settings file. It is taken from the
directory of the file, which all spellings have in common. A lone name has no directory to be seen, though, and
then the root of the discovery stands in for it.
-/

namespace ModuleBuild

open Text ModuleBuild.Path

namespace FileTree

variable {tree : FileTree} {path first second directory file : List Char} {names : List String} {bytes : Bytes}

theorem descend_dropLast {entries : List (String × FileTree)}
    (there : tree.descend names = .ok (.directory entries)) :
    ∃ above, tree.descend names.dropLast = .ok (.directory above) := by
  induction names generalizing tree with
  | nil => exact ⟨entries, there⟩
  | cons name rest ih =>
    obtain ⟨held, child, rfl, short, known, below⟩ := descend_cons_ok there
    cases rest with
    | nil => exact ⟨held, rfl⟩
    | cons next others =>
      obtain ⟨above, found⟩ := ih below
      refine ⟨above, ?_⟩
      rw [List.dropLast_cons_of_ne_nil (List.cons_ne_nil _ _), descend, if_neg short, known]
      exact found

theorem foldlM_advance_walk {steps place : List Component} (within : ∀ step ∈ steps, IsStep step)
    (settled : Path.Settled true place) (walked : steps.foldlM tree.advance (namesOf place.reverse) = .ok names) :
    names = namesOf (steps.foldl Path.advance place).reverse := by
  induction steps generalizing place with
  | nil => exact (Except.ok.inj walked).symm
  | cons step rest ih =>
    obtain ⟨is, later⟩ := List.forall_mem_cons.1 within
    rw [List.foldlM_cons] at walked
    rcases is with rfl | ⟨text, rfl, name⟩
    · have up : (namesOf place.reverse).dropLast = namesOf (Path.advance place .parent).reverse := by
        obtain ⟨names, base, rfl, -, is⟩ := settled
        cases is
        cases names with
        | nil => rfl
        | cons name names => simp [namesOf, Path.advance, List.filterMap_append]
      rw [advance] at walked
      split at walked
      · exact ih later settled.parent (up ▸ walked)
      · cases walked
      · cases walked
    · have on : namesOf place.reverse ++ [String.ofList text] =
          namesOf (Path.advance place (.name text)).reverse := by
        simp [namesOf, Path.advance, List.filterMap_append]
      exact ih later (settled.name name) (on ▸ walked)

theorem clean_eq_of_place (absolute : isAbsolute first = true) (absolute' : isAbsolute second = true)
    (place : tree.namesOn first = .ok names) (place' : tree.namesOn second = .ok names) :
    clean first = clean second := by
  have names_eq {path : List Char} (absolute : isAbsolute path = true) (place : tree.namesOn path = .ok names) :
      names = namesOf (components (clean path)) := by
    obtain ⟨-, -, -, walked⟩ := namesOn_ok place
    rw [components_of_absolute absolute] at walked
    rw [components_clean absolute, walk_eq, if_pos absolute]
    exact foldlM_advance_walk (fun step => isStep_of_mem_steps) ⟨[], [.root], rfl, by simp, .root⟩ walked
  exact clean_eq_of_namesOf absolute absolute' ((names_eq absolute place).symm.trans (names_eq absolute' place'))

theorem descend_of_parent {steps : List Component} {place : List String}
    (walked : (steps ++ [Component.parent]).foldlM tree.advance place = .ok names) :
    ∃ entries, tree.descend names = .ok (.directory entries) := by
  rw [List.foldlM_append] at walked
  cases inner : steps.foldlM tree.advance place with
  | error fault =>
    rw [inner] at walked
    cases walked
  | ok below =>
    rw [inner] at walked
    change (tree.advance below Component.parent >>= pure) = .ok names at walked
    rw [advance] at walked
    split at walked
    · next entries there =>
      obtain rfl := Except.ok.inj walked
      exact descend_dropLast there
    · cases walked
    · cases walked

theorem last_of_read (absolute : isAbsolute path = true) (is : tree.read path = .ok bytes) :
    ∃ text, (splitOn '/' path).getLast? = some text ∧ IsName text := by
  obtain ⟨ending, names, place, there⟩ := read_ok is
  have slash : '/' ∈ path := by
    cases path with
    | nil => cases absolute
    | cons c rest => simp_all [isAbsolute]
  obtain ⟨before, text, rfl, noSlash⟩ := exists_last slash
  have parts : splitOn '/' (before ++ '/' :: text) = splitOn '/' before ++ [text] := by
    rw [splitOn_append_separator, splitOn_of_notMem noSlash]
  rw [endsInDirectory, splitLast?_append before noSlash] at ending
  refine ⟨text, by rw [parts]; simp, ?_, ?_, ?_, noSlash⟩
  · rintro rfl
    cases ending
  · rintro rfl
    cases ending
  · rintro rfl
    obtain ⟨-, -, -, walked⟩ := namesOn_ok place
    have ends : components (before ++ '/' :: ['.', '.']) = (.root :: steps before) ++ [.parent] := by
      rw [components_of_absolute absolute, steps_append]
      rfl
    rw [ends] at walked
    obtain ⟨entries, found⟩ := descend_of_parent walked
    rw [there] at found
    cases found

theorem steps_of_read (absolute : isAbsolute directory = true)
    (is : tree.read (join directory file) = .ok bytes) : ∃ before text, steps file = before ++ [.name text] := by
  have last : ∃ text, (splitOn '/' file).getLast? = some text ∧ IsName text := by
    cases given : isAbsolute file with
    | true =>
      rw [join_of_absolute _ given] at is
      exact last_of_read given is
    | false =>
      obtain ⟨text, last, name⟩ := last_of_read (isAbsolute_join absolute file) is
      rw [getLast?_splitOn_join given] at last
      · exact ⟨text, last, name⟩
      · rintro rfl
        cases absolute
  obtain ⟨text, last, name⟩ := last
  obtain ⟨parts, whole⟩ := List.getLast?_eq_some_iff.1 last
  refine ⟨parts.filterMap Component.ofPart?, text, ?_⟩
  rw [steps, whole, List.filterMap_append, List.filterMap_cons_some (ofPart?_name name), List.filterMap_nil]

end FileTree

namespace Config.Discovery

variable {files : FileTree} {discovery : Discovery} {file other : List Char} {names : List String}

/-- The directory of a path, cleaned. -/
def home (path : List Char) : List Char := (parent? (clean path)).getD []

theorem home_eq {path parent : List Char} {text : List Char} (absolute : isAbsolute parent = true)
    (leads : walk path = .name text :: walk parent) : home path = clean parent := by
  have inside : walk parent ≠ [] := by
    obtain ⟨names, base, place, -, is⟩ := settled_walk parent
    rw [absolute] at is
    cases is
    simp [place]
  have ends : components (clean path) = (walk path).reverse := by
    rw [components_clean_eq, if_neg (by simp [leads])]
  rw [home, parent?, ends, leads, List.reverse_reverse, clean_eq, if_neg inside]
  rfl

theorem isFile_ok (there : discovery.isFile files file = true) :
    ∃ bytes, files.read (join discovery.workingDirectory file) = .ok bytes := by
  rw [isFile, FileTree.isFile] at there
  cases is : files.read (join discovery.workingDirectory file) with
  | error fault =>
    rw [is] at there
    cases there
  | ok bytes => exact ⟨bytes, rfl⟩

/-- The root is taken from the directory of the settings file, or from the root of the discovery if the file is
given by its name alone. -/
theorem absoluteRoot_of_file (absolute : isAbsolute discovery.workingDirectory = true)
    (there : discovery.isFile files file = true) (configured : List Char) :
    ({ discovery with file? := some file } : Discovery).absoluteRoot files configured =
      if parent? file = some [] then
        clean (join (join discovery.workingDirectory discovery.root) configured)
      else clean (join (home (join discovery.workingDirectory file)) configured) := by
  obtain ⟨bytes, is⟩ := isFile_ok there
  obtain ⟨before, text, ends⟩ := FileTree.steps_of_read absolute is
  obtain ⟨parent, known, leads⟩ := parent?_of_steps ends
  rw [absoluteRoot, find?, Option.bind_some, known, home_eq (isAbsolute_join absolute parent) (leads _),
    clean_join_clean]
  cases parent with
  | nil => simp
  | cons c rest => simp

theorem extract_eq {environment : List (String × String)} {overrides : Overrides} {settings : Value}
    {config : Config} (read : discovery.layers files environment overrides = .ok settings)
    (means : settings.toConfig? = some config) :
    discovery.extract files environment overrides =
      .ok { config with root := discovery.absoluteRoot files config.root } := by
  rw [extract, read]
  dsimp only
  rw [means]

/-- Discoveries that read the same settings give the same configuration exactly if they find the same root. -/
theorem extract_congr_iff {first second : Discovery} {environment : List (String × String)}
    {overrides : Overrides}
    (layers : first.layers files environment overrides = second.layers files environment overrides) :
    first.extract files environment overrides = second.extract files environment overrides ↔
      ∀ settings config, first.layers files environment overrides = .ok settings →
        settings.toConfig? = some config →
        first.absoluteRoot files config.root = second.absoluteRoot files config.root := by
  cases read : first.layers files environment overrides with
  | error error => simp [extract, ← layers, read]
  | ok settings =>
    cases means : settings.toConfig? with
    | none =>
      refine iff_of_true (by simp [extract, ← layers, read, means]) ?_
      rintro _ config ⟨⟩ found
      cases means.symm.trans found
    | some config =>
      rw [extract_eq read means, extract_eq (layers ▸ read) means]
      constructor
      · rintro same _ config' ⟨⟩ found
        obtain rfl := Option.some.inj (means.symm.trans found)
        exact congrArg Config.root (Except.ok.inj same)
      · intro same
        rw [same settings config rfl means]

section Spellings

variable (there : discovery.isFile files file = true) (there' : discovery.isFile files other = true)
  (place : files.namesOn (join discovery.workingDirectory file) = .ok names)
  (place' : files.namesOn (join discovery.workingDirectory other) = .ok names)
  (environment : List (String × String)) (overrides : Overrides)

include there there' place place'

theorem layers_of_spellings :
    ({ discovery with file? := some file } : Discovery).layers files environment overrides =
      ({ discovery with file? := some other } : Discovery).layers files environment overrides := by
  obtain ⟨bytes, is⟩ := isFile_ok there
  obtain ⟨bytes', is'⟩ := isFile_ok there'
  have same : bytes = bytes' := by
    obtain ⟨-, names₁, place₁, held⟩ := FileTree.read_ok is
    obtain ⟨-, names₂, place₂, held'⟩ := FileTree.read_ok is'
    obtain rfl := Except.ok.inj (place.symm.trans place₁)
    obtain rfl := Except.ok.inj (place'.symm.trans place₂)
    simpa using held.symm.trans held'
  have read : ({ discovery with file? := some file } : Discovery).readFile? files file =
      ({ discovery with file? := some other } : Discovery).readFile? files other := by
    rw [readFile?, readFile?, is, is', same]
  have isFile (path : List Char) : ({ discovery with file? := some path } : Discovery).isFile files path =
      discovery.isFile files path := rfl
  simp only [layers, find?, isFile, there, there', read, if_true]

/-- Two spellings of one settings file give the same configuration exactly if the file is given by its name
alone in both or in neither of them, or if it makes no difference whether the root is taken from the root of the
discovery; otherwise the root is taken from the directory of the file. -/
theorem extract_spellings_iff (absolute : isAbsolute discovery.workingDirectory = true) :
    let first : Discovery := { discovery with file? := some file }
    let second : Discovery := { discovery with file? := some other }
    let outside (configured : List Char) :=
      clean (join (join discovery.workingDirectory discovery.root) configured)
    let beside (configured : List Char) :=
      clean (join (home (join discovery.workingDirectory file)) configured)
    (first.extract files environment overrides = second.extract files environment overrides ↔
      ∀ settings config, first.layers files environment overrides = .ok settings →
        settings.toConfig? = some config →
        ((parent? file = some [] ↔ parent? other = some []) ∨ outside config.root = beside config.root)) ∧
    ∀ settings config, first.layers files environment overrides = .ok settings →
      settings.toConfig? = some config →
      (first.extract files environment overrides = .ok { config with root := beside config.root } ↔
        (parent? file = some [] → outside config.root = beside config.root)) := by
  intro first second outside beside
  have layers : first.layers files environment overrides = second.layers files environment overrides :=
    layers_of_spellings there there' place place' environment overrides
  have root (configured : List Char) : first.absoluteRoot files configured =
      if parent? file = some [] then outside configured else beside configured :=
    absoluteRoot_of_file absolute there configured
  -- both spellings have one directory
  have root' (configured : List Char) : second.absoluteRoot files configured =
      if parent? other = some [] then outside configured else beside configured := by
    refine (absoluteRoot_of_file absolute there' configured).trans ?_
    rw [home, FileTree.clean_eq_of_place (isAbsolute_join absolute other) (isAbsolute_join absolute file) place'
      place]
    rfl
  refine ⟨?_, fun settings config read means => ?_⟩
  · rw [extract_congr_iff layers]
    refine forall_congr' fun settings => forall_congr' fun config => imp_congr_right fun _ =>
      imp_congr_right fun _ => ?_
    rw [root, root']
    by_cases alone : parent? file = some [] <;> by_cases alone' : parent? other = some [] <;>
      simp [alone, alone', eq_comm]
  · rw [extract_eq read means, root]
    split
    · next alone => simp [alone]
    · next known => simp [known]

end Spellings

/-- A settings file in the working directory, which is not the root that is looked through. -/
def lonely : FileTree := .only [] ["w", "kiln.toml"]

def beyond : Discovery := { workingDirectory := "/w".toList, root := "p".toList }

theorem extract_spellings_iff_dotted :
    beyond.isFile lonely "./kiln.toml".toList = true ∧ beyond.isFile lonely "/w/kiln.toml".toList = true ∧
    lonely.namesOn (join beyond.workingDirectory "./kiln.toml".toList) = .ok ["w", "kiln.toml"] ∧
    lonely.namesOn (join beyond.workingDirectory "/w/kiln.toml".toList) = .ok ["w", "kiln.toml"] ∧
    isAbsolute beyond.workingDirectory = true ∧
    ({ beyond with file? := some "./kiln.toml".toList } : Discovery).extract lonely [] {} =
      ({ beyond with file? := some "/w/kiln.toml".toList } : Discovery).extract lonely [] {} := by
  have there : beyond.isFile lonely "./kiln.toml".toList = true := by decide +kernel
  have there' : beyond.isFile lonely "/w/kiln.toml".toList = true := by decide +kernel
  have place : lonely.namesOn (join beyond.workingDirectory "./kiln.toml".toList) = .ok ["w", "kiln.toml"] := by
    rfl
  have place' : lonely.namesOn (join beyond.workingDirectory "/w/kiln.toml".toList) = .ok ["w", "kiln.toml"] := by
    rfl
  have absolute : isAbsolute beyond.workingDirectory = true := by decide
  refine ⟨there, there', place, place', absolute, ?_⟩
  exact (extract_spellings_iff there there' place place' [] {} absolute).1.2
    fun settings config _ _ => .inl (by decide +kernel)

/-- A settings file given by its name alone makes the root of the discovery count. -/
theorem lone_name_moves_root :
    ¬ ∀ (files : FileTree) (discovery : Discovery) (file other : List Char) (names : List String)
      (environment : List (String × String)) (overrides : Overrides),
      isAbsolute discovery.workingDirectory = true →
      discovery.isFile files file = true → discovery.isFile files other = true →
      files.namesOn (join discovery.workingDirectory file) = .ok names →
      files.namesOn (join discovery.workingDirectory other) = .ok names →
      ({ discovery with file? := some file } : Discovery).extract files environment overrides =
        ({ discovery with file? := some other } : Discovery).extract files environment overrides := by
  intro same
  have equal := same lonely beyond "kiln.toml".toList "./kiln.toml".toList ["w", "kiln.toml"] [] {}
    (by decide) (by decide +kernel) (by decide +kernel) rfl rfl
  have roots := congrArg (fun result => result.toOption.map (·.root)) equal
  revert roots
  decide +kernel

end Config.Discovery

end ModuleBuild
