import ModuleBuild.Files.Tree
import ModuleBuild.Proofs.Specifier.CleanPath
/-!
Files that are written, and what happens to other files meanwhile: a file is where it was written, adding
directories leaves all files alone, and so does writing a file with another name.
-/

namespace ModuleBuild

/-! ## Files below a directory -/

namespace Path

open Text

theorem splitOn_append_separator (separator : Char) (first rest : List Char) :
    splitOn separator (first ++ separator :: rest) = splitOn separator first ++ splitOn separator rest := by
  induction first with
  | nil => simp [splitOn]
  | cons c first ih =>
    rw [List.cons_append, splitOn, splitOn, ih]
    split
    · rfl
    · obtain ⟨part, parts, same⟩ := List.exists_cons_of_ne_nil (@splitOn_ne_nil separator first)
      rw [same]
      rfl

theorem steps_append (first rest : List Char) : steps (first ++ '/' :: rest) = steps first ++ steps rest := by
  rw [steps, splitOn_append_separator, List.filterMap_append]
  rfl

theorem steps_join (directory : List Char) {path : List Char} (relative : isAbsolute path = false) :
    steps (join directory path) = steps directory ++ steps path := by
  unfold join
  rw [relative, Bool.false_or]
  split
  · next empty =>
    rw [List.isEmpty_iff.1 empty]
    rfl
  · split
    · next slash =>
      obtain ⟨before, rfl⟩ := List.getLast?_eq_some_iff.1 slash
      rw [List.append_assoc, List.singleton_append, steps_append, steps_append]
      simp [steps, splitOn, Component.ofPart?]
    · exact steps_append directory path

theorem steps_name {text : List Char} (name : IsName text) : steps text = [.name text] := by
  rw [steps, splitOn_of_notMem name.noSlash, List.filterMap_cons_some (ofPart?_name name), List.filterMap_nil]

theorem isAbsolute_name {text : List Char} (name : IsName text) : isAbsolute text = false := by
  cases text with
  | nil => rfl
  | cons c rest =>
    have first : c ≠ '/' := fun slash => name.noSlash (slash ▸ List.mem_cons_self)
    simp [isAbsolute, first]

theorem components_name {text : List Char} (name : IsName text) : components text = [.name text] := by
  rw [components, isAbsolute_name name, splitOn_of_notMem name.noSlash, List.filterMap_cons_some (ofPart?_name name)]
  simp [name.notCurrent]

theorem isAbsolute_join {directory : List Char} (absolute : isAbsolute directory = true)
    (path : List Char) : isAbsolute (join directory path) = true := by
  cases directory with
  | nil => cases absolute
  | cons c rest =>
    unfold join
    split
    · next either => simpa using either
    · split <;> exact absolute

variable {directory file : List Char} (absolute : isAbsolute directory = true) (name : IsName file)

include absolute

theorem components_of_absolute : components directory = .root :: steps directory := by
  rw [components, if_pos absolute, ← steps]

theorem components_clean : components (clean directory) = (walk directory).reverse := by
  have settled := settled_walk directory
  rw [absolute] at settled
  have nonempty : walk directory ≠ [] := by
    obtain ⟨names, base, place, -, is⟩ := settled
    cases is
    simp [place]
  rw [clean_eq, if_neg nonempty, (settled.components_render nonempty).1]

include name

theorem components_join : components (join directory file) = components directory ++ [.name file] := by
  rw [components_of_absolute (isAbsolute_join absolute file), components_of_absolute absolute,
    steps_join directory (isAbsolute_name name), steps_name name, List.cons_append]

theorem components_clean_join :
    components (clean (join directory file)) = components (clean directory) ++ [.name file] := by
  rw [components_clean (isAbsolute_join absolute file), components_clean absolute, walk,
    components_join absolute name, List.foldl_append]
  exact List.reverse_cons

omit name in
theorem notMem_components_clean : .parent ∉ components (clean directory) := by
  obtain ⟨names, base, place, -, is⟩ := settled_walk directory
  rw [components_clean absolute, place]
  rw [absolute] at is
  cases is
  simp

end Path

/-! ## Names on a path -/

namespace FileTree

open ModuleBuild.Path

def namesOf (steps : List Component) : List String :=
  steps.filterMap fun
    | .name text => some (String.ofList text)
    | _ => none

theorem foldlM_advance (tree : FileTree) (place : List String) {steps : List Component}
    (forward : .parent ∉ steps) : steps.foldlM tree.advance place = .ok (place ++ namesOf steps) := by
  induction steps generalizing place with
  | nil => exact congrArg Except.ok (List.append_nil place).symm
  | cons step rest ih =>
    obtain ⟨notUp, onward⟩ := not_or.1 (mt List.mem_cons.2 forward)
    rw [List.foldlM_cons]
    cases step with
    | parent => exact absurd rfl notUp
    | root => exact ih place onward
    | current => exact ih place onward
    | name text =>
      refine (ih _ onward).trans ?_
      simp [namesOf]

theorem namesOn_ok {tree : FileTree} {path : List Char} {names : List String}
    (place : tree.namesOn path = .ok names) : '\x00' ∉ path ∧ path.isEmpty = false ∧
      ¬ pathLimit < (Utf8.encode path).length ∧ (components path).foldlM tree.advance [] = .ok names := by
  unfold namesOn at place
  split at place
  · cases place
  · next nul =>
    split at place
    · cases place
    · next full =>
      split at place
      · cases place
      · next short => exact ⟨nul, by simpa using full, short, place⟩

theorem namesOn_of_forward {tree : FileTree} {path : List Char} {names : List String}
    (place : tree.namesOn path = .ok names) (forward : .parent ∉ components path) :
    names = namesOf (components path) ∧ ∀ other : FileTree, other.namesOn path = .ok names := by
  obtain ⟨nul, full, short, walked⟩ := namesOn_ok place
  obtain rfl := Except.ok.inj ((foldlM_advance tree [] forward).symm.trans walked)
  refine ⟨List.nil_append _, fun other => ?_⟩
  rw [namesOn, if_neg nul, if_neg (by simp [full]), if_neg short, foldlM_advance other [] forward]

theorem namesOn_concat {tree : FileTree} {path file : List Char} {names : List String}
    {steps : List Component} (place : tree.namesOn path = .ok names)
    (ends : components path = steps ++ [.name file]) : ∃ before, names = before ++ [String.ofList file] := by
  obtain ⟨-, -, -, walked⟩ := namesOn_ok place
  rw [ends, List.foldlM_append] at walked
  cases before : steps.foldlM tree.advance [] with
  | error fault =>
    rw [before] at walked
    cases walked
  | ok names =>
    rw [before] at walked
    cases walked
    exact ⟨names, rfl⟩

end FileTree

/-! ## Writing -/

namespace FileTree

variable {tree after : FileTree} {bytes held : Bytes} {names other : List String}

theorem descend_cons_ok {name : String} {rest : List String} {found : FileTree}
    (there : tree.descend (name :: rest) = .ok found) :
    ∃ entries child, tree = .directory entries ∧ ¬ nameLimit < (Text.bytes name).length ∧
      OrderedMap.lookup name entries = some child ∧ child.descend rest = .ok found := by
  cases tree with
  | file bytes => cases there
  | directory entries =>
    rw [descend] at there
    split at there
    · cases there
    · next short =>
      split at there
      · next child known => exact ⟨entries, child, rfl, short, known, there⟩
      · cases there

theorem descend_assign {name : String} {entries : List (String × FileTree)} {child : FileTree}
    (short : ¬ nameLimit < (Text.bytes name).length) (rest : List String) :
    (directory (OrderedMap.assign name child entries)).descend (name :: rest) = child.descend rest := by
  rw [descend, if_neg short, OrderedMap.lookup_assign, if_pos rfl]

theorem descend_assign_of_ne {name next : String} {entries : List (String × FileTree)} {child : FileTree}
    (differ : name ≠ next) (rest : List String) :
    (directory (OrderedMap.assign name child entries)).descend (next :: rest) =
      (directory entries).descend (next :: rest) := by
  rw [descend, descend, OrderedMap.lookup_assign, if_neg differ]

theorem writeAt_cons_ok {name : String} {rest : List String}
    (written : tree.writeAt bytes (name :: rest) = .ok after) :
    ∃ entries child, tree = .directory entries ∧ ¬ nameLimit < (Text.bytes name).length ∧
      after = .directory (OrderedMap.assign name child entries) ∧
      ((∃ old, OrderedMap.lookup name entries = some old ∧ old.writeAt bytes rest = .ok child) ∨
        OrderedMap.lookup name entries = none ∧ rest = [] ∧ child = .file bytes) := by
  cases tree with
  | file bytes => cases written
  | directory entries =>
    rw [writeAt] at written
    split at written
    · cases written
    · next short =>
      dsimp only at written
      split at written
      · next old known =>
        cases result : old.writeAt bytes rest with
        | error fault =>
          rw [result] at written
          cases written
        | ok child =>
          rw [result] at written
          cases written
          exact ⟨entries, child, rfl, short, rfl, .inl ⟨old, known, result⟩⟩
      · next absent =>
        split at written
        · next last =>
          cases written
          exact ⟨entries, .file bytes, rfl, short, rfl, .inr ⟨absent, List.isEmpty_iff.1 last, rfl⟩⟩
        · cases written

theorem descend_writeAt (written : tree.writeAt bytes names = .ok after) :
    after.descend names = .ok (.file bytes) := by
  induction names generalizing tree after with
  | nil =>
    cases tree with
    | file old =>
      cases written
      rfl
    | directory entries => cases written
  | cons name rest ih =>
    obtain ⟨entries, child, rfl, short, rfl, ⟨old, -, below⟩ | ⟨-, rfl, rfl⟩⟩ := writeAt_cons_ok written
    · rw [descend_assign short]
      exact ih below
    · exact descend_assign short []

theorem descend_writeAt_of_ne (written : tree.writeAt bytes names = .ok after) (differ : other ≠ names)
    (there : tree.descend other = .ok (.file held)) : after.descend other = .ok (.file held) := by
  induction names generalizing tree after other with
  | nil =>
    obtain ⟨next, rest, rfl⟩ := List.exists_cons_of_ne_nil differ
    obtain ⟨entries, -, rfl, -⟩ := descend_cons_ok there
    cases written
  | cons name rest ih =>
    obtain ⟨entries, child, rfl, short, rfl, below⟩ := writeAt_cons_ok written
    cases other with
    | nil => cases there
    | cons next others =>
      by_cases same : name = next
      · subst same
        obtain ⟨_, inner, ⟨⟩, -, known, there'⟩ := descend_cons_ok there
        rw [descend_assign short]
        obtain ⟨old, known', below⟩ := below.resolve_right fun absent => by simp [known] at absent
        obtain rfl := Option.some.inj (known'.symm.trans known)
        exact ih below (fun equal => differ (by rw [equal])) there'
      · rw [descend_assign_of_ne same]
        exact there

theorem descend_addDirectories (there : tree.descend other = .ok (.file held)) :
    (tree.addDirectories names).2.descend other = .ok (.file held) := by
  induction names generalizing tree other with
  | nil =>
    cases tree with
    | file bytes => exact there
    | directory entries => exact there
  | cons name rest ih =>
    cases tree with
    | file bytes => exact there
    | directory entries =>
      rw [addDirectories]
      split
      · exact there
      · next short =>
        cases other with
        | nil => cases there
        | cons next others =>
          by_cases same : name = next
          · subst same
            obtain ⟨_, inner, ⟨⟩, -, known, there'⟩ := descend_cons_ok there
            dsimp only
            rw [descend_assign short, known]
            exact ih there'
          · rw [descend_assign_of_ne same]
            exact there

theorem descend_makeDirectory (path : List Char) (there : tree.descend other = .ok (.file held)) :
    (tree.makeDirectory path).2.descend other = .ok (.file held) := by
  unfold makeDirectory
  split
  · exact there
  · split
    · exact descend_addDirectories there
    · exact there

theorem write_ok {path : List Char} (written : tree.write path bytes = .ok after) :
    endsInDirectory path = false ∧ ∃ names, tree.namesOn path = .ok names ∧
      tree.writeAt bytes names = .ok after := by
  unfold write at written
  split at written
  · cases written
  · next ending =>
    cases place : tree.namesOn path with
    | error fault =>
      rw [place] at written
      cases written
    | ok names =>
      rw [place] at written
      exact ⟨by simpa using ending, names, rfl, written⟩

theorem read_of_descend {path : List Char} (place : tree.namesOn path = .ok names)
    (ending : endsInDirectory path = false) (there : tree.descend names = .ok (.file bytes)) :
    tree.read path = .ok bytes := by
  have found : (tree.namesOn path).bind tree.descend = .ok (.file bytes) := by
    rw [place]
    exact there
  rw [read, find, found]
  simp [ending]

end FileTree

end ModuleBuild
