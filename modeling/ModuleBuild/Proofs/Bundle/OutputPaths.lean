import ModuleBuild.Bundle.Chunk
import ModuleBuild.Proofs.Files.JoinedPaths
/-!
Where chunk files are written. A relative name without a step up leads below any directory, whatever is cleaned
away on both sides. The test for that takes the dot of the working directory for a component, though.
-/

namespace ModuleBuild

namespace Path

variable {directory path : List Char}

theorem steps_forward (forward : .parent ∉ steps path) :
    steps path = ((steps path).map Component.text).map .name := by
  rw [List.map_map]
  refine (List.map_id _).symm.trans (List.map_congr_left fun step member => ?_)
  rcases (mem_steps member).2 with rfl | ⟨text, rfl, -⟩
  · exact absurd member forward
  · rfl

theorem walk_join_forward (directory : List Char) (relative : isAbsolute path = false)
    (forward : .parent ∉ steps path) :
    walk (join directory path) = (steps path).reverse ++ walk directory := by
  rw [walk_join directory relative, steps_forward forward, foldl_names]

/-- What a path below a directory is tested for: to hold, this takes a directory of which something is left. -/
theorem isWithin_clean_join_iff (directory : List Char) (relative : isAbsolute path = false) (forward : .parent ∉ steps path) :
    isWithin (clean directory) (clean (join directory path)) = true ↔
      (walk directory = [] → steps path = []) := by
  rw [isWithin, List.isPrefixOf_iff_prefix, components_clean_eq, components_clean_eq,
    walk_join_forward directory relative forward]
  by_cases nowhere : walk directory = []
  · rw [if_pos nowhere, nowhere, List.append_nil]
    by_cases none : steps path = []
    · simp [none]
    · rw [if_neg (by simpa using none), List.reverse_reverse]
      refine iff_of_false (fun dot => ?_) (fun left => none (left rfl))
      have inside : .current ∈ steps path := dot.subset (List.mem_singleton_self _)
      rcases (mem_steps inside).2 with up | ⟨text, name, -⟩
      · cases up
      · cases name
  · rw [if_neg nowhere, if_neg (by simp [nowhere]), List.reverse_append, List.reverse_reverse]
    exact iff_of_true (List.prefix_append _ _) fun left => absurd left nowhere

theorem parent_mem_components : .parent ∈ components path ↔ .parent ∈ steps path := by
  rw [components_eq_lead, List.mem_append]
  rcases lead_cases path with ⟨-, same⟩ | ⟨-, same | same⟩ <;> simp [same]

end Path

namespace Bundle

open ModuleBuild.Path

theorem all_isPlainStep_iff {file : List Char} (relative : isAbsolute file = false) :
    (components file).all isPlainStep = true ↔ .parent ∉ steps file := by
  have each : ∀ step ∈ steps file, isPlainStep step = true ↔ step ≠ .parent := by
    intro step member
    rcases (mem_steps member).2 with rfl | ⟨text, rfl, -⟩ <;> simp [isPlainStep]
  have plain : (steps file).all isPlainStep = true ↔ .parent ∉ steps file := by
    rw [List.all_eq_true]
    constructor
    · exact fun all member => (each _ member).1 (all _ member) rfl
    · exact fun forward step member => (each step member).2 fun up => forward (up ▸ member)
  rw [components_eq_lead, List.all_append, Bool.and_eq_true, plain]
  refine and_iff_right ?_
  rcases lead_cases file with ⟨absolute, -⟩ | ⟨-, same | same⟩
  · exact absurd absolute (by simp [relative])
  · rw [same]
    rfl
  · rw [same]
    rfl

/-- A file is given a path below a directory if its name is relative and has no step up, but for the working
directory: there the test fails for every name that leads anywhere. -/
theorem outputPath?_eq_some_iff (directory file : List Char) :
    (∀ path, outputPath? directory file = some path ↔
      isAbsolute file = false ∧ .parent ∉ components file ∧
        (clean directory = ['.'] → clean file = ['.']) ∧ path = clean (join directory file)) ∧
    ∀ path ∈ outputPath? directory file, isWithin (clean directory) path = true := by
  refine ⟨fun path => ?_, fun path taken => ?_⟩
  · cases absolute : isAbsolute file with
    | true => simp [outputPath?, absolute]
    | false =>
      rw [parent_mem_components]
      by_cases forward : .parent ∉ steps file
      · have plain := (all_isPlainStep_iff absolute).2 forward
        have leads : clean file = ['.'] ↔ steps file = [] := by
          rw [clean_eq_dot_iff, walk_eq, absolute, steps_forward forward, foldl_names]
          simp
        rw [clean_eq_dot_iff, leads, ← isWithin_clean_join_iff directory absolute forward]
        simp [outputPath?, absolute, plain, forward, @eq_comm _ path]
      · have steps : ¬ (components file).all isPlainStep = true := by rwa [all_isPlainStep_iff absolute]
        simp [outputPath?, steps, forward]
  · rw [Option.mem_def, outputPath?] at taken
    split at taken
    · cases taken
    · obtain ⟨within, same⟩ := Option.ite_none_right_eq_some.1 taken
      exact Option.some.inj same ▸ within

/-- In the working directory, a plain file is refused. -/
theorem outputPath?_working_directory :
    ¬ ∀ directory file : List Char, file ≠ [] →
      ((outputPath? directory file).isSome = true ↔
        isAbsolute file = false ∧ .parent ∉ components file) := by
  intro exact
  have refused : outputPath? ['.'] "main.js".toList = none := by decide
  have taken := (exact ['.'] "main.js".toList (by decide)).2 (by decide)
  rw [refused] at taken
  cases taken

end Bundle

end ModuleBuild
