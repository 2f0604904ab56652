import ModuleBuild.Proofs.Files.Writes
/-!
Paths below a directory, as text alone: a relative path leads on from where its directory leads to, and a path
leads one name further than its parent.
-/

namespace ModuleBuild.Path

open Text

variable {path : List Char} {step : Component} {before : List Component}

/-! ## Components -/

def lead (path : List Char) : List Component :=
  if isAbsolute path then [.root]
  else if (splitOn '/' path).head? = some ['.'] then [.current]
  else []

theorem components_eq_lead (path : List Char) : components path = lead path ++ steps path := by
  rw [components, lead, ← steps]
  split
  · rfl
  · split
    · rfl
    · rfl

theorem lead_cases (path : List Char) : isAbsolute path = true ∧ lead path = [.root] ∨
    isAbsolute path = false ∧ (lead path = [.current] ∨ lead path = []) := by
  unfold lead
  cases isAbsolute path with
  | true => exact .inl ⟨rfl, rfl⟩
  | false =>
    refine .inr ⟨rfl, ?_⟩
    rw [if_neg Bool.false_ne_true]
    split
    · exact .inl rfl
    · exact .inr rfl

def IsStep (step : Component) : Prop := step = .parent ∨ ∃ text, step = .name text ∧ IsName text

theorem isStep_of_mem_steps (member : step ∈ steps path) : IsStep step := (mem_steps member).2

theorem IsStep.text (is : IsStep step) :
    step.text ≠ [] ∧ '/' ∉ step.text ∧ Component.ofPart? step.text = some step := by
  rcases is with rfl | ⟨text, rfl, name⟩
  · decide
  · exact ⟨name.nonempty, name.noSlash, ofPart?_name name⟩

theorem filterMap_text (within : ∀ step ∈ before, IsStep step) :
    (before.map Component.text).filterMap Component.ofPart? = before := by
  induction before with
  | nil => rfl
  | cons step rest ih =>
    obtain ⟨first, within⟩ := List.forall_mem_cons.1 within
    rw [List.map_cons, List.filterMap_cons_some first.text.2.2, ih within]

theorem isAbsolute_of_splitOn {part : List Char} {more : List (List Char)}
    (parts : splitOn '/' path = part :: more) (full : part ≠ []) : isAbsolute path = false := by
  refine Bool.eq_false_iff.2 fun absolute => ?_
  obtain ⟨next, rest, parts'⟩ := isAbsolute_iff.1 absolute
  exact full (List.cons.inj (parts.symm.trans parts')).1

/-- The first components of a path are written as a path that has just these steps. -/
theorem render_lead (path : List Char) (within : ∀ step ∈ before, IsStep step) :
    isAbsolute (render (lead path ++ before)) = isAbsolute path ∧
      steps (render (lead path ++ before)) = before := by
  have noSlash : ∀ step ∈ before, '/' ∉ step.text := fun step member => (within step member).text.2.1
  have same := filterMap_text within
  rcases lead_cases path with ⟨absolute, first⟩ | ⟨relative, first | first⟩
  · rw [absolute, first]
    cases before with
    | nil => decide
    | cons step rest =>
      have parts := @splitOn_render (.root :: step :: rest) (by simp) (by simp)
        (List.forall_mem_cons.2 ⟨by decide, noSlash⟩)
      rw [List.singleton_append, isAbsolute_iff, steps, parts]
      exact ⟨⟨_, _, rfl⟩, same⟩
  · rw [relative, first]
    have parts := @splitOn_render (.current :: before) (by simp) (by simp)
      (List.forall_mem_cons.2 ⟨by decide, noSlash⟩)
    rw [List.singleton_append, steps, parts]
    exact ⟨isAbsolute_of_splitOn parts (by decide), same⟩
  · rw [relative, first, List.nil_append]
    cases before with
    | nil => decide
    | cons step rest =>
      obtain ⟨full, -, -⟩ := (within step List.mem_cons_self).text
      have notRoot : step ≠ .root := by
        rintro rfl
        exact full rfl
      have parts := @splitOn_render (step :: rest) (by simp) (by simp [notRoot]) noSlash
      rw [steps, parts]
      exact ⟨isAbsolute_of_splitOn parts full, same⟩

/-! ## Joining and cleaning -/

theorem isAbsolute_join_of_relative (directory : List Char) (relative : isAbsolute path = false) :
    isAbsolute (join directory path) = isAbsolute directory := by
  cases directory with
  | nil => exact (congrArg isAbsolute (show join [] path = path by simp [join])).trans relative
  | cons c rest =>
    unfold join
    rw [relative]
    split
    · next empty => simp at empty
    · split <;> rfl

theorem join_of_absolute (directory : List Char) (absolute : isAbsolute path = true) :
    join directory path = path := by
  simp [join, absolute]

theorem getLast?_splitOn_join {directory : List Char} (relative : isAbsolute path = false)
    (nonempty : directory ≠ []) : (splitOn '/' (join directory path)).getLast? = (splitOn '/' path).getLast? := by
  have last (before : List Char) :
      (splitOn '/' (before ++ '/' :: path)).getLast? = (splitOn '/' path).getLast? := by
    rw [splitOn_append_separator, List.getLast?_append, List.getLast?_eq_some_getLast (splitOn_ne_nil path),
      Option.some_or]
  unfold join
  rw [relative, if_neg (by simpa using nonempty)]
  split
  · next slash =>
    obtain ⟨before, rfl⟩ := List.getLast?_eq_some_iff.1 slash
    rw [List.append_assoc]
    exact last before
  · exact last directory

theorem walk_join (directory : List Char) (relative : isAbsolute path = false) :
    walk (join directory path) = (steps path).foldl advance (walk directory) := by
  rw [walk_eq, walk_eq directory, isAbsolute_join_of_relative directory relative,
    steps_join directory relative, List.foldl_append]

theorem clean_congr {first second : List Char} (same : walk first = walk second) :
    clean first = clean second := by
  rw [clean_eq, clean_eq, same]

theorem clean_join_clean (directory path : List Char) :
    clean (join (clean directory) path) = clean (join directory path) := by
  cases absolute : isAbsolute path with
  | true => rw [join_of_absolute _ absolute, join_of_absolute _ absolute]
  | false => exact clean_congr (by rw [walk_join _ absolute, walk_join _ absolute, walk_clean])

theorem current_notMem_walk (path : List Char) : .current ∉ walk path := by
  intro here
  rcases mem_walk here with root | member
  · cases root
  · rcases isStep_of_mem_steps member with up | ⟨text, name, -⟩
    · cases up
    · cases name

theorem components_clean_eq (path : List Char) :
    components (clean path) = if walk path = [] then [.current] else (walk path).reverse := by
  rw [clean_eq]
  split
  · rfl
  · next leads => exact ((settled_walk path).components_render leads).1

theorem clean_eq_dot_iff : clean path = ['.'] ↔ walk path = [] := by
  constructor
  · intro dot
    have steps := components_clean_eq path
    rw [dot] at steps
    split at steps
    · next nowhere => exact nowhere
    · refine absurd (List.mem_reverse.1 ?_) (current_notMem_walk path)
      rw [← steps]
      exact List.mem_singleton_self _
  · intro nowhere
    rw [clean_eq, if_pos nowhere]

/-! ## Parents -/

/-- A path leads one name further than its parent, and so it does from any directory. -/
theorem parent?_of_steps {text : List Char} (ends : steps path = before ++ [.name text]) :
    ∃ parent, parent? path = some parent ∧
      ∀ directory, walk (join directory path) = .name text :: walk (join directory parent) := by
  have within : ∀ step ∈ before, IsStep step := fun step member =>
    isStep_of_mem_steps (ends ▸ List.mem_append_left _ member)
  obtain ⟨same, steps'⟩ := render_lead path within
  refine ⟨render (lead path ++ before), ?_, fun directory => ?_⟩
  · rw [parent?, components_eq_lead, ends, ← List.append_assoc, List.reverse_concat]
    simp
  · have last (place : List Component) : (before ++ [Component.name text]).foldl advance place =
        .name text :: before.foldl advance place := by
      rw [List.foldl_append]
      rfl
    cases absolute : isAbsolute path with
    | true =>
      rw [join_of_absolute _ absolute, join_of_absolute _ (same.trans absolute), walk_eq, walk_eq, same,
        steps', ends, last]
    | false => rw [walk_join _ absolute, walk_join _ (same.trans absolute), steps', ends, last]

end ModuleBuild.Path
