import ModuleBuild.Path
/-!
Cleaned paths. The walk over the components of a path always stands at a place where nothing is left to undo.
Such a place is written as a path whose components are read back as they are, so that a cleaned path is
cleaned already. Cleaning makes no path longer.
-/

namespace ModuleBuild

namespace Text

variable {separator : Char}

theorem splitOn_ne_nil (text : List Char) : splitOn separator text ≠ [] := by
  cases text with
  | nil => exact List.cons_ne_nil _ _
  | cons c rest =>
    rw [splitOn]
    split
    · exact List.cons_ne_nil _ _
    · split <;> exact List.cons_ne_nil _ _

theorem splitOn_of_notMem {part : List Char} (absent : separator ∉ part) :
    splitOn separator part = [part] := by
  induction part with
  | nil => rfl
  | cons c rest ih =>
    obtain ⟨differ, absent⟩ := not_or.1 (mt List.mem_cons.2 absent)
    rw [splitOn, if_neg (Ne.symm differ), ih absent]

theorem splitOn_append {part : List Char} (absent : separator ∉ part) (rest : List Char) :
    splitOn separator (part ++ separator :: rest) = part :: splitOn separator rest := by
  induction part with
  | nil => simp [splitOn]
  | cons c part ih =>
    obtain ⟨differ, absent⟩ := not_or.1 (mt List.mem_cons.2 absent)
    rw [List.cons_append, splitOn, if_neg (Ne.symm differ), ih absent]

theorem splitOn_intercalate {parts : List (List Char)} (nonempty : parts ≠ [])
    (absent : ∀ part ∈ parts, separator ∉ part) :
    splitOn separator ([separator].intercalate parts) = parts := by
  induction parts with
  | nil => exact absurd rfl nonempty
  | cons part rest ih =>
    have first := absent part List.mem_cons_self
    cases rest with
    | nil => rw [List.intercalate_singleton, splitOn_of_notMem first]
    | cons next rest =>
      have others := ih (List.cons_ne_nil _ _) fun other member => absent other (List.mem_cons_of_mem _ member)
      rw [List.intercalate_cons_cons, List.append_assoc, List.singleton_append, splitOn_append first, others]

theorem mem_of_mem_splitOn {text part : List Char} (member : part ∈ splitOn separator text) :
    separator ∉ part ∧ ∀ c ∈ part, c ∈ text := by
  induction text generalizing part with
  | nil =>
    obtain rfl := List.mem_singleton.1 member
    simp
  | cons c rest ih =>
    rw [splitOn] at member
    split at member
    · rcases List.mem_cons.1 member with rfl | later
      · simp
      · obtain ⟨absent, within⟩ := ih later
        exact ⟨absent, fun d inside => List.mem_cons_of_mem _ (within d inside)⟩
    · next differ =>
      cases parts : splitOn separator rest with
      | nil => exact absurd parts (splitOn_ne_nil rest)
      | cons first more =>
        rw [parts] at member ih
        rcases List.mem_cons.1 member with rfl | later
        · obtain ⟨absent, within⟩ := ih List.mem_cons_self
          refine ⟨fun inside => ?_, fun d inside => ?_⟩
          · exact (List.mem_cons.1 inside).elim (fun same => differ same.symm) absent
          · exact (List.mem_cons.1 inside).elim (fun same => same ▸ List.mem_cons_self)
              fun inside => List.mem_cons_of_mem _ (within d inside)
        · obtain ⟨absent, within⟩ := ih (List.mem_cons_of_mem _ later)
          exact ⟨absent, fun d inside => List.mem_cons_of_mem _ (within d inside)⟩

theorem mem_intercalate {parts : List (List Char)} {c : Char} (member : c ∈ [separator].intercalate parts) :
    c = separator ∨ ∃ part ∈ parts, c ∈ part := by
  induction parts with
  | nil => cases member
  | cons part rest ih =>
    cases rest with
    | nil =>
      rw [List.intercalate_singleton] at member
      exact .inr ⟨part, List.mem_cons_self, member⟩
    | cons next rest =>
      rw [List.intercalate_cons_cons, List.append_assoc, List.mem_append, List.singleton_append,
        List.mem_cons] at member
      rcases member with first | rfl | later
      · exact .inr ⟨part, List.mem_cons_self, first⟩
      · exact .inl rfl
      · exact (ih later).imp_right fun ⟨other, listed, within⟩ => ⟨other, List.mem_cons_of_mem _ listed, within⟩

/-- The length of parts when they are written, each with a separator. -/
def span : List (List Char) → Nat
  | [] => 0
  | part :: rest => part.length + 1 + span rest

theorem span_append (first second : List (List Char)) : span (first ++ second) = span first + span second := by
  induction first with
  | nil => simp [span]
  | cons part rest ih => simp [span, ih, Nat.add_assoc]

theorem span_reverse (parts : List (List Char)) : span parts.reverse = span parts := by
  induction parts with
  | nil => rfl
  | cons part rest ih => simp [span, span_append, ih, Nat.add_comm]

theorem span_splitOn (text : List Char) : span (splitOn separator text) = text.length + 1 := by
  induction text with
  | nil => rfl
  | cons c rest ih =>
    rw [splitOn]
    split
    · simp [span, ih, Nat.add_comm]
    · cases parts : splitOn separator rest with
      | nil => exact absurd parts (splitOn_ne_nil rest)
      | cons first more =>
        simp only [parts, span, List.length_cons] at ih ⊢
        omega

end Text

namespace Path

open Text

structure IsName (part : List Char) : Prop where
  nonempty : part ≠ []
  notCurrent : part ≠ ['.']
  notParent : part ≠ ['.', '.']
  noSlash : '/' ∉ part

theorem ofPart?_eq_some {part : List Char} (noSlash : '/' ∉ part) {step : Component}
    (is : Component.ofPart? part = some step) :
    step.text = part ∧ (step = .parent ∨ step = .name part ∧ IsName part) := by
  unfold Component.ofPart? at is
  split at is
  · cases is
  · next other =>
    obtain ⟨nonempty, notCurrent⟩ := not_or.1 other
    split at is
    · next up =>
      obtain rfl := Option.some.inj is
      exact ⟨up.symm, .inl rfl⟩
    · next notUp =>
      obtain rfl := Option.some.inj is
      exact ⟨rfl, .inr ⟨rfl, nonempty, notCurrent, notUp, noSlash⟩⟩

theorem ofPart?_name {part : List Char} (name : IsName part) : Component.ofPart? part = some (.name part) := by
  rw [Component.ofPart?, if_neg (not_or.2 ⟨name.nonempty, name.notCurrent⟩), if_neg name.notParent]

/-! ## Places -/

/-- Where a walk begins: at the root, or some steps up from where it is taken. -/
inductive Base : Bool → List Component → Prop
  | root : Base true [.root]
  | above (count : Nat) : Base false (List.replicate count .parent)

/-- A place with nothing to undo, innermost component first. -/
def Settled (isRooted : Bool) (place : List Component) : Prop :=
  ∃ (names : List (List Char)) (base : List Component),
    place = names.map .name ++ base ∧ (∀ name ∈ names, IsName name) ∧ Base isRooted base

theorem Settled.name {isRooted : Bool} {place : List Component} (settled : Settled isRooted place)
    {text : List Char} (name : IsName text) : Settled isRooted (advance place (.name text)) := by
  obtain ⟨names, base, rfl, named, is⟩ := settled
  exact ⟨text :: names, base, by simp [advance], List.forall_mem_cons.2 ⟨name, named⟩, is⟩

/-- A step up undoes a name, and adds to the steps up only where there is no name. -/
theorem Settled.parent {isRooted : Bool} {place : List Component} (settled : Settled isRooted place) :
    Settled isRooted (advance place .parent) := by
  obtain ⟨names, base, rfl, named, is⟩ := settled
  cases names with
  | cons name names => exact ⟨names, base, by simp [advance], (List.forall_mem_cons.1 named).2, is⟩
  | nil =>
    cases is with
    | root => exact ⟨[], [.root], rfl, nofun, .root⟩
    | above count =>
      refine ⟨[], .parent :: List.replicate count .parent, ?_, nofun, .above (count + 1)⟩
      cases count <;> rfl

theorem settled_foldl {isRooted : Bool} {steps : List Component}
    (within : ∀ step ∈ steps, step = .parent ∨ ∃ text, step = .name text ∧ IsName text)
    {place : List Component} (settled : Settled isRooted place) : Settled isRooted (steps.foldl advance place) := by
  induction steps generalizing place with
  | nil => exact settled
  | cons step rest ih =>
    obtain ⟨first, within⟩ := List.forall_mem_cons.1 within
    refine ih within ?_
    rcases first with rfl | ⟨text, rfl, name⟩
    · exact settled.parent
    · exact settled.name name

/-- The steps that the parts of a path stand for, without what its beginning adds. -/
def steps (path : List Char) : List Component := (splitOn '/' path).filterMap Component.ofPart?

theorem mem_steps {path : List Char} {step : Component} (member : step ∈ steps path) :
    step.text ∈ splitOn '/' path ∧ (step = .parent ∨ ∃ text, step = .name text ∧ IsName text) := by
  obtain ⟨part, inside, is⟩ := List.mem_filterMap.1 member
  obtain ⟨same, kind⟩ := ofPart?_eq_some (mem_of_mem_splitOn inside).1 is
  exact ⟨same ▸ inside, kind.imp_right fun ⟨named, name⟩ => ⟨part, named, name⟩⟩

/-- Where a path leads to, innermost component first. -/
def walk (path : List Char) : List Component := (components path).foldl advance []

theorem walk_eq (path : List Char) :
    walk path = (steps path).foldl advance (if isAbsolute path then [.root] else []) := by
  rw [walk, components, ← steps]
  split
  · rfl
  · split <;> rfl

theorem settled_walk (path : List Char) : Settled (isAbsolute path) (walk path) := by
  rw [walk_eq]
  refine settled_foldl (fun step member => (mem_steps member).2) ?_
  cases isAbsolute path with
  | true => exact ⟨[], [.root], rfl, nofun, .root⟩
  | false => exact ⟨[], [], rfl, nofun, .above 0⟩

/-! ## Places as paths -/

theorem foldl_names (names : List (List Char)) (place : List Component) :
    (names.map .name).foldl advance place = (names.map .name).reverse ++ place := by
  induction names generalizing place with
  | nil => rfl
  | cons name rest ih => simp [ih, advance]

theorem foldl_replicate (count before : Nat) :
    (List.replicate count .parent).foldl advance (List.replicate before .parent) =
      List.replicate (count + before) .parent := by
  induction count generalizing before with
  | zero => simp
  | succ count ih =>
    have up : advance (List.replicate before .parent) .parent = List.replicate (before + 1) .parent := by
      cases before <;> rfl
    rw [List.replicate_succ, List.foldl_cons, up, ih, Nat.add_right_comm]
    rfl

theorem reverse_base {isRooted : Bool} {base : List Component} (is : Base isRooted base) : base.reverse = base := by
  cases is <;> simp

theorem Settled.foldl_reverse {isRooted : Bool} {place : List Component} (settled : Settled isRooted place) :
    place.reverse.foldl advance [] = place := by
  obtain ⟨names, base, rfl, -, is⟩ := settled
  have start : base.foldl advance [] = base := by
    cases is with
    | root => rfl
    | above count => exact (foldl_replicate count 0)
  rw [List.reverse_append, List.foldl_append, reverse_base is, start, ← List.map_reverse, foldl_names,
    ← List.map_reverse, List.reverse_reverse]

theorem Settled.text {isRooted : Bool} {place : List Component} (settled : Settled isRooted place)
    {step : Component} (member : step ∈ place) : '/' ∉ step.text := by
  obtain ⟨names, base, rfl, named, is⟩ := settled
  rcases List.mem_append.1 member with inside | inside
  · obtain ⟨text, listed, rfl⟩ := List.mem_map.1 inside
    exact (named text listed).noSlash
  · cases is with
    | root => simp_all [Component.text]
    | above count => simp_all [List.mem_replicate, Component.text]

theorem Settled.notMem_root {place : List Component} (settled : Settled false place) : .root ∉ place := by
  obtain ⟨names, base, rfl, -, is⟩ := settled
  cases is with
  | above count => simp [List.mem_replicate]

theorem Settled.reversed {isRooted : Bool} {place : List Component} (settled : Settled isRooted place) :
    ∃ (names : List (List Char)) (base : List Component),
      place.reverse = base ++ names.map .name ∧ (∀ name ∈ names, IsName name) ∧ Base isRooted base := by
  obtain ⟨names, base, rfl, named, is⟩ := settled
  exact ⟨names.reverse, base, by rw [List.reverse_append, reverse_base is, List.map_reverse],
    fun name member => named name (List.mem_reverse.1 member), is⟩

theorem filterMap_names {names : List (List Char)} (named : ∀ name ∈ names, IsName name) :
    names.filterMap Component.ofPart? = names.map .name := by
  induction names with
  | nil => rfl
  | cons name rest ih =>
    obtain ⟨first, named⟩ := List.forall_mem_cons.1 named
    rw [List.filterMap_cons, ofPart?_name first, ih named, List.map_cons]

theorem isAbsolute_iff {path : List Char} :
    isAbsolute path = true ↔ ∃ next more, splitOn '/' path = [] :: next :: more := by
  cases path with
  | nil => simp [isAbsolute, splitOn]
  | cons c rest =>
    obtain ⟨first, more, parts⟩ := List.exists_cons_of_ne_nil (@splitOn_ne_nil '/' rest)
    by_cases slash : c = '/'
    · simp [isAbsolute, splitOn, slash, parts]
    · simp [isAbsolute, splitOn, slash, parts]

theorem text_eq_name (names : List (List Char)) : (names.map .name).map Component.text = names := by
  simp [Function.comp_def, Component.text]

theorem splitOn_render {steps : List Component} (nonempty : steps ≠ []) (more : steps ≠ [.root])
    (noSlash : ∀ step ∈ steps, '/' ∉ step.text) :
    splitOn '/' (render steps) = steps.map Component.text := by
  have written : render steps = ['/'].intercalate (steps.map Component.text) := by
    unfold render
    split
    · exact absurd rfl more
    · rfl
  rw [written, splitOn_intercalate (by simpa using nonempty)]
  intro part member
  obtain ⟨step, inside, rfl⟩ := List.mem_map.1 member
  exact noSlash step inside

theorem Settled.splitOn_render {isRooted : Bool} {place : List Component} (settled : Settled isRooted place)
    (nonempty : place ≠ []) (more : place ≠ [.root]) :
    splitOn '/' (render place.reverse) = place.reverse.map Component.text :=
  Path.splitOn_render (by simpa using nonempty) (fun alone => more (List.reverse_eq_iff.1 alone))
    fun _ member => settled.text (List.mem_reverse.1 member)

theorem Settled.components_render {isRooted : Bool} {place : List Component} (settled : Settled isRooted place)
    (nonempty : place ≠ []) :
    components (render place.reverse) = place.reverse ∧ isAbsolute (render place.reverse) = isRooted := by
  obtain ⟨names, base, written, named, is⟩ := settled.reversed
  by_cases alone : place = [.root]
  · subst alone
    cases is with
    | root => exact ⟨rfl, rfl⟩
    | above count => exact absurd List.mem_cons_self settled.notMem_root
  -- what is written has the components as its parts, with an empty one in front for a root
  have parts := settled.splitOn_render nonempty alone
  cases is with
  | root =>
    cases names with
    | nil => exact absurd (List.reverse_eq_iff.1 written) alone
    | cons name names =>
      have parts' : splitOn '/' (render place.reverse) = [] :: name :: names := by
        rw [parts, written, List.map_append, text_eq_name]
        rfl
      have absolute : isAbsolute (render place.reverse) = true := isAbsolute_iff.2 ⟨_, _, parts'⟩
      refine ⟨?_, absolute⟩
      rw [components, if_pos absolute, parts', List.filterMap_cons, filterMap_names named, written]
      rfl
  | above count =>
    have parts' : splitOn '/' (render place.reverse) = List.replicate count ['.', '.'] ++ names := by
      rw [parts, written, List.map_append, text_eq_name, List.map_replicate]
      rfl
    have steps : (List.replicate count ['.', '.'] ++ names).filterMap Component.ofPart? = place.reverse := by
      rw [List.filterMap_append, filterMap_names named, written]
      simp [Component.ofPart?]
    have full : ∀ part, (splitOn '/' (render place.reverse)).head? = some part →
        part ≠ [] ∧ part ≠ ['.'] := by
      rw [parts']
      intro part head
      rcases List.mem_append.1 (List.mem_of_mem_head? head) with up | name
      · obtain ⟨-, rfl⟩ := List.mem_replicate.1 up
        exact ⟨nofun, nofun⟩
      · exact ⟨(named part name).nonempty, (named part name).notCurrent⟩
    have relative : isAbsolute (render place.reverse) = false := by
      refine Bool.eq_false_iff.2 fun absolute => ?_
      obtain ⟨next, more, parts⟩ := isAbsolute_iff.1 absolute
      exact (full [] (by rw [parts]; rfl)).1 rfl
    refine ⟨?_, relative⟩
    rw [components, if_neg (by simp [relative]), if_neg fun dot => (full _ dot).2 rfl, parts', steps]

/-! ## Cleaning -/

theorem clean_eq (path : List Char) :
    clean path = if walk path = [] then ['.'] else render (walk path).reverse := by
  rw [clean, ← walk]
  split
  · next empty => rw [if_pos (List.reverse_eq_nil_iff.1 empty)]
  · next steps nonempty => rw [if_neg fun empty => nonempty (by rw [empty]; rfl)]

theorem clean_ne_nil (path : List Char) : clean path ≠ [] := by
  intro empty
  rw [clean_eq] at empty
  split at empty
  · cases empty
  · next nonempty =>
    obtain ⟨same, -⟩ := (settled_walk path).components_render nonempty
    rw [empty] at same
    exact nonempty (List.reverse_eq_nil_iff.1 same.symm)

theorem walk_clean (path : List Char) : walk (clean path) = walk path := by
  rw [clean_eq]
  split
  · next empty => exact empty.symm
  · next nonempty =>
    rw [walk, ((settled_walk path).components_render nonempty).1, (settled_walk path).foldl_reverse]

theorem clean_clean (path : List Char) : clean (clean path) = clean path := by
  rw [clean_eq, walk_clean, ← clean_eq]

theorem isAbsolute_clean (path : List Char) : isAbsolute (clean path) = isAbsolute path := by
  rw [clean_eq]
  split
  · next empty =>
    obtain ⟨names, base, place, -, is⟩ := settled_walk path
    cases absolute : isAbsolute path with
    | false => rfl
    | true =>
      rw [absolute] at is
      cases is
      simp [empty] at place
  · next nonempty => exact ((settled_walk path).components_render nonempty).2

theorem notMem_nil_splitOn_clean {path : List Char} (relative : isAbsolute path = false) :
    [] ∉ splitOn '/' (clean path) := by
  rw [clean_eq]
  split
  · simp [splitOn]
  · next nonempty =>
    have settled : Settled false (walk path) := relative ▸ settled_walk path
    have more : walk path ≠ [.root] := fun alone => settled.notMem_root (alone ▸ List.mem_cons_self)
    rw [settled.splitOn_render nonempty more]
    intro member
    obtain ⟨step, inside, empty⟩ := List.mem_map.1 member
    obtain ⟨names, base, place, named, is⟩ := settled
    rw [List.mem_reverse, place] at inside
    rcases List.mem_append.1 inside with inside | inside
    · obtain ⟨text, listed, rfl⟩ := List.mem_map.1 inside
      exact (named text listed).nonempty empty
    · cases is with
      | above count =>
        obtain ⟨-, rfl⟩ := List.mem_replicate.1 inside
        cases empty

/-! ## What cleaning keeps -/

theorem advance_subset (place : List Component) (step : Component) : advance place step ⊆ step :: place := by
  unfold advance
  split
  · exact List.subset_cons_self _ _
  · exact List.subset_cons_self _ _
  · exact fun other member => List.mem_cons_of_mem _ (List.mem_cons_of_mem _ member)
  · exact fun _ member => member

theorem foldl_advance_subset (steps place : List Component) : steps.foldl advance place ⊆ steps ++ place := by
  induction steps generalizing place with
  | nil => exact fun _ member => member
  | cons step rest ih =>
    intro other member
    rcases List.mem_append.1 (ih _ member) with later | here
    · exact List.mem_append_left _ (List.mem_cons_of_mem _ later)
    · rcases List.mem_cons.1 (advance_subset place step here) with rfl | old
      · exact List.mem_append_left _ List.mem_cons_self
      · exact List.mem_append_right _ old

theorem mem_walk {path : List Char} {step : Component} (member : step ∈ walk path) :
    step = .root ∨ step ∈ steps path := by
  rw [walk_eq] at member
  rcases List.mem_append.1 (foldl_advance_subset _ _ member) with inside | first
  · exact .inr inside
  · split at first
    · exact .inl (List.mem_singleton.1 first)
    · cases first

theorem mem_clean {path : List Char} {c : Char} (member : c ∈ clean path) : c ∈ path ∨ c = '/' ∨ c = '.' := by
  rw [clean_eq] at member
  split at member
  · exact .inr (.inr (List.mem_singleton.1 member))
  · have inside : c = '/' ∨ ∃ step ∈ walk path, c ∈ step.text := by
      unfold render at member
      split at member
      · exact .inl (List.mem_singleton.1 member)
      · refine (mem_intercalate member).imp_right ?_
        rintro ⟨part, listed, within⟩
        obtain ⟨step, met, rfl⟩ := List.mem_map.1 listed
        exact ⟨step, List.mem_reverse.1 met, within⟩
    rcases inside with rfl | ⟨step, met, within⟩
    · exact .inr (.inl rfl)
    · rcases mem_walk met with rfl | listed
      · cases within
      · exact .inl ((mem_of_mem_splitOn (mem_steps listed).1).2 c within)

theorem span_advance_le (place : List Component) (step : Component) :
    span ((advance place step).map Component.text) ≤
      span (place.map Component.text) + (step.text.length + 1) := by
  unfold advance
  split <;> simp [span, Nat.add_comm]
  omega

theorem span_foldl_le (steps place : List Component) :
    span ((steps.foldl advance place).map Component.text) ≤
      span (place.map Component.text) + span (steps.map Component.text) := by
  induction steps generalizing place with
  | nil => simp [span]
  | cons step rest ih =>
    have first := span_advance_le place step
    have later := ih (advance place step)
    simp only [span, List.map_cons, List.foldl_cons] at first later ⊢
    omega

theorem span_filterMap_le {parts : List (List Char)} (noSlash : ∀ part ∈ parts, '/' ∉ part) :
    span ((parts.filterMap Component.ofPart?).map Component.text) ≤ span parts := by
  induction parts with
  | nil => exact Nat.le_refl _
  | cons part rest ih =>
    obtain ⟨first, noSlash⟩ := List.forall_mem_cons.1 noSlash
    have later := ih noSlash
    cases is : Component.ofPart? part with
    | none =>
      rw [List.filterMap_cons, is]
      exact Nat.le_trans later (Nat.le_add_left _ _)
    | some step =>
      have same := (ofPart?_eq_some first is).1
      rw [List.filterMap_cons, is]
      simp only [span, List.map_cons, same]
      omega

theorem span_walk_le (path : List Char) : span ((walk path).map Component.text) ≤ path.length + 1 := by
  have parts := @span_splitOn '/' path
  have noSlash : ∀ part ∈ splitOn '/' path, '/' ∉ part := fun part member => (mem_of_mem_splitOn member).1
  rw [walk_eq]
  refine Nat.le_trans (span_foldl_le _ _) ?_
  cases absolute : isAbsolute path with
  | false =>
    have within := span_filterMap_le noSlash
    simp only [span, steps, Bool.false_eq_true, if_false, List.map_nil] at within ⊢
    omega
  | true =>
    -- the empty part before the first slash makes room for the root
    obtain ⟨next, more, cut⟩ := isAbsolute_iff.1 absolute
    rw [cut] at parts noSlash
    have within := span_filterMap_le (List.forall_mem_cons.1 noSlash).2
    have dropped : steps path = (next :: more).filterMap Component.ofPart? := by
      rw [steps, cut]
      rfl
    rw [dropped]
    simp only [span, if_true, List.map_cons, List.map_nil, Component.text, List.length_nil] at parts within ⊢
    omega

theorem length_clean_le {path : List Char} (nonempty : path ≠ []) : (clean path).length ≤ path.length := by
  have some := List.length_pos_iff.2 nonempty
  rw [clean_eq]
  split
  · exact some
  · next leads =>
    by_cases alone : walk path = [.root]
    · rw [alone]
      exact some
    · have parts := @span_splitOn '/' (render (walk path).reverse)
      have fits := span_walk_le path
      rw [(settled_walk path).splitOn_render leads alone, List.map_reverse, span_reverse] at parts
      omega

end Path

end ModuleBuild
