import ModuleBuild.Bundle.Partition
import Mathlib.Data.List.Nodup
import Mathlib.Data.List.Perm.Subperm
/-!
Entries for dynamic imports: one for each target that is no entry yet, under a name that no other entry has.
-/

namespace ModuleBuild.Bundle

theorem eq_of_repr_eq {first second : Nat} (same : first.repr = second.repr) : first = second := by
  have digits := congrArg (fun text => Nat.ofDigitChars 10 text.toList 0) same
  simpa using digits

theorem nodup_candidates (stem : String) (count : Nat) :
    ((List.range count).map fun n => if n = 0 then stem else s!"{stem}-{n + 1}").Nodup := by
  refine List.Nodup.map_on (fun first _ second _ same => ?_) List.nodup_range
  have longer (n : Nat) : stem ≠ s!"{stem}-{n + 1}" := by
    intro equal
    have length := congrArg String.length equal
    simp [toString] at length
    have : "-".length = 1 := rfl
    omega
  split at same
  · next zero =>
    split at same
    · next zero' => rw [zero, zero']
    · exact absurd same (longer _)
  · split at same
    · exact absurd same.symm (longer _)
    · have digits : (first + 1).repr = (second + 1).repr := by simpa [toString] using same
      exact Nat.succ.inj (eq_of_repr_eq digits)

theorem freeName_notMem (names : List String) (stem : String) : freeName names stem ∉ names := by
  simp only [freeName]
  cases found : ((List.range (names.length + 1)).map fun n =>
      if n = 0 then stem else s!"{stem}-{n + 1}").find? (· ∉ names) with
  | some name =>
    have free := List.find?_some found
    simpa using free
  | none =>
    -- there is one candidate more than there are names
    have taken := List.find?_eq_none.1 found
    have within := (nodup_candidates stem (names.length + 1)).subperm
      (fun name member => by simpa using taken name member : _ ⊆ names)
    have length := within.length_le
    rw [List.length_map, List.length_range] at length
    omega

theorem freeName_eq_iff {names : List String} {stem name : String} (plain : '-' ∉ name.toList) :
    freeName names stem = name ↔ stem = name ∧ name ∉ names := by
  constructor
  · rintro rfl
    refine ⟨?_, freeName_notMem names stem⟩
    simp only [freeName] at plain ⊢
    cases found : ((List.range (names.length + 1)).map fun n =>
        if n = 0 then stem else s!"{stem}-{n + 1}").find? (· ∉ names) with
    | none => rfl
    | some name =>
      obtain ⟨n, -, candidate⟩ := List.mem_map.1 (List.mem_of_find?_eq_some found)
      rw [found, Option.getD_some] at plain
      split at candidate
      · exact candidate
      · exact absurd (by simp [← candidate, toString]) plain
  · rintro ⟨rfl, free⟩
    simp [freeName, List.range_succ_eq_map, free]

theorem slash_notMem_chunkStem (specifier : Specifier) : '/' ∉ (chunkStem specifier).toList := by
  simp only [chunkStem]
  split
  · decide
  · next stem _ =>
    rw [String.toList_ofList]
    intro member
    obtain ⟨c, -, same⟩ := List.mem_map.1 member
    split at same
    · next allowed =>
      rw [same] at allowed
      exact absurd allowed (by decide)
    · exact absurd same (by decide)

theorem slash_notMem_freeName (names : List String) {stem : String} (spelled : '/' ∉ stem.toList) :
    '/' ∉ (freeName names stem).toList := by
  simp only [freeName]
  cases found : ((List.range (names.length + 1)).map fun n =>
      if n = 0 then stem else s!"{stem}-{n + 1}").find? (· ∉ names) with
  | none => exact spelled
  | some name =>
    obtain ⟨n, -, candidate⟩ := List.mem_map.1 (List.mem_of_find?_eq_some found)
    rw [Option.getD_some, ← candidate]
    split
    · exact spelled
    · simp only [String.toList_append, toString, List.mem_append, not_or, Nat.toList_repr]
      refine ⟨⟨spelled, by decide⟩, fun digit => ?_⟩
      exact absurd (Nat.isDigit_of_mem_toDigits (by decide) (by decide) digit) (by decide)

structure NamesTargets {graph : ModuleGraph} (names : List String) (roots : List Specifier)
    (discovered : List (ModuleGraph.Walk.End graph .all)) (entries : List EntryPoint)
    (names' : List String) (roots' : List Specifier) (targets : List Specifier) : Prop where
  modules : entries.map (·.modules) = targets.map ([·])
  nodup : targets.Nodup
  fresh : ∀ target, target ∈ targets ↔ target ∉ roots ∧ ∃ found ∈ discovered, found.val = target
  roots : ∀ root, root ∈ roots' ↔ root ∈ roots ∨ root ∈ targets
  named : names'.Perm (names ++ entries.map (·.name))
  distinct : names.Nodup → names'.Nodup
  stems : ∀ name, '-' ∉ name.toList → name ∉ names →
    (name ∈ entries.map (·.name) ↔ ∃ target ∈ targets, chunkStem target = name)
  spelled : ∀ name ∈ entries.map (·.name), '/' ∉ name.toList

theorem nameTargets_cons_of_notMem {graph : ModuleGraph} {names : List String} {roots : List Specifier}
    {found : ModuleGraph.Walk.End graph .all} (rest : List (ModuleGraph.Walk.End graph .all))
    (unknown : found.val ∉ roots) :
    nameTargets names roots (found :: rest) =
      let (entries, names', roots') :=
        nameTargets (freeName names (chunkStem found.val) :: names) (found.val :: roots) rest
      ({ name := freeName names (chunkStem found.val), modules := [found.val] } :: entries,
        names', roots') := by
  rw [nameTargets, if_neg unknown]

theorem nameTargets_ok {graph : ModuleGraph} (discovered : List (ModuleGraph.Walk.End graph .all))
    (names : List String) (roots : List Specifier) :
    let (entries, names', roots') := nameTargets names roots discovered
    ∃ targets, NamesTargets names roots discovered entries names' roots' targets := by
  induction discovered generalizing names roots with
  | nil => exact ⟨[], rfl, .nil, by simp, by simp, by simp, id, by simp, by simp⟩
  | cons found rest ih =>
    by_cases known : found.val ∈ roots
    · rw [nameTargets, if_pos known]
      have later := ih names roots
      generalize nameTargets names roots rest = result at later ⊢
      obtain ⟨entries, names', roots'⟩ := result
      obtain ⟨targets, later⟩ := later
      refine ⟨targets, { later with fresh := fun target => ?_ }⟩
      rw [later.fresh]
      simp only [List.mem_cons, exists_eq_or_imp]
      refine and_congr_right fun absent => (or_iff_right ?_).symm
      rintro rfl
      exact absent known
    -- a new entry takes a free name, which the entries after it find taken
    · rw [nameTargets_cons_of_notMem rest known]
      have later := ih (freeName names (chunkStem found.val) :: names) (found.val :: roots)
      generalize nameTargets (freeName names (chunkStem found.val) :: names) (found.val :: roots) rest =
        result at later ⊢
      obtain ⟨entries, names', roots'⟩ := result
      obtain ⟨targets, later⟩ := later
      refine ⟨found.val :: targets,
        { modules := by simp [later.modules]
          nodup := List.nodup_cons.2 ⟨?_, later.nodup⟩
          fresh := fun target => ?_
          roots := fun root => ?_
          named := later.named.trans ?_
          distinct := fun nodup => later.distinct (List.nodup_cons.2 ⟨freeName_notMem _ _, nodup⟩)
          stems := fun name plain free => ?_
          spelled := List.forall_mem_cons.2
            ⟨slash_notMem_freeName _ (slash_notMem_chunkStem _), later.spelled⟩ }⟩
      · simp [later.fresh]
      · simp only [List.mem_cons, later.fresh, exists_eq_or_imp, not_or]
        constructor
        · rintro (rfl | ⟨⟨-, absent⟩, member⟩)
          · exact ⟨known, .inl rfl⟩
          · exact ⟨absent, .inr member⟩
        · rintro ⟨absent, rfl | member⟩
          · exact .inl rfl
          · by_cases same : target = found.val
            · exact .inl same
            · exact .inr ⟨⟨same, absent⟩, member⟩
      · rw [later.roots]
        simp only [List.mem_cons]
        tauto
      · exact (List.perm_middle).symm
      · rw [List.map_cons, List.mem_cons, eq_comm, freeName_eq_iff plain, List.exists_mem_cons_iff]
        by_cases stem : chunkStem found.val = name
        · exact iff_of_true (.inl ⟨stem, free⟩) (.inl stem)
        · have other : name ∉ freeName names (chunkStem found.val) :: names := by
            rw [List.mem_cons, not_or, eq_comm, freeName_eq_iff plain]
            exact ⟨fun same => stem same.1, free⟩
          rw [later.stems name plain other]
          simp only [stem, false_and, false_or]

end ModuleBuild.Bundle
