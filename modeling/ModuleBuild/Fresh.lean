/-!
Counting what has not been seen. A search that marks one more place of a finite list in each step
ends, because this count goes down.
-/

namespace ModuleBuild

variable {α : Type} [DecidableEq α]

/-- The number of places in a list that are not among those seen. -/
def freshCount (places seen : List α) : Nat := (places.filter (· ∉ seen)).length

theorem filter_notMem_cons (places seen : List α) (place : α) :
    places.filter (· ∉ place :: seen) = (places.filter (· ∉ seen)).filter (· ≠ place) := by
  rw [List.filter_filter]
  refine List.filter_congr fun other _ => ?_
  by_cases same : other = place <;> simp [same]

theorem freshCount_cons_le (places seen : List α) (place : α) :
    freshCount places (place :: seen) ≤ freshCount places seen := by
  unfold freshCount
  rw [filter_notMem_cons]
  exact List.length_filter_le _ _

theorem freshCount_cons_lt {places seen : List α} {place : α} (member : place ∈ places)
    (fresh : place ∉ seen) : freshCount places (place :: seen) < freshCount places seen := by
  unfold freshCount
  rw [filter_notMem_cons]
  refine List.length_filter_lt_length_iff_exists.2 ⟨place, ?_, by simp⟩
  exact List.mem_filter.2 ⟨member, by simpa using fresh⟩

theorem freshCount_lt_of_mem {places seen later : List α} {place : α} (member : place ∈ places)
    (fresh : place ∉ seen) (now : place ∈ later) (kept : ∀ other ∈ seen, other ∈ later) :
    freshCount places later < freshCount places seen := by
  refine Nat.lt_of_le_of_lt ?_ (freshCount_cons_lt member fresh)
  unfold freshCount
  rw [← List.countP_eq_length_filter, ← List.countP_eq_length_filter]
  refine List.countP_mono_left fun other _ unseen => ?_
  have absent : other ∉ later := by simpa using unseen
  have : other ∉ place :: seen := by
    intro met
    rcases List.mem_cons.1 met with same | old
    · exact absent (same ▸ now)
    · exact absent (kept other old)
  simpa using this

end ModuleBuild
