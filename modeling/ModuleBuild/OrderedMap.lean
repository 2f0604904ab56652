/-!
A finite map that remembers the order in which its keys arrived.

Replacing the value of a key keeps the key's place; a key that was erased and comes back goes to
the end. Two maps with the same entries in the same order are equal.
-/

namespace ModuleBuild

universe u v

/-- Entries in order of arrival; no key occurs twice. -/
structure OrderedMap (κ : Type u) (β : Type v) where
  entries : List (κ × β)
  distinct : (entries.map Prod.fst).Nodup

namespace OrderedMap

variable {κ : Type u} {β : Type v}

@[ext] theorem ext {first second : OrderedMap κ β} (same : first.entries = second.entries) :
    first = second := by
  cases first; cases second; cases same; rfl

def empty : OrderedMap κ β := ⟨[], List.nodup_nil⟩

instance : Inhabited (OrderedMap κ β) := ⟨empty⟩

def keys (map : OrderedMap κ β) : List κ := map.entries.map Prod.fst

def values (map : OrderedMap κ β) : List β := map.entries.map Prod.snd

def size (map : OrderedMap κ β) : Nat := map.entries.length

def isEmpty (map : OrderedMap κ β) : Bool := map.entries.isEmpty

variable [DecidableEq κ]

/-- The value under a key in a list of entries: that of the first entry with this key. -/
def lookup (key : κ) : List (κ × β) → Option β
  | [] => none
  | (k, value) :: rest => if k = key then some value else lookup key rest

def assign (key : κ) (value : β) : List (κ × β) → List (κ × β)
  | [] => [(key, value)]
  | (k, old) :: rest => if k = key then (k, value) :: rest else (k, old) :: assign key value rest

theorem map_fst_assign (key : κ) (value : β) (entries : List (κ × β)) :
    (assign key value entries).map Prod.fst =
      if key ∈ entries.map Prod.fst then entries.map Prod.fst
      else entries.map Prod.fst ++ [key] := by
  induction entries with
  | nil => simp [assign]
  | cons entry rest ih =>
    obtain ⟨k, old⟩ := entry
    by_cases same : k = key
    · simp [assign, same]
    · have other : key ≠ k := fun h => same h.symm
      simp only [assign, if_neg same, List.map_cons, ih, List.mem_cons, other, false_or]
      split <;> simp

theorem nodup_assign {entries : List (κ × β)} (distinct : (entries.map Prod.fst).Nodup)
    (key : κ) (value : β) : ((assign key value entries).map Prod.fst).Nodup := by
  rw [map_fst_assign]
  split
  · exact distinct
  · rename_i absent
    rw [List.nodup_append]
    refine ⟨distinct, by simp, ?_⟩
    intro a inside b single same
    rw [List.mem_singleton] at single
    exact absent (single ▸ same ▸ inside)

def get? (map : OrderedMap κ β) (key : κ) : Option β := lookup key map.entries

def contains (map : OrderedMap κ β) (key : κ) : Bool := (map.get? key).isSome

def insert (map : OrderedMap κ β) (key : κ) (value : β) : OrderedMap κ β :=
  ⟨assign key value map.entries, nodup_assign map.distinct key value⟩

def erase (map : OrderedMap κ β) (key : κ) : OrderedMap κ β :=
  ⟨map.entries.filter (fun entry => entry.1 ≠ key),
    map.distinct.sublist (List.filter_sublist.map _)⟩

/-- The map with the given entries; a repeated key keeps its first place and its last value. -/
def ofList (entries : List (κ × β)) : OrderedMap κ β :=
  entries.foldl (fun map entry => map.insert entry.1 entry.2) empty

theorem lookup_assign (key other : κ) (value : β) (entries : List (κ × β)) :
    lookup other (assign key value entries) =
      if key = other then some value else lookup other entries := by
  induction entries with
  | nil => simp [assign, lookup]
  | cons entry rest ih =>
    obtain ⟨k, old⟩ := entry
    by_cases same : k = key
    · subst same
      by_cases met : k = other <;> simp [assign, lookup, met]
    · by_cases met : k = other
      · subst met
        simp [assign, lookup, same, Ne.symm same]
      · simp [assign, lookup, same, met, ih]

@[simp] theorem get?_empty (key : κ) : (empty : OrderedMap κ β).get? key = none := rfl

theorem get?_insert (map : OrderedMap κ β) (key other : κ) (value : β) :
    (map.insert key value).get? other = if key = other then some value else map.get? other :=
  lookup_assign key other value map.entries

theorem lookup_filter_ne (key other : κ) (entries : List (κ × β)) :
    lookup other (entries.filter (fun entry => entry.1 ≠ key)) =
      if key = other then none else lookup other entries := by
  induction entries with
  | nil => simp [lookup]
  | cons entry rest ih =>
    obtain ⟨k, value⟩ := entry
    by_cases same : k = key
    · subst same
      rw [List.filter_cons_of_neg (by simp), ih]
      by_cases met : k = other <;> simp [lookup, met]
    · rw [List.filter_cons_of_pos (by simpa using same)]
      by_cases met : k = other
      · subst met
        simp [lookup, Ne.symm same]
      · simp only [lookup, if_neg met, ih]

theorem get?_erase (map : OrderedMap κ β) (key other : κ) :
    (map.erase key).get? other = if key = other then none else map.get? other :=
  lookup_filter_ne key other map.entries

theorem lookup_eq_none_iff (key : κ) (entries : List (κ × β)) :
    lookup key entries = none ↔ key ∉ entries.map Prod.fst := by
  induction entries with
  | nil => simp [lookup]
  | cons entry rest ih =>
    by_cases same : entry.1 = key
    · simp [lookup, same]
    · simp [lookup, same, ih, Ne.symm same]

theorem get?_eq_none_iff (map : OrderedMap κ β) (key : κ) :
    map.get? key = none ↔ key ∉ map.keys :=
  lookup_eq_none_iff key map.entries

theorem mem_of_lookup {key : κ} {value : β} {entries : List (κ × β)}
    (found : lookup key entries = some value) : (key, value) ∈ entries := by
  induction entries with
  | nil => simp [lookup] at found
  | cons entry rest ih =>
    obtain ⟨k, other⟩ := entry
    by_cases same : k = key
    · simp only [lookup, if_pos same, Option.some.injEq] at found
      exact List.mem_cons.2 (Or.inl (by rw [same, found]))
    · simp only [lookup, if_neg same] at found
      exact List.mem_cons_of_mem _ (ih found)

theorem get?_of_mem {map : OrderedMap κ β} {key : κ} {value : β}
    (member : (key, value) ∈ map.entries) : map.get? key = some value := by
  obtain ⟨entries, distinct⟩ := map
  unfold get?
  dsimp only at member distinct ⊢
  induction entries with
  | nil => cases member
  | cons entry rest ih =>
    obtain ⟨other, held⟩ := entry
    obtain ⟨absent, distinct'⟩ := List.nodup_cons.1 distinct
    rcases List.mem_cons.1 member with same | later
    · obtain ⟨rfl, rfl⟩ := Prod.mk.inj same
      exact if_pos rfl
    · have differ : other ≠ key := by
        rintro rfl
        exact absent (List.mem_map.2 ⟨(other, value), later, rfl⟩)
      exact (if_neg differ).trans (ih distinct' later)

theorem get?_of_perm {first second : OrderedMap κ β} (same : first.entries.Perm second.entries)
    (key : κ) : first.get? key = second.get? key := by
  cases found : second.get? key with
  | none =>
    rw [get?_eq_none_iff] at found ⊢
    exact fun member => found ((same.map Prod.fst).mem_iff.1 member)
  | some value => exact get?_of_mem (same.mem_iff.2 (mem_of_lookup found))

theorem mem_values_of_get? {map : OrderedMap κ β} {key : κ} {value : β}
    (found : map.get? key = some value) : value ∈ map.values :=
  List.mem_map.2 ⟨(key, value), mem_of_lookup found, rfl⟩

theorem mem_keys_of_get? {map : OrderedMap κ β} {key : κ} {value : β}
    (found : map.get? key = some value) : key ∈ map.keys :=
  List.mem_map.2 ⟨(key, value), mem_of_lookup found, rfl⟩

theorem keys_insert (map : OrderedMap κ β) (key : κ) (value : β) :
    (map.insert key value).keys = if key ∈ map.keys then map.keys else map.keys ++ [key] :=
  map_fst_assign key value map.entries

end OrderedMap

end ModuleBuild
