import ModuleBuild.Proofs.Compile.Images
import ModuleBuild.Proofs.Graph.HashLocality
/-!
Records that a pass adds on its way: blank ones for modules that are still to be compiled, and finished
ones for modules that are left alone. Nothing else in a graph changes by them.
-/

namespace ModuleBuild

/-- The record of a module that is left alone. Nothing but the way it is imported is noted in it. -/
def ModuleRecord.IsLeftAlone (record : ModuleRecord) (specifier : Specifier) : Prop :=
  ∃ isEntry, record =
    { ModuleRecord.external specifier with flags := { isDynamicEntryOnly := isEntry } }

namespace ModuleGraph

/-- Modules that are left alone have the records that say so, and no others do. -/
def Classed (leaf : Specifier → Prop) (graph : ModuleGraph) : Prop :=
  ∀ specifier record, graph.get? specifier = some record →
    leaf specifier ∧ record.IsLeftAlone specifier ∨ ¬ leaf specifier ∧ record.isExternal = false

def IsNew (leaf : Specifier → Prop) (specifier : Specifier) (record : ModuleRecord) : Prop :=
  leaf specifier ∧ record = .external specifier ∨ ¬ leaf specifier ∧ record = .awaiting specifier

def GrowsAt (leaf : Specifier → Prop) (first second : ModuleGraph) (specifier : Specifier) : Prop :=
  second.get? specifier = first.get? specifier ∨
    first.get? specifier = none ∧
      ∃ record, second.get? specifier = some record ∧ IsNew leaf specifier record

def Grows (leaf : Specifier → Prop) (first second : ModuleGraph) : Prop :=
  ∀ specifier, GrowsAt leaf first second specifier

variable {leaf : Specifier → Prop} {first second third : ModuleGraph}

theorem Classed.isLeftAlone (classed : first.Classed leaf) {specifier : Specifier} (isLeaf : leaf specifier)
    {record : ModuleRecord} (found : first.get? specifier = some record) : record.IsLeftAlone specifier :=
  ((classed specifier record found).resolve_right fun other => other.1 isLeaf).2

theorem Classed.isExternal_eq_false (classed : first.Classed leaf) {specifier : Specifier}
    (notLeaf : ¬ leaf specifier) {record : ModuleRecord} (found : first.get? specifier = some record) :
    record.isExternal = false :=
  ((classed specifier record found).resolve_left fun other => notLeaf other.1).2

theorem IsNew.dependencies {specifier : Specifier} {record : ModuleRecord}
    (fresh : IsNew leaf specifier record) : record.dependencies = [] := by
  rcases fresh with ⟨-, rfl⟩ | ⟨-, rfl⟩ <;> rfl

theorem IsNew.folds {specifier : Specifier} {record : ModuleRecord}
    (fresh : IsNew leaf specifier record) : record.folds = false := by
  rcases fresh with ⟨-, rfl⟩ | ⟨-, rfl⟩ <;> rfl

theorem IsNew.classed {specifier : Specifier} {record : ModuleRecord}
    (fresh : IsNew leaf specifier record) :
    leaf specifier ∧ record.IsLeftAlone specifier ∨
      ¬ leaf specifier ∧ record.isExternal = false := by
  rcases fresh with ⟨isLeaf, rfl⟩ | ⟨notLeaf, rfl⟩
  · exact .inl ⟨isLeaf, false, rfl⟩
  · exact .inr ⟨notLeaf, rfl⟩

namespace GrowsAt

variable {specifier : Specifier}

theorem trans (one : GrowsAt leaf first second specifier)
    (two : GrowsAt leaf second third specifier) : GrowsAt leaf first third specifier := by
  rcases two with same | ⟨absent, added⟩
  · rcases one with same' | ⟨absent, record, found, fresh⟩
    · exact .inl (same.trans same')
    · exact .inr ⟨absent, record, same.trans found, fresh⟩
  · rcases one with same' | ⟨absent', record, found, -⟩
    · exact .inr ⟨same' ▸ absent, added⟩
    · rw [found] at absent
      cases absent

theorem get?_of_get? (grows : GrowsAt leaf first second specifier) {record : ModuleRecord}
    (found : first.get? specifier = some record) : second.get? specifier = some record := by
  rcases grows with same | ⟨absent, -⟩
  · rw [same, found]
  · rw [found] at absent
    cases absent

theorem foldView? (grows : GrowsAt leaf first second specifier) :
    second.foldView? specifier = first.foldView? specifier := by
  rcases grows with same | ⟨absent, record, found, fresh⟩
  · exact foldView?_congr same
  · simp [ModuleGraph.foldView?, found, fresh.folds, absent]

end GrowsAt

namespace Grows

theorem refl (leaf : Specifier → Prop) (graph : ModuleGraph) : Grows leaf graph graph :=
  fun _ => .inl rfl

theorem trans (one : Grows leaf first second) (two : Grows leaf second third) :
    Grows leaf first third := fun specifier => (one specifier).trans (two specifier)

variable (grows : Grows leaf first second)

include grows

theorem get?_of_get? {specifier : Specifier} {record : ModuleRecord}
    (found : first.get? specifier = some record) : second.get? specifier = some record :=
  (grows specifier).get?_of_get? found

theorem classed (start : Classed leaf first) : Classed leaf second := by
  intro specifier record found
  rcases grows specifier with same | ⟨-, fresh, found', blank⟩
  · exact start specifier record (same ▸ found)
  · rw [found, Option.some.injEq] at found'
    exact found' ▸ blank.classed

end Grows

theorem grows_mention {graph : ModuleGraph} {specifier : Specifier}
    (known : ¬ leaf specifier ∨ ∃ record, graph.get? specifier = some record) :
    Grows leaf graph (graph.mention specifier) := by
  intro other
  rw [GrowsAt, get?_mention]
  by_cases same : specifier = other
  · subst same
    rw [if_pos rfl]
    cases found : graph.get? specifier with
    | some record => exact .inl rfl
    | none =>
      have notLeaf := known.resolve_right (by simp [found])
      exact .inr ⟨rfl, _, rfl, .inr ⟨notLeaf, rfl⟩⟩
  · exact .inl (if_neg same)

theorem get?_mention_self (graph : ModuleGraph) (specifier : Specifier) :
    ∃ record, (graph.mention specifier).get? specifier = some record :=
  ⟨_, by rw [get?_mention, if_pos rfl]⟩

theorem mentionExternal_eq {graph : ModuleGraph} (classed : graph.Classed leaf)
    {specifier : Specifier} (isLeaf : leaf specifier) :
    graph.mentionExternal specifier =
      match graph.get? specifier with
      | some _ => graph
      | none => (graph.mention specifier).insert (.external specifier) := by
  simp only [mentionExternal, getOrCreate_eq]
  cases found : graph.get? specifier with
  | none => simp
  | some record =>
    obtain ⟨isEntry, rfl⟩ := classed.isLeftAlone isLeaf found
    simp [mention_of_get? found, ModuleRecord.external, ModuleRecord.isPending]

theorem grows_mentionExternal {graph : ModuleGraph} (classed : graph.Classed leaf)
    {specifier : Specifier} (isLeaf : leaf specifier) :
    Grows leaf graph (graph.mentionExternal specifier) := by
  rw [mentionExternal_eq classed isLeaf]
  cases found : graph.get? specifier with
  | some record => exact .refl leaf graph
  | none =>
    intro other
    simp only [GrowsAt, get?_insert, get?_mention]
    by_cases same : specifier = other
    · subst same
      exact .inr ⟨found, _, if_pos rfl, .inl ⟨isLeaf, rfl⟩⟩
    · exact .inl ((if_neg same).trans (if_neg same))

theorem get?_mentionExternal_self {graph : ModuleGraph} (classed : graph.Classed leaf)
    {specifier : Specifier} (isLeaf : leaf specifier) :
    ∃ record, (graph.mentionExternal specifier).get? specifier = some record := by
  rw [mentionExternal_eq classed isLeaf]
  cases found : graph.get? specifier with
  | some record => exact ⟨record, found⟩
  | none => exact ⟨_, (get?_insert _ _ _).trans (if_pos rfl)⟩

theorem Indexed.mentionExternal {graph : ModuleGraph} (indexed : graph.Indexed)
    (specifier : Specifier) : (graph.mentionExternal specifier).Indexed := by
  simp only [ModuleGraph.mentionExternal, getOrCreate_eq]
  split
  · exact (indexed.mention specifier).insert _
  · exact indexed.mention specifier

theorem foldl_mentionExternal {graph : ModuleGraph} (classed : graph.Classed leaf)
    (indexed : graph.Indexed) (targets : List Specifier) (leaves : ∀ target ∈ targets, leaf target) :
    let after := targets.foldl ModuleGraph.mentionExternal graph
    Grows leaf graph after ∧ after.Indexed ∧
      ∀ target ∈ targets, ∃ record, after.get? target = some record := by
  induction targets generalizing graph with
  | nil => exact ⟨.refl leaf graph, indexed, by simp⟩
  | cons target targets ih =>
    have isLeaf := leaves target List.mem_cons_self
    have grows := grows_mentionExternal classed isLeaf
    obtain ⟨later, indexed', found⟩ := ih (grows.classed classed)
      (indexed.mentionExternal target) fun other member => leaves other (List.mem_cons_of_mem _ member)
    refine ⟨grows.trans later, indexed', fun other member => ?_⟩
    rcases List.mem_cons.1 member with rfl | rest
    · obtain ⟨record, located⟩ := get?_mentionExternal_self classed isLeaf
      exact ⟨record, later.get?_of_get? located⟩
    · exact found other rest

theorem grows_mentionAll {graph : ModuleGraph} (indexed : graph.Indexed) (targets : List Specifier)
    (known : ∀ target ∈ targets, ¬ leaf target ∨ ∃ record, graph.get? target = some record) :
    Grows leaf graph (graph.mentionAll targets) ∧ (graph.mentionAll targets).Indexed ∧
      ∀ target ∈ targets, ∃ record, (graph.mentionAll targets).get? target = some record := by
  induction targets generalizing graph with
  | nil => exact ⟨.refl leaf graph, indexed, by simp⟩
  | cons target targets ih =>
    have grows : Grows leaf graph (graph.mention target) := grows_mention (known _ List.mem_cons_self)
    obtain ⟨later, indexed', found⟩ := ih (indexed.mention target) fun other member =>
      (known other (List.mem_cons_of_mem _ member)).imp_right fun ⟨record, located⟩ =>
        ⟨record, grows.get?_of_get? located⟩
    refine ⟨grows.trans later, indexed', fun other member => ?_⟩
    rcases List.mem_cons.1 member with rfl | rest
    · obtain ⟨record, located⟩ := get?_mention_self graph other
      exact ⟨record, later.get?_of_get? located⟩
    · exact found other rest

/-- A module gets a new record, between those of its imports that are left alone and those of all others.
-/
theorem install_ok {graph : ModuleGraph} (classed : graph.Classed leaf) (indexed : graph.Indexed)
    {specifier : Specifier} {record : ModuleRecord} (found : graph.get? specifier = some record)
    {externals : List Specifier} (leaves : ∀ target ∈ externals, leaf target)
    {change : ModuleRecord → ModuleRecord} (named : ∀ record, (change record).specifier = record.specifier)
    {targets : List Specifier}
    (known : ∀ target ∈ targets, ¬ leaf target ∨ target ∈ externals ∨
      ∃ record, graph.get? target = some record) :
    let after := ((externals.foldl ModuleGraph.mentionExternal graph).modify specifier change).mentionAll
      targets
    after.Indexed ∧ after.get? specifier = some (change record) ∧
      (∀ other, other ≠ specifier → GrowsAt leaf graph after other) ∧
      ∀ target ∈ targets, ∃ record, after.get? target = some record := by
  obtain ⟨grows, indexed', given⟩ := foldl_mentionExternal classed indexed externals leaves
  have own := grows.get?_of_get? found
  have changed (other : Specifier) := get?_modify
    (externals.foldl ModuleGraph.mentionExternal graph) specifier other change
  have present {target : Specifier} {record : ModuleRecord}
      (there : (externals.foldl ModuleGraph.mentionExternal graph).get? target = some record) :
      ∃ record, ((externals.foldl ModuleGraph.mentionExternal graph).modify specifier change).get?
        target = some record := by
    rw [changed]
    split
    · exact ⟨_, by rw [own, Option.map_some]⟩
    · exact ⟨record, there⟩
  obtain ⟨later, indexed'', mentioned⟩ := grows_mentionAll (indexed'.modify specifier named) targets
    fun target member => by
      rcases known target member with notLeaf | listed | ⟨record, there⟩
      · exact .inl notLeaf
      · obtain ⟨record, there⟩ := given target listed
        exact .inr (present there)
      · exact .inr (present (grows.get?_of_get? there))
  refine ⟨indexed'', later.get?_of_get? ?_, fun other differ => ?_, mentioned⟩
  · rw [changed, if_pos rfl, own, Option.map_some]
  · refine (grows other).trans ?_
    have kept := changed other
    rw [if_neg (Ne.symm differ)] at kept
    have step : GrowsAt leaf (externals.foldl ModuleGraph.mentionExternal graph)
      ((externals.foldl ModuleGraph.mentionExternal graph).modify specifier change) other := .inl kept
    exact step.trans (later other)

def AddsOnly (added : Specifier → Prop) (first second : ModuleGraph) : Prop :=
  ∀ specifier record, first.get? specifier = none → second.get? specifier = some record →
    added specifier

namespace AddsOnly

variable {added more : Specifier → Prop}

theorem of_get? (same : ∀ specifier record, second.get? specifier = some record →
    ∃ record, first.get? specifier = some record) : AddsOnly added first second := by
  intro specifier record absent found
  obtain ⟨_, there⟩ := same specifier record found
  cases absent.symm.trans there

theorem mono (adds : AddsOnly added first second) (wider : ∀ specifier, added specifier → more specifier) :
    AddsOnly more first second :=
  fun specifier record absent found => wider specifier (adds specifier record absent found)

theorem trans (one : AddsOnly added first second) (two : AddsOnly added second third) :
    AddsOnly added first third := by
  intro specifier record absent found
  cases between : second.get? specifier with
  | none => exact two specifier record between found
  | some middle => exact one specifier middle absent between

end AddsOnly

theorem addsOnly_mention (graph : ModuleGraph) (specifier : Specifier) :
    AddsOnly (· = specifier) graph (graph.mention specifier) := by
  intro other record absent found
  rw [get?_mention] at found
  split at found
  · next same => exact same.symm
  · cases absent.symm.trans found

theorem addsOnly_mentionExternal (graph : ModuleGraph) (specifier : Specifier) :
    AddsOnly (· = specifier) graph (graph.mentionExternal specifier) := by
  simp only [mentionExternal, getOrCreate_eq]
  split
  · intro other record absent found
    rw [get?_insert] at found
    split at found
    · next same => exact same.symm
    · exact addsOnly_mention graph specifier other record absent found
  · exact addsOnly_mention graph specifier

theorem addsOnly_foldl {step : ModuleGraph → Specifier → ModuleGraph}
    (adds : ∀ graph specifier, AddsOnly (· = specifier) graph (step graph specifier))
    (targets : List Specifier) (graph : ModuleGraph) :
    AddsOnly (· ∈ targets) graph (targets.foldl step graph) := by
  induction targets generalizing graph with
  | nil => exact .of_get? fun _ record found => ⟨record, found⟩
  | cons target targets ih =>
    have one : AddsOnly (· ∈ target :: targets) graph (step graph target) :=
      (adds graph target).mono (by rintro _ rfl; exact List.mem_cons_self)
    exact one.trans ((ih (step graph target)).mono fun _ => List.mem_cons_of_mem target)

theorem addsOnly_modify {added : Specifier → Prop} (graph : ModuleGraph) (specifier : Specifier)
    (change : ModuleRecord → ModuleRecord) : AddsOnly added graph (graph.modify specifier change) := by
  refine .of_get? fun other record found => ?_
  rw [get?_modify] at found
  split at found
  · next same =>
    obtain ⟨old, there, -⟩ := Option.map_eq_some_iff.1 found
    exact ⟨old, same ▸ there⟩
  · exact ⟨record, found⟩

theorem addsOnly_install (graph : ModuleGraph) (externals : List Specifier) (specifier : Specifier)
    (change : ModuleRecord → ModuleRecord) (targets : List Specifier) :
    AddsOnly (fun other => other ∈ externals ∨ other ∈ targets) graph
      (((externals.foldl ModuleGraph.mentionExternal graph).modify specifier change).mentionAll
        targets) :=
  (((addsOnly_foldl addsOnly_mentionExternal externals graph).mono fun _ => .inl).trans
    (addsOnly_modify _ specifier change)).trans
      ((addsOnly_foldl addsOnly_mention targets _).mono fun _ => .inr)

theorem mem_distinctTargets (edges : List DependencyEdge) (target : Specifier) :
    target ∈ distinctTargets edges ↔ ∃ edge ∈ edges, edge.target = target := by
  have general (start : List Specifier) :
      target ∈ edges.foldl (fun targets edge =>
          if edge.target ∈ targets then targets else targets ++ [edge.target]) start ↔
        target ∈ start ∨ ∃ edge ∈ edges, edge.target = target := by
    induction edges generalizing start with
    | nil => simp
    | cons edge edges ih =>
      rw [List.foldl_cons, ih]
      by_cases known : edge.target ∈ start
      · rw [if_pos known]
        simp only [List.mem_cons, exists_eq_or_imp]
        constructor
        · rintro (old | later)
          · exact .inl old
          · exact .inr (.inr later)
        · rintro (old | rfl | later)
          · exact .inl old
          · exact .inl known
          · exact .inr later
      · rw [if_neg known]
        simp only [List.mem_append, List.mem_cons, List.not_mem_nil, or_false, exists_eq_or_imp,
          or_assoc, @eq_comm _ target edge.target]
  simpa [distinctTargets] using general []

end ModuleGraph

end ModuleBuild
