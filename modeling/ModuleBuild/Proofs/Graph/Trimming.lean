import ModuleBuild.Proofs.Graph.HashSensitivity
/-!
Imports that take no part in content hashes can be dropped from a graph: content hashes stay as they are, and
so does what is hashed for them.
-/

namespace ModuleBuild

open Relation ContentHash

namespace ModuleGraph

variable {graph : ModuleGraph} {specifier : Specifier}

def folded (graph : ModuleGraph) (targets : List Specifier) : List Specifier :=
  targets.filter fun target => (graph.foldView? target).isSome

def trimRecord (graph : ModuleGraph) (record : ModuleRecord) : ModuleRecord :=
  { record with
    dependencies := record.dependencies.filter fun edge => (graph.foldView? edge.target).isSome }

/-- A graph without the imports of modules that take no part in content hashes. -/
def trim (graph : ModuleGraph) : ModuleGraph where
  records :=
    ⟨graph.records.entries.map fun (specifier, record) => (specifier, graph.trimRecord record), by
      rw [List.map_map]
      exact graph.records.distinct⟩
  importers := graph.importers

theorem get?_trim : graph.trim.get? specifier = (graph.get? specifier).map graph.trimRecord := by
  have lookup (entries : List (Specifier × ModuleRecord)) :
      OrderedMap.lookup specifier
          (entries.map fun (specifier, record) => (specifier, graph.trimRecord record)) =
        (OrderedMap.lookup specifier entries).map graph.trimRecord := by
    induction entries with
    | nil => rfl
    | cons entry rest ih =>
      rw [List.map_cons, OrderedMap.lookup, OrderedMap.lookup]
      split
      · rfl
      · exact ih
  exact lookup _

theorem foldView?_trim : graph.trim.foldView? specifier =
    (graph.foldView? specifier).map fun (source, targets) => (source, graph.folded targets) := by
  have targets (record : ModuleRecord) :
      (graph.trimRecord record).staticDependencies.map (·.target) =
        graph.folded (record.staticDependencies.map (·.target)) := by
    rw [folded, List.filter_map]
    simp only [ModuleRecord.staticDependencies, trimRecord, List.filter_filter, Function.comp_def,
      Bool.and_comm]
  conv_lhs => rw [foldView?, get?_trim]
  conv_rhs => arg 2; rw [foldView?]
  cases graph.get? specifier with
  | none => rfl
  | some record =>
    by_cases folds : record.folds = true
    · have folds' : (graph.trimRecord record).folds = true := folds
      simp only [Option.map_some, folds, folds', if_true, targets]
      rfl
    · have folds' : ¬ (graph.trimRecord record).folds = true := folds
      simp [folds, folds']

theorem foldView?_trim_of {source : String} {targets : List Specifier}
    (view : graph.foldView? specifier = some (source, targets)) :
    graph.trim.foldView? specifier = some (source, graph.folded targets) := by
  rw [foldView?_trim, view]
  rfl

theorem foldView?_of_trim {source : String} {targets : List Specifier}
    (view : graph.trim.foldView? specifier = some (source, targets)) :
    ∃ all, graph.foldView? specifier = some (source, all) ∧ graph.folded all = targets := by
  rw [foldView?_trim] at view
  obtain ⟨⟨source', all⟩, view', same⟩ := Option.map_eq_some_iff.1 view
  obtain ⟨rfl, rfl⟩ := Prod.mk.inj same
  exact ⟨all, view', rfl⟩

theorem isSome_foldView?_trim :
    (graph.trim.foldView? specifier).isSome = (graph.foldView? specifier).isSome := by
  rw [foldView?_trim, Option.isSome_map]

theorem revisit_trim (onPath : Bool) (fold : Fold) :
    revisit specifier (graph.trim.get? specifier) onPath fold =
      revisit specifier (graph.get? specifier) onPath fold := by
  rw [revisit_eq, revisit_eq, foldView?_trim]
  cases graph.foldView? specifier with
  | none => rfl
  | some found => cases fold.path <;> rfl

namespace Walk

def trimShape (graph : ModuleGraph) (shaped : List (Specifier × List Specifier)) :
    List (Specifier × List Specifier) :=
  shaped.map fun (specifier, pending) => (specifier, graph.folded pending)

theorem trimShape_cons (specifier : Specifier) (pending : List Specifier)
    (rest : List (Specifier × List Specifier)) :
    trimShape graph ((specifier, pending) :: rest) =
      (specifier, graph.folded pending) :: trimShape graph rest := rfl

theorem trimShape_absent {child : Specifier} (absent : graph.foldView? child = none) (specifier : Specifier)
    (pending : List Specifier) (rest : List (Specifier × List Specifier)) :
    trimShape graph ((specifier, child :: pending) :: rest) = trimShape graph ((specifier, pending) :: rest) := by
  simp [trimShape_cons, folded, absent]

theorem trimShape_folds {child : Specifier} (folds : (graph.foldView? child).isSome = true)
    (specifier : Specifier) (pending : List Specifier) (rest : List (Specifier × List Specifier)) :
    trimShape graph ((specifier, child :: pending) :: rest) =
      (specifier, child :: graph.folded pending) :: trimShape graph rest := by
  simp [trimShape_cons, folded, folds]

theorem any_trimShape (specifier : Specifier) (shaped : List (Specifier × List Specifier)) :
    (trimShape graph shaped).any (·.1 = specifier) = shaped.any (·.1 = specifier) := by
  rw [trimShape, List.any_map]
  rfl

theorem runNoting_trim (path : List (Frame graph .static)) (traced : List Specifier) (fold : Fold)
    (notes : List Bytes) (other : List (Frame graph.trim .static)) (met : List Specifier)
    (alike : shape other = trimShape graph (shape path))
    (same : ∀ specifier, (graph.foldView? specifier).isSome = true → (specifier ∈ met ↔ specifier ∈ traced)) :
    (runNoting other met (fold, notes)).state = (runNoting path traced (fold, notes)).state := by
  induction path, traced, fold using runFold_induction generalizing other met notes with
  | nil traced fold =>
    rw [shape_eq_nil alike, runNoting, run, runNoting, run]
  | leave specifier outer traced fold ih =>
    obtain ⟨outer', rfl, rest⟩ := shape_eq_leave alike
    rw [runNoting_leave, runNoting_leave]
    exact ih _ outer' met rest same
  | met specifier child pending outer traced fold old ih =>
    rw [runNoting_met old]
    cases view : graph.foldView? child.val with
    -- trimming took this import out, so that the other walk does not move
    | none =>
      have passed := revisit_eq graph child.val
        ((⟨specifier, pending⟩ :: outer : List (Frame graph .static)).any (·.specifier = child.val)) fold
      rw [view] at passed
      rw [passed] at ih ⊢
      exact ih notes other met (alike.trans (trimShape_absent view _ _ _)) same
    | some found =>
      have folds : (graph.foldView? child.val).isSome = true := by rw [view]; rfl
      obtain ⟨child', pending', outer', rfl, own, rest⟩ :=
        shape_eq_step (alike.trans (trimShape_folds folds _ _ _))
      have alike' : shape (⟨specifier, pending'⟩ :: outer') =
        trimShape graph (shape (⟨specifier, pending⟩ :: outer)) := rest
      have onPath : (⟨specifier, pending'⟩ :: outer' : List (Frame graph.trim .static)).any
            (·.specifier = child.val) =
          (⟨specifier, pending⟩ :: outer : List (Frame graph .static)).any (·.specifier = child.val) := by
        rw [any_eq_of_shape, alike', any_trimShape, any_eq_of_shape]
      rw [runNoting_met (own ▸ (same _ folds).2 old), own, revisit_trim, onPath]
      exact ih notes _ met alike' same
  | idle specifier child pending outer traced fold fresh view ih =>
    rw [runNoting_idle fresh view]
    refine ih notes other met (alike.trans (trimShape_absent view _ _ _)) fun other folds => ?_
    rw [same other folds, List.mem_cons]
    refine ⟨.inr, fun member => member.resolve_left ?_⟩
    rintro rfl
    rw [view] at folds
    cases folds
  | enter specifier child pending outer traced fold source targets fresh view ih =>
    have folds : (graph.foldView? child.val).isSome = true := by rw [view]; rfl
    obtain ⟨child', pending', outer', rfl, own, rest⟩ :=
      shape_eq_step (alike.trans (trimShape_folds folds _ _ _))
    have fresh' : child'.val ∉ met := fun old => fresh ((same _ folds).1 (own ▸ old))
    have view' := foldView?_trim_of view
    rw [runNoting_enter fresh view, runNoting_enter fresh' (own ▸ view'), own]
    refine ih notes _ _ ?_ fun other folds => ?_
    · rw [shape_frame, shape_frame, children_static view, children_static view', rest]
      rfl
    · rw [List.mem_cons, List.mem_cons, same other folds]

end Walk

theorem foldView?_trim_eq_none (absent : graph.foldView? specifier = none) :
    graph.trim.foldView? specifier = none := by
  rw [foldView?_trim, absent]
  rfl

theorem walk_noting_trim (graph : ModuleGraph) (specifier : Specifier) :
    (graph.trim.walk specifier .static [] noting ({}, [])).state =
      (graph.walk specifier .static [] noting ({}, [])).state := by
  cases view : graph.foldView? specifier with
  | none =>
    simp only [walk, List.not_mem_nil, if_false, noting, enter_of_foldView?_eq_none view,
      enter_of_foldView?_eq_none (foldView?_trim_eq_none view)]
    rfl
  | some found =>
    obtain ⟨source, targets⟩ := found
    have view' := foldView?_trim_of view
    rw [walk_noting_of_foldView? view, walk_noting_of_foldView? view']
    refine Walk.runNoting_trim _ _ _ _ _ _ ?_ fun _ _ => .rfl
    rw [Walk.shape_frame, Walk.shape_frame, children_static view, children_static view']
    rfl

theorem contentHash?_trim (graph : ModuleGraph) (specifier : Specifier) :
    graph.trim.contentHash? specifier = graph.contentHash? specifier := by
  cases view : graph.foldView? specifier with
  | none => rw [contentHash?_eq_none view, contentHash?_eq_none (foldView?_trim_eq_none view)]
  | some found =>
    rw [← walk_noting_result? view, ← walk_noting_result? (foldView?_trim_of view), walk_noting_trim]

theorem hashInputs_trim (graph : ModuleGraph) (specifier : Specifier) :
    graph.trim.hashInputs specifier = graph.hashInputs specifier := by
  rw [hashInputs, hashInputs, walk_noting_trim]

theorem hashInputs_of_foldView?_eq_none (absent : graph.foldView? specifier = none) :
    graph.hashInputs specifier = [] := by
  simp only [hashInputs, walk, List.not_mem_nil, if_false, noting, enter_of_foldView?_eq_none absent]

/-- Nothing is hashed for a module if none of its imports take part in content hashes. -/
theorem hashInputs_of_folded_eq_nil {source : String} {targets : List Specifier}
    (view : graph.foldView? specifier = some (source, targets)) (none : graph.folded targets = []) :
    graph.hashInputs specifier = [] := by
  have view' := foldView?_trim_of view
  rw [none] at view'
  rw [← hashInputs_trim, hashInputs, walk_noting_of_foldView? view', Walk.frame_of_leaf view',
    Walk.runNoting_leave, Walk.runNoting, Walk.run]
  rfl

end ModuleGraph

end ModuleBuild
