import ModuleBuild.Graph.ContentHash
import ModuleBuild.Proofs.Graph.Reach
/-!
What the content hash of a module depends on: the source hashes and static imports of the modules that
its static imports lead to, and nothing else in the graph.
-/

namespace ModuleBuild

open Relation

namespace ModuleGraph

/-- What content hashes see of a module that takes part in them: its source hash, and what it imports
statically. -/
def foldView? (graph : ModuleGraph) (specifier : Specifier) : Option (String × List Specifier) :=
  match graph.get? specifier with
  | some record =>
    if record.folds then some (record.sourceHash, record.staticDependencies.map (·.target))
    else none
  | none => none

/-- The content hash of one module folds that of another. -/
def FoldsInto (graph : ModuleGraph) (specifier child : Specifier) : Prop :=
  ∃ source targets, graph.foldView? specifier = some (source, targets) ∧ child ∈ targets

theorem foldView?_of_get? {graph : ModuleGraph} {specifier : Specifier} {record : ModuleRecord}
    (found : graph.get? specifier = some record) (folds : record.folds) :
    graph.foldView? specifier =
      some (record.sourceHash, record.staticDependencies.map (·.target)) := by
  simp [foldView?, found, folds]

theorem foldView?_eq_some {graph : ModuleGraph} {specifier : Specifier} {source : String}
    {targets : List Specifier} (view : graph.foldView? specifier = some (source, targets)) :
    ∃ record, graph.get? specifier = some record ∧ record.folds ∧ record.sourceHash = source ∧
      record.staticDependencies.map (·.target) = targets := by
  unfold foldView? at view
  split at view
  · next record found =>
    split at view
    · next folds => simp_all
    · cases view
  · cases view

theorem foldView?_congr {first second : ModuleGraph} {specifier : Specifier}
    (same : first.get? specifier = second.get? specifier) :
    first.foldView? specifier = second.foldView? specifier := by
  simp [foldView?, same]

theorem children_static {graph : ModuleGraph} {specifier : Specifier} {source : String}
    {targets : List Specifier} (view : graph.foldView? specifier = some (source, targets)) :
    graph.children .static specifier = targets := by
  obtain ⟨record, found, -, -, rfl⟩ := foldView?_eq_some view
  simp [children, found]

theorem FoldsInto.imports {graph : ModuleGraph} {specifier child : Specifier}
    (folds : graph.FoldsInto specifier child) : graph.Imports specifier child := by
  obtain ⟨source, targets, view, member⟩ := folds
  obtain ⟨record, found, -, -, rfl⟩ := foldView?_eq_some view
  obtain ⟨edge, inside, rfl⟩ := List.mem_map.1 member
  refine ⟨edge, ?_, rfl⟩
  rw [dependencies_of_get? found]
  exact (List.mem_filter.1 inside).1

end ModuleGraph

namespace ContentHash

open ModuleGraph

theorem enter_of_foldView? {graph : ModuleGraph} {specifier : Specifier} {source : String}
    {targets : List Specifier} (view : graph.foldView? specifier = some (source, targets))
    (depth : Nat) (fold : Fold) :
    enter specifier (graph.get? specifier) depth fold =
      ({ fold with path := some ⟨source, []⟩ :: fold.path }, .continue) := by
  obtain ⟨record, found, folds, rfl, -⟩ := foldView?_eq_some view
  simp [enter, found, folds]

theorem enter_of_foldView?_eq_none {graph : ModuleGraph} {specifier : Specifier}
    (absent : graph.foldView? specifier = none) (depth : Nat) (fold : Fold) :
    enter specifier (graph.get? specifier) depth fold =
      ({ fold with path := none :: fold.path }, .skipChildren) := by
  unfold foldView? at absent
  unfold enter
  cases found : graph.get? specifier with
  | none => rfl
  | some record =>
    simp only [found] at absent ⊢
    split at absent
    · cases absent
    · next idle => rw [if_neg idle]

theorem revisit_eq (graph : ModuleGraph) (specifier : Specifier) (onPath : Bool) (fold : Fold) :
    revisit specifier (graph.get? specifier) onPath fold =
      match graph.foldView? specifier, fold.path with
      | some (source, _), _ :: _ =>
        if onPath then fold.deliver source
        else
          match OrderedMap.lookup specifier fold.folded with
          | some hash => fold.deliver hash
          | none => fold
      | _, _ => fold := by
  unfold revisit foldView?
  cases graph.get? specifier with
  | none => rfl
  | some record =>
    cases fold.path with
    | nil => by_cases folds : record.folds <;> simp [folds]
    | cons frame outer =>
      by_cases folds : record.folds
      · simp only [folds]
        rfl
      · simp [folds]

end ContentHash

namespace ModuleGraph.Walk

section Folding

variable {graph : ModuleGraph} {specifier : Specifier} {child : End graph .static}
  {pending : List (End graph .static)} {outer : List (Frame graph .static)}
  {traced : List Specifier} {fold : ContentHash.Fold}

abbrev runFold (path : List (Frame graph .static)) (traced : List Specifier)
    (fold : ContentHash.Fold) : WalkResult ContentHash.Fold :=
  run graph .static ContentHash.visitor path traced fold

theorem runFold_nil (traced : List Specifier) (fold : ContentHash.Fold) :
    runFold ([] : List (Frame graph .static)) traced fold = ⟨.completed, traced, fold⟩ := by
  rw [runFold, run]

theorem runFold_leave :
    runFold (⟨specifier, []⟩ :: outer) traced fold =
      runFold outer traced (ContentHash.leave specifier none fold) := by
  rw [runFold, run]
  rfl

theorem runFold_met (met : child.val ∈ traced) :
    runFold (⟨specifier, child :: pending⟩ :: outer) traced fold =
      runFold (⟨specifier, pending⟩ :: outer) traced
        (ContentHash.revisit child.val (graph.get? child.val)
          ((⟨specifier, pending⟩ :: outer : List (Frame graph .static)).any
            (·.specifier = child.val)) fold) := by
  rw [runFold, run, dif_pos met]
  rfl

theorem runFold_idle (fresh : child.val ∉ traced) (idle : graph.foldView? child.val = none) :
    runFold (⟨specifier, child :: pending⟩ :: outer) traced fold =
      runFold (⟨specifier, pending⟩ :: outer) (child.val :: traced) fold := by
  rw [runFold, run, dif_neg fresh]
  simp only [ContentHash.visitor, ContentHash.enter_of_foldView?_eq_none idle]
  rfl

theorem runFold_enter (fresh : child.val ∉ traced) {source : String} {targets : List Specifier}
    (view : graph.foldView? child.val = some (source, targets)) :
    runFold (⟨specifier, child :: pending⟩ :: outer) traced fold =
      runFold (frame graph .static child.val :: ⟨specifier, pending⟩ :: outer)
        (child.val :: traced) { fold with path := some ⟨source, []⟩ :: fold.path } := by
  rw [runFold, run, dif_neg fresh]
  simp only [ContentHash.visitor, ContentHash.enter_of_foldView? view]
  rfl

/-- Induction on the steps of folding, told apart by what content hashes see. -/
theorem runFold_induction
    {motive : List (Frame graph .static) → List Specifier → ContentHash.Fold → Prop}
    (nil : ∀ traced fold, motive [] traced fold)
    (leave : ∀ specifier outer traced fold,
      motive outer traced (ContentHash.leave specifier none fold) →
      motive (⟨specifier, []⟩ :: outer) traced fold)
    (met : ∀ specifier child pending outer traced fold, child.val ∈ traced →
      motive (⟨specifier, pending⟩ :: outer) traced
        (ContentHash.revisit child.val (graph.get? child.val)
          ((⟨specifier, pending⟩ :: outer : List (Frame graph .static)).any
            (·.specifier = child.val)) fold) →
      motive (⟨specifier, child :: pending⟩ :: outer) traced fold)
    (idle : ∀ specifier child pending outer traced fold, child.val ∉ traced →
      graph.foldView? child.val = none →
      motive (⟨specifier, pending⟩ :: outer) (child.val :: traced) fold →
      motive (⟨specifier, child :: pending⟩ :: outer) traced fold)
    (enter : ∀ specifier child pending outer traced fold source targets, child.val ∉ traced →
      graph.foldView? child.val = some (source, targets) →
      motive (frame graph .static child.val :: ⟨specifier, pending⟩ :: outer)
        (child.val :: traced) { fold with path := some ⟨source, []⟩ :: fold.path } →
      motive (⟨specifier, child :: pending⟩ :: outer) traced fold)
    (path : List (Frame graph .static)) (traced : List Specifier) (fold : ContentHash.Fold) :
    motive path traced fold := by
  induction path, traced, fold using run.induct graph .static ContentHash.visitor with
  | case1 traced fold => exact nil traced fold
  | case2 traced fold specifier outer ih => exact leave _ _ _ _ ih
  | case3 traced fold specifier child pending outer path record? inside onPath ih =>
    exact met _ _ _ _ _ _ inside ih
  | case4 traced fold specifier child pending outer path record? fresh after stops =>
    cases view : graph.foldView? child.val with
    | none => simp [ContentHash.visitor, record?, ContentHash.enter_of_foldView?_eq_none view] at stops
    | some found => simp [ContentHash.visitor, record?, ContentHash.enter_of_foldView? view] at stops
  | case5 traced fold specifier child pending outer path record? fresh after skips ih =>
    cases view : graph.foldView? child.val with
    | none =>
      simp only [ContentHash.visitor, record?, ContentHash.enter_of_foldView?_eq_none view] at skips ih
      rw [← (Prod.mk.inj skips).1] at ih
      exact idle _ _ _ _ _ _ fresh view ih
    | some found => simp [ContentHash.visitor, record?, ContentHash.enter_of_foldView? view] at skips
  | case6 traced fold specifier child pending outer path record? fresh after goesOn ih =>
    cases view : graph.foldView? child.val with
    | none => simp [ContentHash.visitor, record?, ContentHash.enter_of_foldView?_eq_none view] at goesOn
    | some found =>
      simp only [ContentHash.visitor, record?, ContentHash.enter_of_foldView? view] at goesOn ih
      rw [← (Prod.mk.inj goesOn).1] at ih
      exact enter _ _ _ _ _ _ _ _ fresh view ih

end Folding

/-- A path without the reasons why its steps lead to ends of edges. -/
def shape {graph : ModuleGraph} {direction : Direction} (path : List (Frame graph direction)) :
    List (Specifier × List Specifier) :=
  path.map fun frame => (frame.specifier, frame.pending.map Subtype.val)

section Shape

variable {graph : ModuleGraph} {direction : Direction} {path : List (Frame graph direction)}

theorem shape_frame (specifier : Specifier) :
    shape (frame graph direction specifier :: path) =
      (specifier, graph.children direction specifier) :: shape path := by
  simp [shape, frame]

theorem any_eq_of_shape (specifier : Specifier) :
    path.any (·.specifier = specifier) = (shape path).any (·.1 = specifier) := by
  simp [shape, List.any_map, Function.comp_def]

theorem shape_eq_nil (shaped : shape path = []) : path = [] := List.map_eq_nil_iff.1 shaped

theorem shape_eq_leave {specifier : Specifier} {rest : List (Specifier × List Specifier)}
    (shaped : shape path = (specifier, []) :: rest) :
    ∃ outer, path = ⟨specifier, []⟩ :: outer ∧ shape outer = rest := by
  match path with
  | [] => simp [shape] at shaped
  | ⟨owner, []⟩ :: outer =>
    simp only [shape, List.map_cons, List.map_nil, List.cons.injEq, Prod.mk.injEq] at shaped
    obtain ⟨⟨rfl, -⟩, rest⟩ := shaped
    exact ⟨outer, rfl, rest⟩
  | ⟨owner, next :: left⟩ :: outer => simp [shape] at shaped

theorem shape_eq_step {specifier child : Specifier} {pending : List Specifier}
    {rest : List (Specifier × List Specifier)}
    (shaped : shape path = (specifier, child :: pending) :: rest) :
    ∃ next left outer, path = ⟨specifier, next :: left⟩ :: outer ∧ next.val = child ∧
      shape (⟨specifier, left⟩ :: outer) = (specifier, pending) :: rest := by
  match path with
  | [] => simp [shape] at shaped
  | ⟨owner, []⟩ :: outer => simp [shape] at shaped
  | ⟨owner, next :: left⟩ :: outer =>
    simp only [shape, List.map_cons, List.cons.injEq, Prod.mk.injEq] at shaped
    obtain ⟨⟨rfl, same, rfl⟩, rest⟩ := shaped
    exact ⟨next, left, outer, rfl, same, by rw [← rest]; rfl⟩

theorem length_eq_of_alike {other : ModuleGraph} {path' : List (Frame other direction)}
    (alike : shape path' = shape path) : path'.length = path.length := by
  simpa [shape] using congrArg List.length alike

theorem any_eq_of_alike {other : ModuleGraph} {path' : List (Frame other direction)}
    (alike : shape path' = shape path) (specifier : Specifier) :
    path'.any (·.specifier = specifier) = path.any (·.specifier = specifier) := by
  rw [any_eq_of_shape, alike, ← any_eq_of_shape]

end Shape

/-- Walks along paths of the same shape come to the same, if the graphs have the same edges and the visitor
makes no difference between their records. -/
theorem run_congr {σ : Type} {visitor : Visitor σ} {first second : ModuleGraph} {direction : Direction}
    (children : ∀ specifier, second.children direction specifier = first.children direction specifier)
    (enters : ∀ met depth state, visitor.enter met (second.get? met) depth state =
      visitor.enter met (first.get? met) depth state)
    (leaves : ∀ met state, visitor.leave met (second.get? met) state =
      visitor.leave met (first.get? met) state)
    (revisits : ∀ met onPath state, visitor.revisit met (second.get? met) onPath state =
      visitor.revisit met (first.get? met) onPath state)
    (path : List (Frame first direction)) (traced : List Specifier) (state : σ)
    (other : List (Frame second direction)) (alike : shape other = shape path) :
    run second direction visitor other traced state = run first direction visitor path traced state := by
  induction path, traced, state using run.induct first direction visitor generalizing other with
  | case1 traced state => rw [shape_eq_nil alike, run, run]
  | case2 traced state specifier outer ih =>
    obtain ⟨outer', rfl, rest⟩ := shape_eq_leave alike
    rw [run, run, leaves]
    exact ih outer' rest
  | case3 traced state specifier child pending outer path record? met onPath ih =>
    obtain ⟨child', pending', outer', rfl, same, rest⟩ := shape_eq_step alike
    have loops : _ = onPath := any_eq_of_alike rest child.val
    rw [run, run, dif_pos met, dif_pos (same ▸ met), same]
    simp only [loops, revisits]
    exact ih _ rest
  | case4 traced state specifier child pending outer path record? fresh after stops =>
    obtain ⟨child', pending', outer', rfl, same, rest⟩ := shape_eq_step alike
    have depth : _ = path.length := length_eq_of_alike rest
    rw [run, run, dif_neg fresh, dif_neg (same ▸ fresh), depth, same, enters]
    simp only [path, record?] at stops ⊢
    simp only [stops]
  | case5 traced state specifier child pending outer path record? fresh after skips ih =>
    obtain ⟨child', pending', outer', rfl, same, rest⟩ := shape_eq_step alike
    have depth : _ = path.length := length_eq_of_alike rest
    rw [run, run, dif_neg fresh, dif_neg (same ▸ fresh), depth, same, enters]
    simp only [path, record?] at skips ih ⊢
    simp only [skips, leaves]
    exact ih _ rest
  | case6 traced state specifier child pending outer path record? fresh after goesOn ih =>
    obtain ⟨child', pending', outer', rfl, same, rest⟩ := shape_eq_step alike
    have depth : _ = path.length := length_eq_of_alike rest
    rw [run, run, dif_neg fresh, dif_neg (same ▸ fresh), depth, same, enters]
    simp only [path, record?] at goesOn ih ⊢
    simp only [goesOn]
    refine ih _ ?_
    rw [shape_frame, shape_frame, rest, children]
    rfl

/-- Folding along paths of the same shape gives the same, if the graphs agree on all that is met. -/
theorem runFold_congr {first second : ModuleGraph} (within : Specifier → Prop)
    (closed : ∀ specifier child, within specifier → first.FoldsInto specifier child → within child)
    (agree : ∀ specifier, within specifier →
      first.foldView? specifier = second.foldView? specifier)
    (path : List (Frame first .static)) (traced : List Specifier) (fold : ContentHash.Fold)
    (other : List (Frame second .static)) (alike : shape other = shape path)
    (inside : ∀ frame ∈ path, ∀ next ∈ frame.pending, within next.val) :
    runFold path traced fold = runFold other traced fold := by
  induction path, traced, fold using runFold_induction generalizing other with
  | nil traced fold => rw [shape_eq_nil alike, runFold_nil, runFold_nil]
  | leave specifier outer traced fold ih =>
    obtain ⟨outer', rfl, rest⟩ := shape_eq_leave alike
    rw [runFold_leave, runFold_leave]
    exact ih outer' rest fun frame member => inside frame (List.mem_cons_of_mem _ member)
  | met specifier child pending outer traced fold met ih =>
    obtain ⟨child', pending', outer', rfl, same, rest⟩ := shape_eq_step alike
    have member := inside _ List.mem_cons_self child List.mem_cons_self
    rw [runFold_met met, runFold_met (same ▸ met), ih _ rest (within_tail inside),
      ContentHash.revisit_eq, ContentHash.revisit_eq, same, agree _ member, any_eq_of_shape,
      any_eq_of_shape, rest]
    rfl
  | idle specifier child pending outer traced fold fresh view ih =>
    obtain ⟨child', pending', outer', rfl, same, rest⟩ := shape_eq_step alike
    have member := inside _ List.mem_cons_self child List.mem_cons_self
    rw [runFold_idle fresh view, runFold_idle (same ▸ fresh) (by rw [same, ← agree _ member, view]),
      ih _ rest (within_tail inside), same]
  | enter specifier child pending outer traced fold source targets fresh view ih =>
    obtain ⟨child', pending', outer', rfl, same, rest⟩ := shape_eq_step alike
    have member := inside _ List.mem_cons_self child List.mem_cons_self
    have view' : second.foldView? child.val = some (source, targets) := by
      rw [← agree _ member, view]
    rw [runFold_enter fresh view, runFold_enter (same ▸ fresh) (by rw [same, view'])]
    rw [ih (frame second .static child'.val :: ⟨specifier, pending'⟩ :: outer'), same]
    · rw [shape_frame, shape_frame, rest, same, children_static view, children_static view']
      rfl
    · intro frame found next waits
      rcases List.mem_cons.1 found with rfl | later
      · have follows := mem_frame.1 waits
        rw [Follows, children_static view] at follows
        exact closed _ _ member ⟨source, targets, view, follows⟩
      · exact within_tail inside frame later next waits

end ModuleGraph.Walk

namespace ContentHash

/-- The source hashes of the modules on the path. -/
def Fold.sources (fold : Fold) : List (Option String) := fold.path.map (Option.map (·.sourceHash))

theorem sources_deliver (fold : Fold) (hash : String) :
    (fold.deliver hash).sources = fold.sources := by
  unfold Fold.deliver Fold.sources
  split <;> simp_all

theorem sources_revisit (graph : ModuleGraph) (specifier : Specifier) (onPath : Bool)
    (fold : Fold) :
    (revisit specifier (graph.get? specifier) onPath fold).sources = fold.sources := by
  rw [revisit_eq]
  split
  · split
    · exact sources_deliver _ _
    · split
      · exact sources_deliver _ _
      · rfl
  · rfl

theorem sources_leave {fold : Fold} {source : String} {outer : List (Option String)}
    (sources : fold.sources = some source :: outer) (specifier : Specifier) :
    (leave specifier none fold).sources = outer := by
  unfold Fold.sources at sources
  obtain ⟨frame?, rest, path, own, others⟩ := List.map_eq_cons_iff.1 sources
  obtain ⟨frame, rfl, -⟩ := Option.map_eq_some_iff.1 own
  simp only [leave, path, sources_deliver]
  exact others

theorem result?_leave {fold : Fold} {source : String} (sources : fold.sources = [some source])
    (specifier : Specifier) :
    ∃ imports, (leave specifier none fold).result? = some (foldHashes source imports) := by
  unfold Fold.sources at sources
  obtain ⟨frame?, rest, path, own, others⟩ := List.map_eq_cons_iff.1 sources
  obtain ⟨frame, rfl, rfl⟩ := Option.map_eq_some_iff.1 own
  rw [List.map_eq_nil_iff.1 others] at path
  exact ⟨frame.gathered.reverse, by simp [leave, path, Fold.deliver]⟩

end ContentHash

namespace ModuleGraph

/-- Folding ends with a hash that begins with the source hash of the outermost module. -/
theorem Walk.runFold_result {graph : ModuleGraph} {source : String}
    (path : List (Frame graph .static)) (traced : List Specifier) (fold : ContentHash.Fold)
    (inner : List (Option String)) (sources : fold.sources = inner ++ [some source])
    (framed : ∀ source? ∈ inner, source?.isSome) (aligned : path.length = inner.length + 1) :
    ∃ imports, (runFold path traced fold).state.result? = some (foldHashes source imports) := by
  induction path, traced, fold using runFold_induction generalizing inner with
  | nil traced fold => simp at aligned
  | leave specifier outer traced fold ih =>
    rw [runFold_leave]
    cases inner with
    | nil =>
      have last : outer = [] := List.eq_nil_of_length_eq_zero (by simpa using aligned)
      rw [last, runFold_nil]
      exact ContentHash.result?_leave sources specifier
    | cons source? inner =>
      obtain ⟨own, rfl⟩ := Option.isSome_iff_exists.1 (framed _ List.mem_cons_self)
      refine ih inner (ContentHash.sources_leave sources specifier) ?_ (by simpa using aligned)
      exact fun source? member => framed source? (List.mem_cons_of_mem _ member)
  | met specifier child pending outer traced fold met ih =>
    rw [runFold_met met]
    exact ih inner (by rw [ContentHash.sources_revisit, sources]) framed (by simpa using aligned)
  | idle specifier child pending outer traced fold fresh view ih =>
    rw [runFold_idle fresh view]
    exact ih inner sources framed (by simpa using aligned)
  | enter specifier child pending outer traced fold own targets fresh view ih =>
    rw [runFold_enter fresh view]
    refine ih (some own :: inner) (by simpa [ContentHash.Fold.sources] using sources) ?_
      (by simpa using aligned)
    intro source? member
    rcases List.mem_cons.1 member with rfl | later
    · rfl
    · exact framed source? later

theorem contentHash?_of_foldView? {graph : ModuleGraph} {specifier : Specifier} {source : String}
    {targets : List Specifier} (view : graph.foldView? specifier = some (source, targets)) :
    graph.contentHash? specifier =
      (Walk.runFold [Walk.frame graph .static specifier] [specifier]
        { path := [some ⟨source, []⟩] }).state.result? := by
  simp only [contentHash?, walk, List.not_mem_nil, if_false, ContentHash.visitor,
    ContentHash.enter_of_foldView? view]
  rfl

theorem contentHash?_eq_none {graph : ModuleGraph} {specifier : Specifier}
    (absent : graph.foldView? specifier = none) : graph.contentHash? specifier = none := by
  simp only [contentHash?, walk, List.not_mem_nil, if_false, ContentHash.visitor,
    ContentHash.enter_of_foldView?_eq_none absent]
  rfl

/-- The content hash of a module that takes part in content hashes folds its source hash with others.
-/
theorem contentHash?_eq_some {graph : ModuleGraph} {specifier : Specifier} {source : String}
    {targets : List Specifier} (view : graph.foldView? specifier = some (source, targets)) :
    ∃ imports, graph.contentHash? specifier = some (foldHashes source imports) := by
  rw [contentHash?_of_foldView? view]
  exact Walk.runFold_result _ _ _ [] rfl (by simp) rfl

/-- The content hash of a module depends only on what its static imports lead to. -/
theorem contentHash?_congr {first second : ModuleGraph} {specifier : Specifier}
    (agree : ∀ other, ReflTransGen first.FoldsInto specifier other →
      first.foldView? other = second.foldView? other) :
    first.contentHash? specifier = second.contentHash? specifier := by
  have own := agree specifier .refl
  cases view : first.foldView? specifier with
  | none => rw [contentHash?_eq_none view, contentHash?_eq_none (own ▸ view)]
  | some found =>
    obtain ⟨source, targets⟩ := found
    have view' : second.foldView? specifier = some (source, targets) := own ▸ view
    rw [contentHash?_of_foldView? view, contentHash?_of_foldView? view']
    refine congrArg (·.state.result?)
      (Walk.runFold_congr (ReflTransGen first.FoldsInto specifier) ?_ agree _ _ _ _ ?_ ?_)
    · exact fun _ _ reached folds => reached.tail folds
    · rw [Walk.shape_frame, Walk.shape_frame, children_static view, children_static view']
      rfl
    · intro frame member next waits
      rw [List.mem_singleton.1 member, Walk.mem_frame, Follows, children_static view] at waits
      exact .single ⟨source, targets, view, waits⟩

theorem imports_of_reflTransGen {graph : ModuleGraph} {specifier other : Specifier}
    (folds : ReflTransGen graph.FoldsInto specifier other) :
    ReflTransGen graph.Imports specifier other :=
  ReflTransGen.mono (fun _ _ => FoldsInto.imports) _ _ folds

theorem contentHash?_of_apart {first second : ModuleGraph} {changed : Specifier → Prop}
    (same : ∀ other, ¬ changed other → first.foldView? other = second.foldView? other)
    {specifier : Specifier}
    (apart : ∀ other, ReflTransGen first.Imports specifier other → ¬ changed other) :
    first.contentHash? specifier = second.contentHash? specifier :=
  contentHash?_congr fun other reached => same other (apart other (imports_of_reflTransGen reached))

theorem Walk.frame_of_leaf {graph : ModuleGraph} {specifier : Specifier} {source : String}
    (view : graph.foldView? specifier = some (source, [])) :
    Walk.frame graph .static specifier = ⟨specifier, []⟩ := by
  have shaped : Walk.shape [Walk.frame graph .static specifier] = _ := Walk.shape_frame specifier
  rw [children_static view] at shaped
  obtain ⟨outer, path, -⟩ := Walk.shape_eq_leave shaped
  exact (List.cons.inj path).1

theorem Walk.frame_of_single {graph : ModuleGraph} {specifier target : Specifier} {source : String}
    (view : graph.foldView? specifier = some (source, [target])) :
    ∃ next, Walk.frame graph .static specifier = ⟨specifier, [next]⟩ ∧ next.val = target := by
  have shaped : Walk.shape [Walk.frame graph .static specifier] = _ := Walk.shape_frame specifier
  rw [children_static view] at shaped
  obtain ⟨next, left, outer, path, same, rest⟩ := Walk.shape_eq_step shaped
  obtain ⟨outer', path', -⟩ := Walk.shape_eq_leave rest
  obtain ⟨own, -⟩ := List.cons.inj path'
  rw [Walk.Frame.mk.injEq] at own
  refine ⟨next, ?_, same⟩
  rw [(List.cons.inj path).1, own.2]

theorem contentHash?_of_leaf {graph : ModuleGraph} {specifier : Specifier} {source : String}
    (view : graph.foldView? specifier = some (source, [])) :
    graph.contentHash? specifier = some source := by
  rw [contentHash?_of_foldView? view, Walk.frame_of_leaf view, Walk.runFold_leave, Walk.runFold_nil]
  rfl

theorem contentHash?_over_leaf {graph : ModuleGraph} {specifier target : Specifier}
    {source imported : String} (view : graph.foldView? specifier = some (source, [target]))
    (leaf : graph.foldView? target = some (imported, [])) (distinct : target ≠ specifier) :
    graph.contentHash? specifier = some (foldHashes source [imported]) := by
  obtain ⟨next, frame, rfl⟩ := Walk.frame_of_single view
  rw [contentHash?_of_foldView? view, frame, Walk.runFold_enter (by simpa using distinct) leaf,
    Walk.frame_of_leaf leaf, Walk.runFold_leave, Walk.runFold_leave, Walk.runFold_nil]
  rfl

theorem contentHash?_over_absent {graph : ModuleGraph} {specifier target : Specifier} {source : String}
    (view : graph.foldView? specifier = some (source, [target]))
    (absent : graph.foldView? target = none) : graph.contentHash? specifier = some source := by
  have distinct : target ≠ specifier := by
    rintro rfl
    cases absent.symm.trans view
  obtain ⟨next, frame, rfl⟩ := Walk.frame_of_single view
  rw [contentHash?_of_foldView? view, frame, Walk.runFold_idle (by simpa using distinct) absent,
    Walk.runFold_leave, Walk.runFold_nil]
  rfl

end ModuleGraph

end ModuleBuild
