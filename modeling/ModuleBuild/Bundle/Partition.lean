import ModuleBuild.Bundle.Analysis
import ModuleBuild.Graph.Walk
/-!
Splitting a module graph over entries.

Each entry is walked along static imports. The entry that reaches a module first owns it; when a
later entry reaches it, the module is shared and the walk goes no further there. Dynamic imports end
a walk, and each of their targets becomes an entry of its own after those that were given.
-/

namespace ModuleBuild.Bundle

open ModuleGraph.Walk (End)

structure Survey (graph : ModuleGraph) where
  analysis : Analysis := {}
  /-- The modules whose first occurrence is in the entry that is being walked. -/
  owned : List Specifier := []
  /-- The targets of dynamic imports met so far in this entry, the latest first. -/
  discovered : List (End graph .all) := []

/-- An import with the knowledge that it is one of the graph. -/
abbrev Step (graph : ModuleGraph) := { edge : DependencyEdge // edge.target ∈ graph.ends .all }

/-- A module on the current path, the number of its node, and its imports still to be walked. -/
structure Visit (graph : ModuleGraph) where
  number : Nat
  specifier : Specifier
  pending : List (Step graph)

namespace Survey

variable {graph : ModuleGraph}

theorem target_mem_ends {specifier : Specifier} {edge : DependencyEdge}
    (member : edge ∈ graph.dependencies specifier) : edge.target ∈ graph.ends .all :=
  ModuleGraph.mem_ends_of_mem_children
    (show edge.target ∈ graph.children .all specifier from List.mem_map.2 ⟨edge, member, rfl⟩)

def stepsFrom (graph : ModuleGraph) (specifier : Specifier) : List (Step graph) :=
  (graph.dependencies specifier).attachWith _ fun _ => target_mem_ends

def roleOf (survey : Survey graph) (path : List (Visit graph)) (specifier : Specifier) : Role :=
  match graph.get? specifier with
  | none => .missing
  | some record =>
    if record.isExternal then .external
    else if path.any (·.specifier = specifier) then .loop
    else if specifier ∈ survey.owned then .revisit
    else if survey.analysis.primary.contains specifier then .shared
    else .first false

def next (survey : Survey graph) : Nat := survey.analysis.forest.size

/-- Shares the first occurrence of a module, unless it is shared already. -/
def promote (analysis : Analysis) (specifier : Specifier) : Analysis :=
  match analysis.primary.get? specifier with
  | none => analysis
  | some owner =>
    if analysis.isShared specifier then analysis
    else
      { analysis with
        forest := analysis.forest.share owner
        shared := analysis.shared ++ [owner] }

/-- Adds an occurrence of a module, below a parent or as a root. -/
def occur (survey : Survey graph) (parent? : Option Nat) (specifier : Specifier)
    (isPreloaded : Bool) (role : Role) : Survey graph :=
  let analysis :=
    match role with
    | .shared => promote survey.analysis specifier
    | _ => survey.analysis
  let number := analysis.forest.size
  let forest := analysis.forest.grow specifier isPreloaded role
  let forest := match parent? with | some parent => forest.attach parent number | none => forest
  if role.isFirst then
    { survey with
      analysis := { analysis with forest, primary := analysis.primary.insert specifier number }
      owned := specifier :: survey.owned }
  else { survey with analysis := { analysis with forest } }

theorem mem_specifiers_of_roleOf {survey : Survey graph} {path : List (Visit graph)}
    {specifier : Specifier} (first : (survey.roleOf path specifier).isFirst = true) :
    specifier ∈ graph.specifiers ∧ specifier ∉ survey.analysis.primary.keys := by
  unfold roleOf at first
  split at first
  · exact absurd first (by simp [Role.isFirst])
  · rename_i record found
    refine ⟨OrderedMap.mem_keys_of_get? found, ?_⟩
    rw [← OrderedMap.get?_eq_none_iff]
    cases known : survey.analysis.primary.get? specifier with
    | none => rfl
    | some _ =>
      simp only [OrderedMap.contains, known, Option.isSome_some, if_true] at first
      repeat' split at first
      all_goals exact absurd first (by simp [Role.isFirst])

theorem primary_promote (analysis : Analysis) (specifier : Specifier) :
    (promote analysis specifier).primary = analysis.primary := by
  unfold promote
  split
  · rfl
  · split <;> rfl

theorem primary_occur (survey : Survey graph) (parent? : Option Nat) (specifier : Specifier)
    (isPreloaded : Bool) (role : Role) :
    (survey.occur parent? specifier isPreloaded role).analysis.primary =
      if role.isFirst then survey.analysis.primary.insert specifier survey.next
      else survey.analysis.primary := by
  cases role with
  | first => rfl
  | shared => exact primary_promote _ _
  | _ => rfl

/-- The specifiers that have a record and no first occurrence yet. -/
def fresh (survey : Survey graph) : Nat :=
  freshCount graph.specifiers survey.analysis.primary.keys

theorem fresh_occur_lt {survey : Survey graph} {path : List (Visit graph)} {specifier : Specifier}
    {role : Role} (decided : survey.roleOf path specifier = role) (first : role.isFirst = true)
    (parent? : Option Nat) (isPreloaded : Bool) :
    (survey.occur parent? specifier isPreloaded role).fresh < survey.fresh := by
  obtain ⟨member, unseen⟩ := mem_specifiers_of_roleOf (decided ▸ first)
  unfold fresh
  rw [primary_occur, if_pos first, OrderedMap.keys_insert, if_neg unseen]
  refine freshCount_lt_of_mem member unseen (List.mem_append_right _ (List.mem_singleton_self _)) ?_
  exact fun other met => List.mem_append_left _ met

theorem fresh_occur_eq (survey : Survey graph) (parent? : Option Nat) (specifier : Specifier)
    (isPreloaded : Bool) {role : Role} (later : ¬ role.isFirst = true) :
    (survey.occur parent? specifier isPreloaded role).fresh = survey.fresh := by
  unfold fresh
  rw [primary_occur, if_neg later]

def discover (survey : Survey graph) (target : End graph .all) : Survey graph :=
  { survey with discovered := target :: survey.discovered }

theorem fresh_discover (survey : Survey graph) (target : End graph .all) :
    (survey.discover target).fresh = survey.fresh := rfl

/-- Walks on from a path, its innermost module first. -/
def run (isPreloaded : Bool) (survey : Survey graph) (path : List (Visit graph)) : Survey graph :=
  match path with
  | [] => survey
  | ⟨_, _, []⟩ :: outer => run isPreloaded survey outer
  | ⟨number, specifier, ⟨edge, known⟩ :: pending⟩ :: outer =>
    let path := ⟨number, specifier, pending⟩ :: outer
    if edge.isDynamic then
      let occurred := survey.occur (some number) edge.target false .dynamic
      run isPreloaded (occurred.discover ⟨edge.target, known⟩) path
    else
      let role := survey.roleOf path edge.target
      let occurred := survey.occur (some number) edge.target isPreloaded role
      if _first : role.isFirst then
        let child := ⟨survey.next, edge.target, stepsFrom graph edge.target⟩
        run isPreloaded occurred (child :: path)
      else run isPreloaded occurred path
termination_by (survey.fresh, (path.flatMap (·.pending)).length + path.length)
decreasing_by
  · exact Prod.Lex.right _ (by simp)
  · rw [fresh_discover, fresh_occur_eq _ _ _ _ (by simp [Role.isFirst])]
    exact Prod.Lex.right _ (by simp +arith)
  · exact Prod.Lex.left _ _ (fresh_occur_lt rfl _first _ _)
  · rw [fresh_occur_eq _ _ _ _ _first]
    exact Prod.Lex.right _ (by simp +arith)

/-- Walks one module that an entry starts from, and gives the number of its node. -/
def visitRoot (isPreloaded : Bool) (survey : Survey graph) (specifier : Specifier) :
    Nat × Survey graph :=
  let role := survey.roleOf [] specifier
  let number := survey.next
  let survey := survey.occur none specifier isPreloaded role
  let path := if role.isFirst then [⟨number, specifier, stepsFrom graph specifier⟩] else []
  (number, run isPreloaded survey path)

/-- Walks an entry and adds its tree. Also gives the targets of its dynamic imports in order. -/
def visitEntry (graph : ModuleGraph) (analysis : Analysis) (entry : EntryPoint) (kind : EntryKind) :
    Analysis × List (End graph .all) :=
  let (roots, survey) :=
    entry.modules.foldl (fun (roots, survey) specifier =>
      let (number, survey) := visitRoot entry.isPreloaded survey specifier
      (roots ++ [number], survey)) (([] : List Nat), ({ analysis } : Survey graph))
  let tree : EntryTree :=
    { name := entry.name, kind, isPreloaded := entry.isPreloaded, roots }
  ({ survey.analysis with entries := survey.analysis.entries ++ [tree] },
    survey.discovered.reverse)

end Survey

/-! ## Entries for dynamic imports -/

def isNameChar (c : Char) : Bool := c.isAlphanum || c == '-' || c == '_'

/-- What a chunk is called after a module: its file name up to the first dot, with an underscore for
each character that is no letter, digit, hyphen or underscore. -/
def chunkStem (specifier : Specifier) : String :=
  let path := Specifier.pathPart specifier.chars
  let file := Text.afterLast '/' (path.reverse.dropWhile (· == '/')).reverse
  match (file.takeWhile (· ≠ '.')).map fun c => if isNameChar c then c else '_' with
  | [] => "chunk"
  | stem => String.ofList stem

/-- A name that is not taken: the stem itself, or with the least number from 2 on. Among one more
candidates than there are names, one is free. -/
def freeName (names : List String) (stem : String) : String :=
  let candidates := (List.range (names.length + 1)).map fun n =>
    if n = 0 then stem else s!"{stem}-{n + 1}"
  (candidates.find? (· ∉ names)).getD stem

/-- Names for the new ones among discovered modules; `roots` holds the modules that are entries. -/
def nameTargets {graph : ModuleGraph} (names : List String) (roots : List Specifier) :
    List (End graph .all) → List EntryPoint × List String × List Specifier
  | [] => ([], names, roots)
  | target :: rest =>
    if target.val ∈ roots then nameTargets names roots rest
    else
      let name := freeName names (chunkStem target.val)
      let (entries, names, roots) := nameTargets (name :: names) (target.val :: roots) rest
      ({ name, modules := [target.val] } :: entries, names, roots)

theorem nameTargets_fresh {graph : ModuleGraph} (names : List String) (roots : List Specifier)
    (targets : List (End graph .all)) :
    (∀ root ∈ roots, root ∈ (nameTargets names roots targets).2.2) ∧
      ((nameTargets names roots targets).1 = [] ∧
          (nameTargets names roots targets).2.2 = roots ∨
        freshCount (graph.ends .all) (nameTargets names roots targets).2.2 <
          freshCount (graph.ends .all) roots) := by
  induction targets generalizing names roots with
  | nil => exact ⟨fun _ member => member, Or.inl ⟨rfl, rfl⟩⟩
  | cons target rest ih =>
    unfold nameTargets
    split
    · exact ih names roots
    · rename_i unknown
      obtain ⟨kept, _⟩ :=
        ih (freeName names (chunkStem target.val) :: names) (target.val :: roots)
      refine ⟨fun root member => kept root (List.mem_cons_of_mem _ member), Or.inr ?_⟩
      exact freshCount_lt_of_mem target.property unknown (kept _ List.mem_cons_self)
        fun other member => kept other (List.mem_cons_of_mem _ member)

/-- Walks the entries that wait, and those for the dynamic imports they lead to. -/
def analyzeFrom (graph : ModuleGraph) (analysis : Analysis) (names : List String)
    (roots : List Specifier) (waiting : List (EntryPoint × EntryKind)) : Analysis :=
  match waiting with
  | [] => analysis
  | (entry, kind) :: rest =>
    let (analysis, discovered) := Survey.visitEntry graph analysis entry kind
    let named := nameTargets names roots discovered
    analyzeFrom graph analysis named.2.1 named.2.2 (rest ++ named.1.map (·, .async))
termination_by (freshCount (graph.ends .all) roots, waiting.length)
decreasing_by
  obtain ⟨_, ⟨none, same⟩ | less⟩ := nameTargets_fresh names roots discovered
  · rw [none, same]
    exact Prod.Lex.right _ (by simp +arith)
  · exact Prod.Lex.left _ _ less

/-- Splits a graph over entries, walked in order. -/
def analyze (graph : ModuleGraph) (entries : List EntryPoint) : Analysis :=
  analyzeFrom graph {} (entries.map (·.name)) (entries.flatMap (·.modules))
    (entries.map (·, .sync))

end ModuleBuild.Bundle
