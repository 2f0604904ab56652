import Mathlib.Data.List.Nodup
import ModuleBuild.Proofs.Graph.Reach
/-!
What a visitor is told in a walk, event by event: that the walk is a depth-first search, and how far it gets.
-/

namespace ModuleBuild

open Relation

/-- What a visitor is told, and what it answers when a module is entered. -/
inductive WalkEvent
  | enter (specifier : Specifier) (record? : Option ModuleRecord) (depth : Nat) (control : WalkControl)
  | leave (specifier : Specifier) (record? : Option ModuleRecord)
  | revisit (specifier : Specifier) (record? : Option ModuleRecord) (onPath : Bool)

/-- Does what another visitor does, and keeps a log of it, the latest event last. -/
def Visitor.logged {σ : Type} (visitor : Visitor σ) : Visitor (σ × List WalkEvent) where
  enter specifier record? depth state :=
    let (inner, control) := visitor.enter specifier record? depth state.1
    ((inner, state.2 ++ [.enter specifier record? depth control]), control)
  leave specifier record? state :=
    (visitor.leave specifier record? state.1, state.2 ++ [.leave specifier record?])
  revisit specifier record? onPath state :=
    (visitor.revisit specifier record? onPath state.1, state.2 ++ [.revisit specifier record? onPath])

namespace WalkEvent

def entered? : WalkEvent → Option Specifier
  | enter specifier _ _ _ => some specifier
  | _ => none

def followed? : WalkEvent → Option Specifier
  | enter specifier _ _ .continue => some specifier
  | _ => none

def left? : WalkEvent → Option Specifier
  | leave specifier _ => some specifier
  | _ => none

def entered (log : List WalkEvent) : List Specifier := log.filterMap entered?

def left (log : List WalkEvent) : List Specifier := log.filterMap left?

/-- The specifiers that were entered to be followed and not left since, outermost first. -/
def opened (log : List WalkEvent) : List Specifier :=
  (log.filterMap followed?).filter (· ∉ left log)

/-- An event tells the truth about its specifier, after the events before it. -/
def Agrees (graph : ModuleGraph) (before : List WalkEvent) : WalkEvent → Prop
  | enter specifier record? depth _ =>
    record? = graph.get? specifier ∧ depth = (opened before).length
  | leave specifier record? => record? = graph.get? specifier
  | revisit specifier record? onPath =>
    record? = graph.get? specifier ∧ (onPath = true ↔ specifier ∈ opened before)

/-- Everything that is entered is left, after all that was entered within it and before all that is entered
later. -/
inductive WellNested : List WalkEvent → Prop
  | done : WellNested []
  | revisited {specifier : Specifier} {record? : Option ModuleRecord} {onPath : Bool}
      {rest : List WalkEvent} (later : WellNested rest) :
      WellNested (revisit specifier record? onPath :: rest)
  | skipped {specifier : Specifier} {record? : Option ModuleRecord} {depth : Nat}
      {rest : List WalkEvent} (later : WellNested rest) :
      WellNested (enter specifier record? depth .skipChildren :: leave specifier record? :: rest)
  | followed {specifier : Specifier} {record? : Option ModuleRecord} {depth : Nat}
      {inner rest : List WalkEvent} (within : WellNested inner) (later : WellNested rest) :
      WellNested (enter specifier record? depth .continue :: inner ++ leave specifier record? :: rest)

theorem WellNested.append {first second : List WalkEvent} (one : WellNested first)
    (two : WellNested second) : WellNested (first ++ second) := by
  induction one with
  | done => exact two
  | revisited _ ih => exact .revisited ih
  | skipped _ ih => exact .skipped ih
  | followed within _ _ ih =>
    rw [List.append_assoc, List.cons_append]
    exact .followed within ih

theorem WellNested.left_perm_entered {log : List WalkEvent} (nested : WellNested log) :
    (left log).Perm (entered log) := by
  induction nested with
  | done => exact .refl _
  | revisited _ ih => exact ih
  | skipped _ ih => exact ih.cons _
  | @followed specifier _ _ inner rest _ _ ih ih' =>
    simp only [left, entered, List.cons_append, List.filterMap_cons, left?, entered?,
      List.filterMap_append] at ih ih' ⊢
    exact List.perm_middle.trans ((ih.append ih').cons specifier)

variable {log : List WalkEvent} {specifier : Specifier} {record? : Option ModuleRecord}

@[simp] theorem entered_append (first second : List WalkEvent) :
    entered (first ++ second) = entered first ++ entered second := List.filterMap_append

@[simp] theorem left_append (first second : List WalkEvent) :
    left (first ++ second) = left first ++ left second := List.filterMap_append

theorem opened_append_of_none {event : WalkEvent} (follows : event.followed? = none)
    (leaves : event.left? = none) : opened (log ++ [event]) = opened log := by
  simp [opened, left, follows, leaves]

theorem opened_follow (unleft : specifier ∉ left log) (depth : Nat) :
    opened (log ++ [enter specifier record? depth .continue]) = opened log ++ [specifier] := by
  have same : left (log ++ [enter specifier record? depth .continue]) = left log := by
    simp [left, left?]
  rw [opened, opened, same, List.filterMap_append, List.filter_append]
  simp [followed?, unleft]

theorem opened_leave :
    opened (log ++ [leave specifier record?]) = (opened log).filter (· ≠ specifier) := by
  simp [opened, left, followed?, left?, List.filter_filter,
    not_or, and_comm]

theorem opened_sublist (log : List WalkEvent) : (opened log).Sublist (entered log) := by
  refine List.filter_sublist.trans ?_
  induction log with
  | nil => exact .slnil
  | cons event rest ih =>
    cases event with
    | enter specifier record? depth control =>
      cases control with
      | «continue» => exact ih.cons_cons specifier
      | skipChildren => exact ih.cons specifier
      | stop => exact ih.cons specifier
    | leave => exact ih
    | revisit => exact ih

/-- The events of a log agree with those before them if they do so one after another. -/
theorem agrees_concat {graph : ModuleGraph} {log : List WalkEvent} {event : WalkEvent}
    (earlier : ∀ before other after, log = before ++ other :: after → other.Agrees graph before)
    (last : event.Agrees graph log) :
    ∀ before other after, log ++ [event] = before ++ other :: after → other.Agrees graph before := by
  intro before other after same
  rcases List.eq_nil_or_concat after with rfl | ⟨after, final, rfl⟩
  · obtain ⟨rfl, tail⟩ := List.append_inj' same rfl
    obtain rfl := List.singleton_inj.1 tail
    exact last
  · rw [List.concat_eq_append, ← List.cons_append, ← List.append_assoc] at same
    obtain ⟨rfl, -⟩ := List.append_inj' same rfl
    exact earlier before other after rfl

/-- A log of which some modules were not left yet, innermost first. -/
inductive Unfinished (graph : ModuleGraph) : List Specifier → List WalkEvent → Prop
  | nested {log : List WalkEvent} (nested : WellNested log) : Unfinished graph [] log
  | within {specifier : Specifier} {depth : Nat} {outer : List Specifier}
      {log inner : List WalkEvent} (before : Unfinished graph outer log) (nested : WellNested inner) :
      Unfinished graph (specifier :: outer)
        (log ++ enter specifier (graph.get? specifier) depth .continue :: inner)

namespace Unfinished

variable {graph : ModuleGraph} {path : List Specifier} {log : List WalkEvent}

theorem append (unfinished : Unfinished graph path log) {more : List WalkEvent}
    (nested : WellNested more) : Unfinished graph path (log ++ more) := by
  cases unfinished with
  | nested earlier => exact .nested (earlier.append nested)
  | within before earlier =>
    rw [List.append_assoc, List.cons_append]
    exact .within before (earlier.append nested)

theorem enter (unfinished : Unfinished graph path log) (specifier : Specifier) (depth : Nat) :
    Unfinished graph (specifier :: path)
      (log ++ [.enter specifier (graph.get? specifier) depth .continue]) :=
  .within unfinished .done

theorem leave {specifier : Specifier} {outer : List Specifier}
    (unfinished : Unfinished graph (specifier :: outer) log) :
    Unfinished graph outer (log ++ [.leave specifier (graph.get? specifier)]) := by
  cases unfinished with
  | within before nested =>
    rw [List.append_assoc, List.cons_append]
    exact before.append (.followed nested .done)

theorem wellNested (unfinished : Unfinished graph [] log) : WellNested log := by
  cases unfinished with
  | nested nested => exact nested

end Unfinished

end WalkEvent

open WalkEvent

namespace ModuleGraph

/-- An edge in the direction of a walk, as the records and the importers of a graph have it. -/
def Edge (graph : ModuleGraph) : Direction → Specifier → Specifier → Prop
  | .static, importer, target =>
    ∃ edge ∈ graph.dependencies importer, edge.isDynamic = false ∧ edge.target = target
  | .all, importer, target => graph.Imports importer target
  | .dependents, target, importer => importer ∈ graph.importersOf target

theorem follows_iff_edge (graph : ModuleGraph) (direction : Direction) (specifier child : Specifier) :
    graph.Follows direction specifier child ↔ graph.Edge direction specifier child := by
  cases direction with
  | static =>
    simp only [Follows, children, Edge]
    cases found : graph.get? specifier with
    | none => simp [dependencies_of_get?_eq_none found]
    | some record =>
      simp [dependencies_of_get? found, ModuleRecord.staticDependencies, and_assoc]
  | all => exact List.mem_map
  | dependents => exact List.mem_mergeSort

/-- Edges lead from one specifier to another without meeting some that are to be avoided. -/
def LeadsAround (graph : ModuleGraph) (direction : Direction) (avoided : List Specifier)
    (start specifier : Specifier) : Prop :=
  start ∉ avoided ∧
    ReflTransGen (fun other child => graph.Edge direction other child ∧ child ∉ avoided) start specifier

/-- What a visitor is told in a walk. -/
def walkEvents {σ : Type} (graph : ModuleGraph) (start : Specifier) (direction : Direction)
    (initial : List Specifier) (visitor : Visitor σ) (state : σ) : List WalkEvent :=
  (graph.walk start direction initial visitor.logged (state, [])).state.2

namespace Walk

variable {σ : Type} {graph : ModuleGraph} {direction : Direction}

def edgesFrom (graph : ModuleGraph) (direction : Direction) (modules : List Specifier) : Nat :=
  (modules.flatMap (graph.children direction)).length

theorem edgesFrom_concat (modules : List Specifier) (specifier : Specifier) :
    edgesFrom graph direction (modules ++ [specifier]) =
      edgesFrom graph direction modules + (graph.children direction specifier).length := by
  simp [edgesFrom, -List.length_flatMap]

/-- The number of events that steps left on a path may come to: two for a step, and one for going back. -/
def room (path : List (Frame graph direction)) : Nat :=
  2 * (path.flatMap (·.pending)).length + path.length

theorem room_cons (specifier : Specifier) (pending : List (End graph direction))
    (path : List (Frame graph direction)) :
    room (⟨specifier, pending⟩ :: path) = 2 * pending.length + 1 + room path := by
  simp only [room, List.flatMap_cons, List.length_append, List.length_cons]
  omega

theorem room_frame (specifier : Specifier) (path : List (Frame graph direction)) :
    room (frame graph direction specifier :: path) =
      2 * (graph.children direction specifier).length + 1 + room path := by
  rw [frame, room_cons, List.length_attachWith]

structure Tells (graph : ModuleGraph) (direction : Direction) (start : Specifier)
    (initial traced : List Specifier) (log : List WalkEvent) : Prop where
  traced : traced = (entered log).reverse ++ initial
  once : (entered log).Nodup
  fresh : ∀ specifier ∈ entered log, specifier ∉ initial
  reached : ∀ specifier ∈ entered log, graph.LeadsAround direction initial start specifier
  agrees : ∀ before event after, log = before ++ event :: after → event.Agrees graph before
  bounded : log.length ≤ 2 + 2 * edgesFrom graph direction (entered log)

structure Goes (start : Specifier) (initial : List Specifier) (path : List (Frame graph direction))
    (traced : List Specifier) (log : List WalkEvent) : Prop where
  tells : Tells graph direction start initial traced log
  follows : ∀ frame ∈ path, ∀ next ∈ frame.pending, graph.Follows direction frame.specifier next.val
  closed : ∀ specifier ∈ left log, specifier ∈ entered log
  onPath : opened log = (path.map (·.specifier)).reverse
  nested : Unfinished graph (path.map (·.specifier)) log
  bounded : log.length + room path ≤ 2 + 2 * edgesFrom graph direction (entered log)

namespace Tells

variable {start : Specifier} {initial traced : List Specifier} {log : List WalkEvent}
  (tells : Tells graph direction start initial traced log)

include tells

theorem notMem {specifier : Specifier} (fresh : specifier ∉ traced) :
    specifier ∉ entered log ∧ specifier ∉ initial := by
  rw [tells.traced] at fresh
  simpa using fresh

theorem append {event : WalkEvent} (idle : event.entered? = none) (agrees : event.Agrees graph log)
    (bounded : log.length + 1 ≤ 2 + 2 * edgesFrom graph direction (entered log)) :
    Tells graph direction start initial traced (log ++ [event]) := by
  have same : entered (log ++ [event]) = entered log := by simp [entered, idle]
  exact
    { traced := by rw [same, tells.traced]
      once := by rw [same]; exact tells.once
      fresh := by rw [same]; exact tells.fresh
      reached := by rw [same]; exact tells.reached
      agrees := agrees_concat tells.agrees agrees
      bounded := by rw [same, List.length_append]; exact bounded }

theorem enter {specifier : Specifier} (fresh : specifier ∉ traced)
    (leads : graph.LeadsAround direction initial start specifier) {depth : Nat}
    (deep : depth = (opened log).length) (control : WalkControl)
    (bounded : log.length + 1 ≤ 2 + 2 * edgesFrom graph direction (entered log)) :
    Tells graph direction start initial (specifier :: traced)
      (log ++ [.enter specifier (graph.get? specifier) depth control]) := by
  obtain ⟨absent, apart⟩ := tells.notMem fresh
  have more : entered (log ++ [.enter specifier (graph.get? specifier) depth control]) =
      entered log ++ [specifier] := entered_append _ _
  refine ⟨?_, ?_, ?_, ?_, agrees_concat tells.agrees ⟨rfl, deep⟩, ?_⟩
  · rw [more, tells.traced]
    simp
  · rw [more]
    exact List.concat_eq_append ▸ List.Nodup.concat absent tells.once
  · rw [more]
    intro other member
    rcases List.mem_append.1 member with old | new
    · exact tells.fresh other old
    · exact List.mem_singleton.1 new ▸ apart
  · rw [more]
    intro other member
    rcases List.mem_append.1 member with old | new
    · exact tells.reached other old
    · exact List.mem_singleton.1 new ▸ leads
  · rw [more, edgesFrom_concat, List.length_append]
    exact Nat.le_trans bounded (by omega)

end Tells

namespace Goes

variable {start : Specifier} {initial traced : List Specifier} {log : List WalkEvent} {specifier : Specifier}
  {child : End graph direction} {pending : List (End graph direction)}
  {outer path : List (Frame graph direction)}

theorem length_opened (goes : Goes start initial path traced log) : (opened log).length = path.length := by
  rw [goes.onPath, List.length_reverse, List.length_map]

theorem any_eq (goes : Goes start initial path traced log) (specifier : Specifier) :
    path.any (·.specifier = specifier) = true ↔ specifier ∈ opened log := by
  rw [goes.onPath, List.mem_reverse, List.any_eq_true, List.mem_map]
  simp

theorem room_step (goes : Goes start initial (⟨specifier, child :: pending⟩ :: outer) traced log) :
    log.length + 2 + room (⟨specifier, pending⟩ :: outer) ≤
      2 + 2 * edgesFrom graph direction (entered log) := by
  have bounded := goes.bounded
  rw [room_cons, List.length_cons] at bounded
  rw [room_cons]
  omega

theorem leads (goes : Goes start initial (⟨specifier, child :: pending⟩ :: outer) traced log)
    (fresh : child.val ∉ traced) : graph.LeadsAround direction initial start child.val := by
  have follows := goes.follows _ List.mem_cons_self child List.mem_cons_self
  have onPath : specifier ∈ opened log := by simp [goes.onPath]
  obtain ⟨apart, reached⟩ := goes.tells.reached specifier ((opened_sublist log).mem onPath)
  exact ⟨apart, reached.tail
    ⟨(graph.follows_iff_edge _ _ _).1 follows, (goes.tells.notMem fresh).2⟩⟩

theorem follows_rest (goes : Goes start initial (⟨specifier, child :: pending⟩ :: outer) traced log) :
    ∀ frame ∈ (⟨specifier, pending⟩ :: outer : List (Frame graph direction)),
      ∀ next ∈ frame.pending, graph.Follows direction frame.specifier next.val := by
  intro frame member next waits
  rcases List.mem_cons.1 member with rfl | later
  · exact goes.follows _ List.mem_cons_self next (List.mem_cons_of_mem _ waits)
  · exact goes.follows frame (List.mem_cons_of_mem _ later) next waits

theorem revisit (goes : Goes start initial (⟨specifier, child :: pending⟩ :: outer) traced log) :
    Goes start initial (⟨specifier, pending⟩ :: outer) traced
      (log ++ [.revisit child.val (graph.get? child.val)
        ((⟨specifier, pending⟩ :: outer : List (Frame graph direction)).any
          (·.specifier = child.val))]) := by
  have bounded := goes.room_step
  refine ⟨goes.tells.append rfl ⟨rfl, goes.any_eq child.val⟩ (by omega), goes.follows_rest, ?_, ?_,
    goes.nested.append (.revisited .done), ?_⟩
  · simpa [left, entered, left?, entered?] using goes.closed
  · rw [opened_append_of_none rfl rfl, goes.onPath]
    rfl
  · rw [entered_append, List.length_append]
    simp only [entered, List.filterMap_cons, entered?, List.filterMap_nil, List.append_nil,
      List.length_cons, List.length_nil] at bounded ⊢
    omega

theorem enter (goes : Goes start initial (⟨specifier, child :: pending⟩ :: outer) traced log)
    (fresh : child.val ∉ traced) :
    Goes start initial (frame graph direction child.val :: ⟨specifier, pending⟩ :: outer)
      (child.val :: traced)
      (log ++ [.enter child.val (graph.get? child.val) (outer.length + 1) .continue]) := by
  have bounded := goes.room_step
  have depth : outer.length + 1 = (opened log).length := by rw [goes.length_opened]; rfl
  obtain ⟨absent, -⟩ := goes.tells.notMem fresh
  have unleft : child.val ∉ left log := fun member => absent (goes.closed _ member)
  refine ⟨goes.tells.enter fresh (goes.leads fresh) depth _ (by omega), ?_, ?_, ?_, ?_, ?_⟩
  · intro other member next waits
    rcases List.mem_cons.1 member with rfl | old
    · exact mem_frame.1 waits
    · exact goes.follows_rest other old next waits
  · rw [entered_append, left_append]
    intro other member
    rcases List.mem_append.1 member with old | new
    · exact List.mem_append_left _ (goes.closed other old)
    · exact absurd new List.not_mem_nil
  · rw [opened_follow unleft, goes.onPath]
    simp [frame]
  · exact goes.nested.enter child.val (outer.length + 1)
  · have more : entered (log ++ [.enter child.val (graph.get? child.val) (outer.length + 1) .continue]) =
        entered log ++ [child.val] := entered_append _ _
    rw [more, edgesFrom_concat, room_frame, List.length_append, List.length_singleton]
    omega

theorem skip (goes : Goes start initial (⟨specifier, child :: pending⟩ :: outer) traced log)
    (fresh : child.val ∉ traced) :
    Goes start initial (⟨specifier, pending⟩ :: outer) (child.val :: traced)
      (log ++ [.enter child.val (graph.get? child.val) (outer.length + 1) .skipChildren] ++
        [.leave child.val (graph.get? child.val)]) := by
  have bounded := goes.room_step
  have depth : outer.length + 1 = (opened log).length := by rw [goes.length_opened]; rfl
  have tells := goes.tells.enter fresh (goes.leads fresh) depth .skipChildren (by omega)
  obtain ⟨absent, -⟩ := goes.tells.notMem fresh
  have unopened : child.val ∉ opened log := fun member => absent ((opened_sublist log).mem member)
  have more : entered (log ++ [.enter child.val (graph.get? child.val) (outer.length + 1)
      .skipChildren]) = entered log ++ [child.val] := entered_append _ _
  have same : entered (log ++ [.enter child.val (graph.get? child.val) (outer.length + 1)
      .skipChildren] ++ [.leave child.val (graph.get? child.val)]) = entered log ++ [child.val] := by
    rw [entered_append, more]
    exact List.append_nil _
  refine ⟨tells.append rfl rfl ?_, goes.follows_rest, ?_, ?_, ?_, ?_⟩
  · rw [more, edgesFrom_concat, List.length_append, List.length_singleton]
    omega
  · rw [same, left_append, left_append]
    intro other member
    rcases List.mem_append.1 member with old | new
    · exact List.mem_append_left _ (goes.closed other (by simpa [left, left?] using old))
    · exact List.mem_append_right _ new
  · rw [opened_leave, opened_append_of_none rfl rfl, goes.onPath, List.filter_eq_self.2, List.map_cons,
      List.map_cons]
    intro other member
    rw [← goes.onPath] at member
    simpa using fun same : other = child.val => unopened (same ▸ member)
  · rw [List.append_assoc]
    exact goes.nested.append (.skipped .done)
  · rw [same, edgesFrom_concat, List.length_append, List.length_append, List.length_singleton,
      List.length_singleton]
    omega

theorem leave (goes : Goes start initial (⟨specifier, []⟩ :: outer) traced log) :
    Goes start initial outer traced (log ++ [.leave specifier (graph.get? specifier)]) := by
  have bounded := goes.bounded
  rw [room_cons, List.length_nil] at bounded
  have onPath : opened log = (outer.map (·.specifier)).reverse ++ [specifier] := by
    rw [goes.onPath, List.map_cons, List.reverse_cons]
  have same : entered (log ++ [.leave specifier (graph.get? specifier)]) = entered log :=
    (entered_append _ _).trans (List.append_nil _)
  have own : specifier ∈ entered log := (opened_sublist log).mem (by simp [onPath])
  refine ⟨goes.tells.append rfl rfl (by omega),
    fun frame member => goes.follows frame (List.mem_cons_of_mem _ member), ?_, ?_,
    goes.nested.leave, ?_⟩
  · rw [same, left_append]
    intro other member
    rcases List.mem_append.1 member with old | new
    · exact goes.closed other old
    · exact List.mem_singleton.1 new ▸ own
  · have once : (opened log).Nodup := goes.tells.once.sublist (opened_sublist log)
    rw [onPath, List.nodup_append] at once
    rw [opened_leave, onPath, List.filter_append, List.filter_eq_self.2]
    · simp
    · intro other member
      simpa using once.2.2 other member specifier (List.mem_singleton_self _)
  · rw [same, List.length_append, List.length_singleton]
    omega

end Goes

structure Finishes (graph : ModuleGraph) (direction : Direction) (start : Specifier)
    (initial : List Specifier) (outcome : WalkOutcome) (traced : List Specifier) (log : List WalkEvent) :
    Prop where
  tells : Tells graph direction start initial traced log
  nested : outcome = .completed → WellNested log

/-- From where it has come, a walk goes on to tell of a depth-first search. -/
theorem run_logged (visitor : Visitor σ) (start : Specifier) (initial : List Specifier)
    (path : List (Frame graph direction)) (traced : List Specifier) (state : σ) :
    ∀ log, Goes start initial path traced log →
      let result := run graph direction visitor path traced state
      let told := run graph direction visitor.logged path traced (state, log)
      told.outcome = result.outcome ∧ told.traced = result.traced ∧ told.state.1 = result.state ∧
        Finishes graph direction start initial told.outcome told.traced told.state.2 := by
  induction path, traced, state using run.induct graph direction visitor with
  | case1 traced state =>
    intro log goes
    rw [run, run]
    exact ⟨rfl, rfl, rfl, goes.tells, fun _ => goes.nested.wellNested⟩
  | case2 traced state specifier outer ih =>
    intro log goes
    rw [run, run]
    exact ih _ goes.leave
  | case3 traced state specifier child pending outer path record? met onPath ih =>
    intro log goes
    rw [run, run, dif_pos met, dif_pos met]
    exact ih _ goes.revisit
  | case4 traced state specifier child pending outer path record? fresh after stops =>
    intro log goes
    have bounded := goes.room_step
    have depth : outer.length + 1 = (opened log).length := by rw [goes.length_opened]; rfl
    have tells := goes.tells.enter fresh (goes.leads fresh) depth .stop (by omega)
    rw [run, run, dif_neg fresh, dif_neg fresh]
    simp only [path, record?, List.length_cons] at stops
    simp only [Visitor.logged, List.length_cons, stops]
    exact ⟨trivial, trivial, trivial, tells, fun completed => absurd completed (by decide)⟩
  | case5 traced state specifier child pending outer path record? fresh after skips ih =>
    intro log goes
    rw [run, run, dif_neg fresh, dif_neg fresh]
    simp only [path, record?, List.length_cons] at skips ih
    simp only [Visitor.logged, List.length_cons, skips] at ih ⊢
    exact ih _ (goes.skip fresh)
  | case6 traced state specifier child pending outer path record? fresh after goesOn ih =>
    intro log goes
    rw [run, run, dif_neg fresh, dif_neg fresh]
    simp only [path, record?, List.length_cons] at goesOn ih
    simp only [Visitor.logged, List.length_cons, goesOn] at ih ⊢
    exact ih _ (goes.enter fresh)

theorem run_completed (visitor : Visitor σ)
    (unstopped : ∀ met record? depth state, (visitor.enter met record? depth state).2 ≠ .stop)
    (path : List (Frame graph direction)) (traced : List Specifier) (state : σ) :
    (run graph direction visitor path traced state).outcome = .completed := by
  induction path, traced, state using run.induct graph direction visitor with
  | case1 traced state => rw [run]
  | case2 traced state specifier outer ih =>
    rw [run]
    exact ih
  | case3 traced state specifier child pending outer path record? met onPath ih =>
    rw [run, dif_pos met]
    exact ih
  | case4 traced state specifier child pending outer path record? fresh after stops =>
    have goesOn := unstopped child.val record? path.length state
    simp [stops] at goesOn
  | case5 traced state specifier child pending outer path record? fresh after skips ih =>
    rw [run, dif_neg fresh]
    simp only [path, record?] at skips ih
    simp only [skips]
    exact ih
  | case6 traced state specifier child pending outer path record? fresh after goesOn ih =>
    rw [run, dif_neg fresh]
    simp only [path, record?] at goesOn ih
    simp only [goesOn]
    exact ih

theorem tells_nothing (graph : ModuleGraph) (direction : Direction) (start : Specifier)
    (initial : List Specifier) : Tells graph direction start initial initial [] where
  traced := rfl
  once := List.nodup_nil
  fresh := nofun
  reached := nofun
  agrees before _ after same := by simp at same
  bounded := Nat.zero_le _

theorem tells_start {start : Specifier} {initial : List Specifier} (fresh : start ∉ initial)
    (control : WalkControl) :
    Tells graph direction start initial (start :: initial)
      [.enter start (graph.get? start) 0 control] :=
  (tells_nothing graph direction start initial).enter fresh ⟨fresh, .refl⟩ rfl control
    (Nat.le_add_right_of_le (Nat.le_succ 1))

theorem goes_start {start : Specifier} {initial : List Specifier} (fresh : start ∉ initial) :
    Goes start initial [frame graph direction start] (start :: initial)
      [.enter start (graph.get? start) 0 .continue] where
  tells := tells_start fresh .continue
  follows frame member next waits := by
    rw [List.mem_singleton.1 member] at waits ⊢
    exact mem_frame.1 waits
  closed := nofun
  onPath := rfl
  nested := .within (.nested .done) .done
  bounded := by
    rw [room_frame]
    simp [room, edgesFrom, entered, entered?]
    omega

end Walk

open Walk

variable {σ : Type}

theorem walk_logged (graph : ModuleGraph) (start : Specifier) (direction : Direction)
    (initial : List Specifier) (visitor : Visitor σ) (state : σ) :
    let result := graph.walk start direction initial visitor state
    let told := graph.walk start direction initial visitor.logged (state, [])
    told.outcome = result.outcome ∧ told.traced = result.traced ∧ told.state.1 = result.state ∧
      Finishes graph direction start initial told.outcome told.traced told.state.2 := by
  simp only [walk]
  by_cases met : start ∈ initial
  · rw [if_pos met, if_pos met]
    refine ⟨rfl, rfl, rfl, (tells_nothing graph direction start initial).append rfl ⟨rfl, ?_⟩ ?_,
      fun _ => .revisited .done⟩
    · exact ⟨nofun, nofun⟩
    · exact Nat.le_add_right_of_le (Nat.le_succ 1)
  · rw [if_neg met, if_neg met]
    cases enters : visitor.enter start (graph.get? start) 0 state with
    | mk after control =>
      simp only [Visitor.logged, enters]
      cases control with
      | stop => exact ⟨rfl, rfl, rfl, tells_start met .stop, nofun⟩
      | skipChildren =>
        refine ⟨rfl, rfl, rfl, (tells_start met .skipChildren).append rfl rfl ?_, fun _ =>
          .skipped .done⟩
        exact Nat.le_add_right 2 _
      | «continue» => exact run_logged visitor start initial _ _ after _ (goes_start met)

/-- A walk that follows everything meets all that edges lead to around what was met before. -/
theorem walk_meets (graph : ModuleGraph) (start : Specifier) (direction : Direction)
    (initial : List Specifier) {visitor : Visitor σ}
    (goesOn : ∀ met record? depth state, (visitor.enter met record? depth state).2 = .continue)
    (state : σ) :
    let result := graph.walk start direction initial visitor state
    result.outcome = .completed ∧
      ∀ specifier, graph.LeadsAround direction initial start specifier → specifier ∈ result.traced := by
  have unstopped : ∀ met record? depth state,
      (visitor.enter met record? depth state).2 ≠ .stop := by simp [goesOn]
  simp only [walk]
  by_cases met : start ∈ initial
  · rw [if_pos met]
    exact ⟨rfl, fun specifier leads => absurd met leads.1⟩
  · have follow := goesOn start (graph.get? start) 0 state
    rw [if_neg met]
    generalize visitor.enter start (graph.get? start) 0 state = entry at follow ⊢
    obtain ⟨after, control⟩ := entry
    obtain rfl : control = .continue := follow
    have covered : Covered (· ∈ initial) [frame graph direction start] (start :: initial) :=
      covered_frame fun other member apart => absurd member apart
    obtain ⟨closed, kept⟩ := run_closed visitor unstopped (by simp [goesOn]) _ _ after covered
    refine ⟨run_completed visitor unstopped _ _ after, fun specifier leads => ?_⟩
    have leads' : specifier ∉ initial ∧
        specifier ∈ (run graph direction visitor [frame graph direction start] (start :: initial)
          after).traced := by
      induction leads.2 with
      | refl => exact ⟨met, kept start List.mem_cons_self⟩
      | tail before step ih =>
        obtain ⟨edge, apart⟩ := step
        obtain ⟨apart', there⟩ := ih ⟨met, before⟩
        exact ⟨apart, closed _ there apart' _ ((graph.follows_iff_edge _ _ _).2 edge)⟩
    exact leads'.2

/-- Every walk ends, and is a depth-first search: it enters each specifier once at most and none that it is
to take as met; it is told how many of the modules entered and followed were not left yet, and whether a
specifier that is met again is one of these; what it enters it leaves, well nested, unless it is stopped.
What it enters can be reached around what was met before, and is all of this if everything is followed. -/
theorem walk_is_depth_first (graph : ModuleGraph) (start : Specifier) (direction : Direction)
    (initial : List Specifier) (visitor : Visitor σ) (state : σ) :
    let result := graph.walk start direction initial visitor state
    let log := graph.walkEvents start direction initial visitor state
    graph.walk start direction initial visitor.logged (state, []) =
        ⟨result.outcome, result.traced, (result.state, log)⟩ ∧
      log.length ≤ 2 + 2 * ((entered log).flatMap (graph.children direction)).length ∧
      (entered log).Nodup ∧
      (∀ specifier ∈ entered log, specifier ∉ initial) ∧
      (∀ before event after, log = before ++ event :: after → event.Agrees graph before) ∧
      (result.outcome = .completed → WellNested log ∧ (left log).Perm (entered log)) ∧
      (∀ specifier, specifier ∈ result.traced ↔ specifier ∈ initial ∨ specifier ∈ entered log) ∧
      (∀ specifier ∈ entered log, graph.LeadsAround direction initial start specifier) ∧
      ((∀ met record? depth state, (visitor.enter met record? depth state).2 = .continue) →
        result.outcome = .completed ∧
          ∀ specifier, specifier ∈ entered log ↔
            graph.LeadsAround direction initial start specifier) := by
  intro result log
  have told := graph.walk_logged start direction initial visitor state
  have meets (goesOn : ∀ met record? depth state,
      (visitor.enter met record? depth state).2 = .continue) :=
    graph.walk_meets start direction initial goesOn state
  simp only [log, walkEvents]
  generalize graph.walk start direction initial visitor.logged (state, []) = logged at told ⊢
  obtain ⟨outcome, traced, inner, events⟩ := logged
  obtain ⟨rfl, rfl, rfl, tells, nested⟩ := told
  have met (specifier : Specifier) :
      specifier ∈ result.traced ↔ specifier ∈ initial ∨ specifier ∈ entered events := by
    rw [tells.traced, List.mem_append, List.mem_reverse, or_comm]
  refine ⟨rfl, tells.bounded, tells.once, tells.fresh, tells.agrees, fun completed =>
    ⟨nested completed, (nested completed).left_perm_entered⟩, met, tells.reached, fun goesOn =>
    ⟨(meets goesOn).1, fun specifier => ⟨tells.reached specifier, fun leads => ?_⟩⟩⟩
  refine ((met specifier).1 ((meets goesOn).2 specifier leads)).resolve_left fun member => ?_
  -- what edges lead to around the modules met before is none of them
  obtain ⟨apart, path⟩ := leads
  cases path with
  | refl => exact apart member
  | tail _ step => exact step.2 member

/-! ## A ring with a loose end -/

/-- Counts what it enters, and follows everything. -/
def counting : Visitor Nat where
  enter _ _ _ count := (count + 1, .continue)

/-- Two modules import each other, and one of them a module that is gone and one that is known. -/
def frayedRing : ModuleGraph :=
  empty
    |>.insert { specifier := ⟨"/a.js"⟩, dependencies := [{ target := ⟨"/b.js"⟩ }] }
    |>.insert
      { specifier := ⟨"/b.js"⟩
        dependencies := [{ target := ⟨"/a.js"⟩ }, { target := ⟨"/gone.js"⟩ }, { target := ⟨"/known.js"⟩ }] }

/-- A walk that is to take one module as met enters the one that is gone, and not the one that is known. -/
theorem walk_is_depth_first_frayedRing :
    (∀ met record? depth state, (counting.enter met record? depth state).2 = .continue) ∧
      let log := frayedRing.walkEvents ⟨"/a.js"⟩ .static [⟨"/known.js"⟩] counting 0
      WellNested log ∧ ⟨"/gone.js"⟩ ∈ entered log ∧ ⟨"/known.js"⟩ ∉ entered log := by
  have goesOn : ∀ met record? depth state,
      (counting.enter met record? depth state).2 = .continue := fun _ _ _ _ => rfl
  obtain ⟨-, -, -, fresh, -, nested, -, -, follows⟩ :=
    frayedRing.walk_is_depth_first ⟨"/a.js"⟩ .static [⟨"/known.js"⟩] counting 0
  obtain ⟨completed, exactly⟩ := follows goesOn
  refine ⟨goesOn, (nested completed).1, (exactly _).2 ⟨by decide, ?_⟩, fun member =>
    fresh _ member (List.mem_singleton_self _)⟩
  exact .tail (.single ⟨⟨{ target := ⟨"/b.js"⟩ }, by decide, rfl, rfl⟩, by decide⟩)
    ⟨⟨{ target := ⟨"/gone.js"⟩ }, by decide, rfl, rfl⟩, by decide⟩

end ModuleGraph

end ModuleBuild
