import ModuleBuild.Compile.Watch
import Mathlib.Data.List.Chain
import Mathlib.Data.List.Nodup
/-!
A watch loses no notice. However the notices are spread over time, and however long following a batch
takes, they are taken in by rounds: all of them, in order, each once. A round is over when no notice
was received for as long as the debounce, or when no more are to come. Then each source that it has a
notice of is followed once.
-/

namespace ModuleBuild.Watch

variable {debounce closing : Nat} {spent : Batch → Nat}

theorem addOnce_eraseDups (specifiers : List Specifier) (specifier : Specifier) :
    addOnce specifiers.eraseDups specifier = (specifiers ++ [specifier]).eraseDups := by
  rw [List.eraseDups_append]
  by_cases known : specifier ∈ specifiers
  · simp [addOnce, List.removeAll, known]
  · simp [addOnce, List.removeAll, known, List.eraseDups_cons]

theorem nodup_eraseDups (specifiers : List Specifier) : specifiers.eraseDups.Nodup := by
  induction specifiers using List.reverseRecOn with
  | nil => exact List.nodup_nil
  | append_singleton specifiers specifier ih =>
    rw [← addOnce_eraseDups, addOnce]
    split
    · exact ih
    · next fresh =>
      refine List.nodup_append.2 ⟨ih, List.nodup_singleton _, fun known isKnown new isNew same => ?_⟩
      rw [List.mem_singleton] at isNew
      exact fresh (isNew ▸ same ▸ isKnown)

/-- What a watch takes in, from when it is free to do so until it follows a batch. -/
structure Round where
  opened : Nat
  notices : List Notice
  batch : Batch

/-- When a notice of a round is received: as it comes, or as the round opens if it came before. -/
def Round.received (round : Round) (notice : Notice) : Nat := max round.opened notice.time

/-- Whether a notice is there when another one is received, or comes before the debounce has run out
since. One that comes just as it runs out is late. -/
def InTime (debounce received : Nat) (next : Notice) : Prop :=
  next.time ≤ received ∨ next.time < received + debounce

/-- Whether each of some notices, received from a given time on, is in time after the one before it. -/
def KeepComing (debounce opened : Nat) (notices : List Notice) : Prop :=
  notices.IsChain fun earlier next => InTime debounce (max opened earlier.time) next

/-- What holds of a round by itself. -/
structure Round.IsGathered (debounce closing : Nat) (round : Round) : Prop where
  keepComing : KeepComing debounce round.opened round.notices
  specifiers : round.batch.specifiers = (round.notices.map (·.specifier)).eraseDups
  /-- The batch is followed when the debounce has run out since the latest notice, or when no more are
  to come if that is before. -/
  ended : ∃ latest, round.notices.getLast? = some latest ∧
    round.batch.isLast = decide (closing < round.received latest + debounce) ∧
    round.batch.time =
      if closing < round.received latest + debounce then max (round.received latest) closing
      else round.received latest + debounce

/-- What holds of a round and the next one: between them lies a pause, and the next one opens as soon
as the batch was followed. -/
structure Round.Precedes (debounce : Nat) (spent : Batch → Nat) (round next : Round) : Prop where
  opened : next.opened = round.batch.time + spent round.batch
  pause : ∀ latest ∈ round.notices.getLast?, ∀ first ∈ next.notices.head?,
    ¬ InTime debounce (round.received latest) first

/-- Notices split into rounds, the first of which opens at a given time. -/
structure Splits (debounce closing : Nat) (spent : Batch → Nat) (opened : Nat) (notices : List Notice)
    (rounds : List Round) : Prop where
  start : ∀ round ∈ rounds.head?, round.opened = opened
  all : rounds.flatMap (·.notices) = notices
  gathered : ∀ round ∈ rounds, round.IsGathered debounce closing
  inTurn : rounds.IsChain (Round.Precedes debounce spent)

/-- The round that opened at some time and took in some notices, once it is over. -/
def Round.closed (debounce closing opened : Nat) (earlier : List Notice) (latest : Notice) : Round where
  opened
  notices := earlier ++ [latest]
  batch :=
    { specifiers := ((earlier ++ [latest]).map (·.specifier)).eraseDups
      time :=
        if closing < max opened latest.time + debounce then max (max opened latest.time) closing
        else max opened latest.time + debounce
      isLast := decide (closing < max opened latest.time + debounce) }

section Closed

variable {opened : Nat} {earlier rest : List Notice} {latest notice : Notice}

theorem isGathered_closed (keepComing : KeepComing debounce opened (earlier ++ [latest])) :
    (Round.closed debounce closing opened earlier latest).IsGathered debounce closing :=
  ⟨keepComing, rfl, latest, List.getLast?_concat, rfl, rfl⟩

theorem batchesFrom_nil (opened : Nat) (earlier : List Notice) (latest : Notice) :
    batchesFrom debounce closing spent ((earlier ++ [latest]).map (·.specifier)).eraseDups
        (max opened latest.time) [] =
      [(Round.closed debounce closing opened earlier latest).batch] := by
  rw [batchesFrom]
  by_cases cut : closing < max opened latest.time + debounce
  · simp only [Round.closed, if_neg (Nat.not_le.2 cut), if_pos cut, decide_eq_true cut]
  · simp only [Round.closed, if_pos (Nat.not_lt.1 cut), if_neg cut, decide_eq_false cut]

theorem batchesFrom_inTime (inTime : InTime debounce (max opened latest.time) notice)
    (ordered : latest.time ≤ notice.time) :
    batchesFrom debounce closing spent ((earlier ++ [latest]).map (·.specifier)).eraseDups
        (max opened latest.time) (notice :: rest) =
      batchesFrom debounce closing spent (((earlier ++ [latest]) ++ [notice]).map (·.specifier)).eraseDups
        (max opened notice.time) rest := by
  have received : max (max opened latest.time) notice.time = max opened notice.time := by omega
  rw [batchesFrom, if_pos (show _ ∨ _ from inTime), addOnce_eraseDups, received]
  simp only [List.map_append, List.map_cons, List.map_nil]

/-- A notice that is late ends the open round, and starts one that opens when the batch was followed. -/
theorem batchesFrom_late (late : ¬ InTime debounce (max opened latest.time) notice)
    (closes : notice.time ≤ closing) :
    let batch := (Round.closed debounce closing opened earlier latest).batch
    batchesFrom debounce closing spent ((earlier ++ [latest]).map (·.specifier)).eraseDups
        (max opened latest.time) (notice :: rest) =
      batch :: batchesFrom debounce closing spent ([notice].map (·.specifier)).eraseDups
        (max (batch.time + spent batch) notice.time) rest := by
  intro batch
  have goesOn : ¬ closing < max opened latest.time + debounce := by
    rw [InTime] at late
    omega
  rw [batchesFrom, if_neg (show ¬ (_ ∨ _) from late)]
  simp only [batch, Round.closed, if_neg goesOn, decide_eq_false goesOn]
  rfl

end Closed

theorem splits_batchesFrom {opened : Nat} {earlier : List Notice} {latest : Notice} {rest : List Notice}
    (keepComing : KeepComing debounce opened (earlier ++ [latest]))
    (ordered : (latest :: rest).Pairwise (·.time ≤ ·.time))
    (closes : ∀ notice ∈ rest, notice.time ≤ closing) :
    ∃ (round : Round) (more : List Round),
      batchesFrom debounce closing spent ((earlier ++ [latest]).map (·.specifier)).eraseDups
        (max opened latest.time) rest = (round :: more).map (·.batch) ∧
      (∃ later, round.notices = earlier ++ latest :: later) ∧
      Splits debounce closing spent opened (earlier ++ latest :: rest) (round :: more) := by
  -- by induction on what is still to come; the open round is as its notices so far make it
  induction rest generalizing opened earlier latest with
  | nil =>
    refine ⟨.closed debounce closing opened earlier latest, [], batchesFrom_nil opened earlier latest,
      ⟨[], rfl⟩, by simp [Round.closed], List.flatMap_singleton .., ?_, List.isChain_singleton _⟩
    exact List.forall_mem_singleton.2 (isGathered_closed keepComing)
  | cons notice rest ih =>
    obtain ⟨after, ordered⟩ := List.pairwise_cons.1 ordered
    obtain ⟨first, closes⟩ := List.forall_mem_cons.1 closes
    by_cases inTime : InTime debounce (max opened latest.time) notice
    · have keepComing : KeepComing debounce opened ((earlier ++ [latest]) ++ [notice]) := by
        refine List.isChain_append.2 ⟨keepComing, List.isChain_singleton _, ?_⟩
        simpa using inTime
      obtain ⟨round, more, same, ⟨later, taken⟩, splits⟩ := ih keepComing ordered closes
      have same := (batchesFrom_inTime inTime (after notice List.mem_cons_self)).trans same
      refine ⟨round, more, same, ⟨notice :: later, ?_⟩, ?_⟩
      · rw [taken, List.append_assoc, List.singleton_append]
      · rwa [List.append_assoc, List.singleton_append] at splits
    · -- the round is over; the next one opens when its batch was followed, with this notice alone
      let round := Round.closed debounce closing opened earlier latest
      have single : KeepComing debounce (round.batch.time + spent round.batch) ([] ++ [notice]) :=
        List.isChain_singleton _
      obtain ⟨next, more, same, ⟨later, taken⟩, splits⟩ := ih single ordered closes
      have pause : round.Precedes debounce spent next := by
        refine ⟨splits.start next rfl, fun last isLast head isHead => ?_⟩
        simp only [round, Round.closed, List.getLast?_concat, Option.mem_some_iff] at isLast
        simp only [taken, List.nil_append, List.head?_cons, Option.mem_some_iff] at isHead
        subst isLast isHead
        exact inTime
      refine ⟨round, next :: more, ?_, ⟨[], rfl⟩, by simp [round, Round.closed], ?_, ?_, ?_⟩
      · exact (batchesFrom_late inTime first).trans (congrArg (round.batch :: ·) same)
      · rw [List.flatMap_cons, splits.all]
        simp [round, Round.closed]
      · exact List.forall_mem_cons.2 ⟨isGathered_closed keepComing, splits.gathered⟩
      · exact List.isChain_cons_cons.2 ⟨pause, splits.inTurn⟩

theorem exists_splits (debounce : Nat) (spent : Batch → Nat) {notices : List Notice}
    (ordered : notices.Pairwise (·.time ≤ ·.time))
    (closes : ∀ notice ∈ notices, notice.time ≤ closing) :
    ∃ rounds : List Round, batches debounce closing spent notices = rounds.map (·.batch) ∧
      Splits debounce closing spent 0 notices rounds := by
  cases notices with
  | nil => exact ⟨[], rfl, nofun, rfl, List.forall_mem_nil _, List.isChain_nil⟩
  | cons notice rest =>
    have single : KeepComing debounce 0 ([] ++ [notice]) := List.isChain_singleton _
    obtain ⟨round, more, same, -, splits⟩ :=
      splits_batchesFrom single ordered (List.forall_mem_cons.1 closes).2
    refine ⟨round :: more, ?_, splits⟩
    rw [← same, batches, Nat.zero_max]
    rfl

theorem Round.IsGathered.before {round : Round} (gathered : round.IsGathered debounce closing)
    (ordered : round.notices.Pairwise (·.time ≤ ·.time)) {notice : Notice}
    (taken : notice ∈ round.notices) : notice.time ≤ round.batch.time := by
  obtain ⟨latest, isLatest, -, time⟩ := gathered.ended
  obtain ⟨earlier, notices⟩ := List.getLast?_eq_some_iff.1 isLatest
  have before : notice.time ≤ latest.time := by
    rw [notices] at ordered taken
    rcases List.mem_append.1 taken with taken | taken
    · exact (List.pairwise_append.1 ordered).2.2 notice taken latest (List.mem_singleton_self _)
    · rw [List.mem_singleton.1 taken]
  have received : latest.time ≤ round.received latest := Nat.le_max_right _ _
  rw [time]
  split <;> omega

theorem Round.IsGathered.nodup {round : Round} (gathered : round.IsGathered debounce closing) :
    round.batch.specifiers.Nodup := by
  rw [gathered.specifiers]
  exact nodup_eraseDups _

def calls (batches : List Batch) : List (Batch × Specifier) :=
  batches.flatMap fun batch => batch.specifiers.map (batch, ·)

/-- What comes of calls that are made one after the other. -/
def trace (tools : Batch → Specifier → Toolchain) (workspace : Workspace) :
    List (Batch × Specifier) → List ChangeOutcome × Workspace
  | [] => ([], workspace)
  | (batch, specifier) :: rest =>
    let (outcome, workspace) := workspace.sourceChanged (tools batch specifier) specifier
    let (outcomes, workspace) := trace tools workspace rest
    (outcome :: outcomes, workspace)

def Log.tell (log : Log) (outcomes : List ChangeOutcome) : Log where
  settled := log.settled ++ outcomes.flatMap (·.settled)
  transpilerCalls := log.transpilerCalls ++ outcomes.flatMap (·.report.transpilerCalls)

theorem trace_append (tools : Batch → Specifier → Toolchain) (workspace : Workspace)
    (first second : List (Batch × Specifier)) :
    trace tools workspace (first ++ second) =
      let (outcomes, workspace) := trace tools workspace first
      let (more, workspace) := trace tools workspace second
      (outcomes ++ more, workspace) := by
  induction first generalizing workspace with
  | nil => rfl
  | cons call rest ih => simp [trace, ih]

theorem follow_eq_trace (tools : Batch → Specifier → Toolchain) (log : Log) (workspace : Workspace)
    (batch : Batch) (specifiers : List Specifier) :
    let (outcomes, after) := trace tools workspace (specifiers.map (batch, ·))
    follow (tools batch) true log workspace specifiers = (log.tell outcomes, after, false) := by
  induction specifiers generalizing log workspace with
  | nil => simp [trace, follow, Log.tell]
  | cons specifier rest ih =>
    simp only [List.map_cons, trace, follow]
    generalize workspace.sourceChanged (tools batch specifier) specifier = result
    obtain ⟨outcome, workspace⟩ := result
    simp [ih, Log.tell]

theorem run_eq_trace (tools : Batch → Specifier → Toolchain) (log : Log) (workspace : Workspace)
    (batches : List Batch) :
    let (outcomes, after) := trace tools workspace (calls batches)
    run tools true log workspace batches = (log.tell outcomes, after) := by
  induction batches generalizing log workspace with
  | nil => simp [trace, calls, run, Log.tell]
  | cons batch rest ih =>
    have followed := follow_eq_trace tools log workspace batch batch.specifiers
    simp only [calls, List.flatMap_cons, trace_append]
    rw [run, followed]
    simp [ih, calls, Log.tell]

/-- However notices are spread over time and however long a watch takes to follow a batch, it takes all
of them in, in order, by rounds with a pause between one and the next. It then calls for each source of
each batch in turn, and it is done when all the calls are, with all they had to tell told in order.
So each notice is followed by a call for its source that was not started before the notice came. -/
theorem run_follows_every_notice {notices : List Notice} (tools : Batch → Specifier → Toolchain)
    (log : Log) (workspace : Workspace) (ordered : notices.Pairwise (·.time ≤ ·.time))
    (closes : ∀ notice ∈ notices, notice.time ≤ closing) :
    let batches := batches debounce closing spent notices
    let (outcomes, after) := trace tools workspace (calls batches)
    run tools true log workspace batches = (log.tell outcomes, after) ∧
    (∃ rounds : List Round, batches = rounds.map (·.batch) ∧
      Splits debounce closing spent 0 notices rounds) ∧
    (∀ batch ∈ batches, batch.specifiers.Nodup) ∧
    ∀ notice ∈ notices, ∃ batch, (batch, notice.specifier) ∈ calls batches ∧
      notice.time ≤ batch.time := by
  obtain ⟨rounds, same, splits⟩ := exists_splits debounce spent ordered closes
  refine ⟨run_eq_trace tools log workspace _, ⟨rounds, same, splits⟩, ?_, ?_⟩
  · intro batch member
    rw [same] at member
    obtain ⟨round, isRound, rfl⟩ := List.mem_map.1 member
    exact (splits.gathered round isRound).nodup
  · intro notice member
    rw [← splits.all] at member ordered
    obtain ⟨round, isRound, taken⟩ := List.mem_flatMap.1 member
    have gathered := splits.gathered round isRound
    have followed : notice.specifier ∈ round.batch.specifiers := by
      rw [gathered.specifiers, List.mem_eraseDups]
      exact List.mem_map_of_mem taken
    refine ⟨round.batch, List.mem_flatMap.2 ⟨round.batch, ?_, List.mem_map_of_mem followed⟩, ?_⟩
    · exact same ▸ List.mem_map_of_mem isRound
    · exact gathered.before ((List.pairwise_flatMap.1 ordered).1 round isRound) taken

/-- Notices of which two come while a batch is followed, and one more in time after those. -/
def flurry : List Notice :=
  [⟨0, ⟨"/a"⟩⟩, ⟨10, ⟨"/b"⟩⟩, ⟨10, ⟨"/a"⟩⟩, ⟨45, ⟨"/c"⟩⟩, ⟨50, ⟨"/a"⟩⟩, ⟨75, ⟨"/b"⟩⟩]

theorem run_follows_every_notice_flurry :
    let batches := batches 20 90 (fun _ => 30) flurry
    batches = [⟨[⟨"/a"⟩, ⟨"/b"⟩], 30, false⟩, ⟨[⟨"/c"⟩, ⟨"/a"⟩, ⟨"/b"⟩], 90, true⟩] ∧
    flurry.Pairwise (·.time ≤ ·.time) ∧ (∀ notice ∈ flurry, notice.time ≤ 90) ∧
    ∀ notice ∈ flurry, ∃ batch, (batch, notice.specifier) ∈ calls batches ∧
      notice.time ≤ batch.time := by
  have ordered : flurry.Pairwise (·.time ≤ ·.time) := by decide
  have closes : ∀ notice ∈ flurry, notice.time ≤ 90 := by decide
  refine ⟨by decide, ordered, closes, ?_⟩
  exact (run_follows_every_notice (fun _ _ => {}) {} { graph := {}, store := {} } ordered closes).2.2.2

end ModuleBuild.Watch
