import ModuleBuild.Compile.Session
/-!
Following changes as they come in. Changes are gathered into batches: a batch ends when nothing came
in for as long as the debounce time, or when no more changes are to come. Each source of a batch is
followed once, in the order in which it first came in.
-/

namespace ModuleBuild.Watch

/-- A source changed, at a time in milliseconds. -/
structure Notice where
  time : Nat
  specifier : Specifier

structure Batch where
  specifiers : List Specifier
  time : Nat
  /-- The batch ended because no more changes were to come. -/
  isLast : Bool := false
deriving DecidableEq

def addOnce (specifiers : List Specifier) (specifier : Specifier) : List Specifier :=
  if specifier ∈ specifiers then specifiers else specifiers ++ [specifier]

/-- The batches that follow from an open one, whose latest notice was received at a given time. A
notice that comes in while a batch is followed is received once that is done. -/
def batchesFrom (debounce closing : Nat) (spent : Batch → Nat) (gathered : List Specifier)
    (latest : Nat) : List Notice → List Batch
  | [] =>
    if latest + debounce ≤ closing then [{ specifiers := gathered, time := latest + debounce }]
    else [{ specifiers := gathered, time := max latest closing, isLast := true }]
  | notice :: rest =>
    if notice.time ≤ latest ∨ notice.time < latest + debounce then
      batchesFrom debounce closing spent (addOnce gathered notice.specifier)
        (max latest notice.time) rest
    else
      let batch := { specifiers := gathered, time := latest + debounce }
      batch :: batchesFrom debounce closing spent [notice.specifier]
        (max (batch.time + spent batch) notice.time) rest

/-- Gathers notices into batches, given the time that following a batch takes; nothing comes in after
the closing time. -/
def batches (debounce closing : Nat) (spent : Batch → Nat) : List Notice → List Batch
  | [] => []
  | notice :: rest => batchesFrom debounce closing spent [notice.specifier] notice.time rest

/-- What a watch did: what it told its listener, and the transpiler calls it made. -/
structure Log where
  settled : List Settled := []
  transpilerCalls : List Specifier := []

/-- Follows sources in order. Without a listener it stops after the first that it has to report, and
says so. -/
def follow (tools : Specifier → Toolchain) (isHeard : Bool) (log : Log) (workspace : Workspace) :
    List Specifier → Log × Workspace × Bool
  | [] => (log, workspace, false)
  | specifier :: rest =>
    let (outcome, workspace) := workspace.sourceChanged (tools specifier) specifier
    let log := { log with transpilerCalls := log.transpilerCalls ++ outcome.report.transpilerCalls }
    if !isHeard && !outcome.settled.isEmpty then (log, workspace, true)
    else
      follow tools isHeard { log with settled := log.settled ++ outcome.settled } workspace rest

/-- Follows batches in order, each source with the tools as they are at its turn. -/
def run (tools : Batch → Specifier → Toolchain) (isHeard : Bool) (log : Log) (workspace : Workspace) :
    List Batch → Log × Workspace
  | [] => (log, workspace)
  | batch :: rest =>
    let (log, workspace, isStopped) := follow (tools batch) isHeard log workspace batch.specifiers
    if isStopped then (log, workspace) else run tools isHeard log workspace rest

end ModuleBuild.Watch
