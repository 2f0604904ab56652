import ModuleBuild.Compile.Watch
/-!
What happens around a watch, played on one clock: notices that sources changed, edits of sources, and
time that passes. All that happens between two waits comes before the watch follows a batch.
-/

namespace ModuleBuild.Watch

inductive Event where
  | notice (specifier : Specifier)
  /-- Time passes, in milliseconds. -/
  | wait (millis : Nat)
  /-- A source is written, or taken away. -/
  | edit (specifier : Specifier) (content? : Option SourceEntry)

structure TimedEdit where
  time : Nat
  specifier : Specifier
  content? : Option SourceEntry

/-- Notices and edits with their times, and the time that passes in all. -/
structure Feed where
  notices : List Notice := []
  edits : List TimedEdit := []
  duration : Nat := 0

namespace Feed

def add (feed : Feed) : Event → Feed
  | .notice specifier => { feed with notices := feed.notices ++ [⟨feed.duration, specifier⟩] }
  | .wait millis => { feed with duration := feed.duration + millis }
  | .edit specifier content? =>
    { feed with edits := feed.edits ++ [⟨feed.duration, specifier, content?⟩] }

def ofEvents (events : List Event) : Feed := events.foldl add {}

/-- Sources after some edits. -/
def edited (sources : SourceTree) (edits : List TimedEdit) : SourceTree :=
  edits.foldl (fun sources change =>
    match change.content? with
    | some entry => sources.insert change.specifier entry
    | none => sources.erase change.specifier) sources

def isBefore (debounce : Nat) (batch : Batch) (change : TimedEdit) : Bool :=
  batch.isLast || change.time < batch.time || (debounce = 0 && change.time = batch.time)

def toolsAt (feed : Feed) (debounce : Nat) (tools : Toolchain) (batch : Batch) : Toolchain :=
  { tools with sources := edited tools.sources (feed.edits.filter (isBefore debounce batch)) }

/-- Watches while events are played. No time passes while a batch is followed. -/
def play (feed : Feed) (debounce : Nat) (tools : Toolchain) (isHeard : Bool)
    (workspace : Workspace) : Log × Workspace :=
  run (fun batch _ => feed.toolsAt debounce tools batch) isHeard {} workspace
    (batches debounce feed.duration (fun _ => 0) feed.notices)

end Feed

end ModuleBuild.Watch
