import ResultSearch.Backfill
import ResultSearch.Index.Search
import ResultSearch.Monitor.Loop
import ResultSearch.Poll

/-!
# Sessions

A session runs the whole service by itself: an index, the reports and listings that it draws on,
memory monitors, refresh loops and a clock. Nothing happens at random and no time passes by itself:
tasks run in the order in which they become ready, each until it has to wait, and the clock moves
only when it is told to.

A report is loaded at once and the listing of runs comes at once, unless they are held back. Loading
lets the other tasks run first.

* `Session`: the state of all of this.
* `Task`: an activity in the background and what it waits for.
-/

namespace ResultSearch

/-- What a listener is told. -/
inductive Event where
  | index (event : IndexEvent)
  /-- The monitor was stopped. -/
  | stopped
  deriving DecidableEq

/-- Who listens to an index or to a monitor. -/
inductive Listener where
  /-- A recorder, which keeps what it is told. -/
  | recorder (id : Nat)
  /-- The ingest count of a monitor. -/
  | trigger (monitor : Nat)
  /-- The flag of a backfill. -/
  | backfill (flag : Nat)
  deriving DecidableEq

/-- The flag that listens, if it is one. -/
def Listener.flag? : Listener → Option Nat
  | .backfill flag => some flag
  | _ => none

/-- A recorder, which keeps what it is told unless it is silent. -/
structure Recorder where
  silent : Bool
  events : List Event

/-- A monitor and those who listen to it. -/
structure Watch where
  monitor : Monitor
  listeners : List Listener

/-- The loops that keep something current. -/
inductive LoopKind where
  | runs
  | metadata
  | features
  deriving DecidableEq

/-- What a task is about. -/
inductive Job where
  /-- Running a monitor: its loop, once it has begun. -/
  | watch (monitor : Nat) (loop : Option Nat)
  /-- Ingesting a run. -/
  | ingest (run : Run)
  /-- Polling for runs: the ticker, once there is one, and the pass that is under way with the runs
  that are left of it. -/
  | poll (interval maxRuns : Nat) (ticker : Option Ticker) (pass : Option (PollPass × List Run))
  /-- Refreshing metadata or web features. -/
  | refresh (kind : LoopKind) (interval : Nat) (ticker : Option Ticker)

/-- What a task waits for. -/
inductive Stage where
  /-- For its turn. -/
  | ready
  /-- For the others to have run before it loads the report of a run. -/
  | loading (run : Run)
  /-- For the gate of the run that it loads. -/
  | gated (run : Run)
  /-- For the listing. -/
  | listing
  /-- For a time; of those that wait for one time the one with the lowest number goes first. -/
  | timed (due number : Nat)
  /-- For nothing any more. -/
  | ended (outcome : Except Error Unit)

/-- An activity in the background. -/
structure Task where
  job : Job
  stage : Stage

namespace Task

/-- Whether the task waits for nothing any more. -/
def isEnded (t : Task) : Bool :=
  match t.stage with
  | .ended _ => true
  | _ => false

/-- Whether the task runs this monitor. -/
def watches (t : Task) (monitor : Nat) : Bool :=
  match t.job with
  | .watch m _ => m = monitor
  | _ => false

end Task

/-- Something that is done while the report of a run is loaded. -/
inductive Hook where
  | evictAny
  | stopMonitor
  | check
  | heap (bytes : Nat)
  | size

/-- What a hook came to. -/
inductive HookOutcome where
  | done
  | run (id : RunId)
  | count (n : Nat)
  | failed (e : Error)
  | monitorFailed (e : MonitorError)
  /-- There is no monitor. -/
  | misused

/-- The state of a session. -/
structure Session where
  /-- Milliseconds since the session began. -/
  clock : Nat
  index : Index
  indexListeners : List Listener
  binder : Binder
  /-- The reports that can be loaded. -/
  reports : Table RunId Report
  /-- The runs whose loads are held back. -/
  held : List RunId
  hooks : Table RunId (List Hook)
  /-- The loads since somebody asked. -/
  loads : List RunId
  /-- What hooks came to since somebody asked. -/
  hookOutcomes : List HookOutcome
  /-- The runs that are listed, the newest first. -/
  listing : List Run
  listingFails : Bool
  /-- Whether loops that ask for the listing have to wait for it. -/
  listingHeld : Bool
  /-- The limits that listings were asked for since somebody asked. -/
  limits : List Nat
  /-- What the source of metadata and web features serves next. -/
  documents : List Json
  sourceCalls : Nat
  cachedMetadata : MetadataTable
  cachedFeatures : WebFeatures
  heapBytes : Nat
  /-- How many samples of the heap were taken. -/
  samples : Nat
  watches : Table Nat Watch
  /-- The monitor that commands go to. -/
  current : Option Nat
  /-- The backfills that are under way, each under its flag. -/
  backfills : Table Nat Backfill
  recorders : Table Nat Recorder
  /-- The recorder that was registered last under each name. -/
  recorderNames : Table String Nat
  plans : Table String Plan
  tasks : Table Nat Task
  /-- The tasks that are ready, in the order of their turns. -/
  queue : List Nat
  /-- The tasks that are about to load a report. -/
  parked : List Nat
  /-- How many times a task began to wait for a time. -/
  timers : Nat
  /-- The tasks that ingest a run in the background. -/
  pending : Table RunId Nat
  /-- The task that was begun last for each loop. -/
  loops : Table LoopKind Nat
  /-- The loops that are to end. -/
  shutdown : List Nat

namespace Session

/-- A session with nothing in it but an empty index. -/
def create (hash : NameHash) (shards : Nat) (binder : Binder) : Except Error Session := do
  let index ← Index.create hash shards
  return {
    clock := 0, index, indexListeners := [], binder
    reports := Table.empty, held := [], hooks := Table.empty, loads := [], hookOutcomes := []
    listing := [], listingFails := false, listingHeld := false, limits := []
    documents := [], sourceCalls := 0, cachedMetadata := Table.empty, cachedFeatures := Table.empty
    heapBytes := 0, samples := 0, watches := Table.empty, current := none
    backfills := Table.empty, recorders := Table.empty, recorderNames := Table.empty, plans := Table.empty
    tasks := Table.empty, queue := [], parked := [], timers := 0
    pending := Table.empty, loops := Table.empty, shutdown := [] }

/-! ## Tasks -/

/-- Change a task. -/
def updateTask (s : Session) (id : Nat) (f : Task → Task) : Session :=
  match s.tasks.get? id with
  | some t => { s with tasks := s.tasks.set id (f t) }
  | none => s

/-- Let a task wait for something else. -/
def setStage (s : Session) (id : Nat) (stage : Stage) : Session :=
  s.updateTask id fun t => { t with stage }

/-- Change what a task is about. -/
def setJob (s : Session) (id : Nat) (job : Job) : Session := s.updateTask id fun t => { t with job }

/-- Give a task a turn after those that are ready already. -/
def makeReady (s : Session) (id : Nat) : Session :=
  { s.setStage id .ready with queue := s.queue ++ [id] }

/-- Begin a task, whose number comes with the session. -/
def spawn (s : Session) (job : Job) : Nat × Session :=
  let id := s.tasks.size
  (id, { s with tasks := s.tasks.set id ⟨job, .ready⟩, queue := s.queue ++ [id] })

/-- Let a task end. -/
def finish (s : Session) (id : Nat) (outcome : Except Error Unit) : Session :=
  s.setStage id (.ended outcome)

/-- Let a task wait for a time. -/
def waitUntil (s : Session) (id due : Nat) : Session :=
  { s.setStage id (.timed due s.timers) with timers := s.timers + 1 }

/-- Let a task wait until the others have run, and then load the report of a run. -/
def park (s : Session) (id : Nat) (r : Run) : Session :=
  { s.setStage id (.loading r) with parked := s.parked ++ [id] }

/-! ## Monitors -/

/-- The watch with a number. -/
def watch? (s : Session) (monitor : Nat) : Option Watch := s.watches.get? monitor

/-- The watch that commands go to. -/
def currentWatch? (s : Session) : Option (Nat × Watch) := do
  let id ← s.current
  return (id, ← s.watch? id)

/-- Change a monitor. -/
def updateMonitor (s : Session) (monitor : Nat) (f : Monitor → Monitor) : Session :=
  match s.watches.get? monitor with
  | some w => { s with watches := s.watches.set monitor { w with monitor := f w.monitor } }
  | none => s

/-- Whether a loop sleeps although it has a reason to go on, its time apart. -/
def isCalled (s : Session) (monitor loop : Nat) : Bool :=
  match (s.watch? monitor).bind fun w => w.monitor.loop? loop with
  | some l => l.hasReason s.clock .call || l.hasReason s.clock .dismissal
  | none => false

/-- Whether a task waits for a time although its loop was called. -/
def isRoused (s : Session) (t : Task) : Bool :=
  match t.job, t.stage with
  | .watch monitor (some loop), .timed _ _ => s.isCalled monitor loop
  | _, _ => false

/-- Give the loops that were called their turns. -/
def rouseCalled (s : Session) : Session :=
  (s.tasks.entries.filter fun e => s.isRoused e.2).foldl (fun s e => s.makeReady e.1) s

/-! ## Backfills -/

/-- The backfill of a flag, as long as it is under way. -/
def backfill? (s : Session) (flag : Nat) : Option Backfill := s.backfills.get? flag

/-- Keep a backfill under its flag. -/
def setFill (s : Session) (flag : Nat) (b : Backfill) : Session :=
  { s with backfills := s.backfills.set flag b }

/-- Change a backfill. -/
def updateFill (s : Session) (flag : Nat) (f : Backfill → Backfill) : Session :=
  match s.backfill? flag with
  | some b => s.setFill flag (f b)
  | none => s

theorem exists_updateFill (s : Session) (flag : Nat) (f : Backfill → Backfill) :
    ∃ backfills, s.updateFill flag f = { s with backfills } := by
  unfold updateFill
  split
  · exact ⟨_, rfl⟩
  · exact ⟨s.backfills, rfl⟩

/-! ## Telling listeners -/

/-- Tell one listener. -/
def tell (s : Session) (event : Event) : Listener → Session
  | .recorder id =>
    match s.recorders.get? id with
    | some r =>
      if r.silent then s
      else { s with recorders := s.recorders.set id { r with events := r.events ++ [event] } }
    | none => s
  | .trigger monitor =>
    match event with
    | .index (.ingested _) => s.updateMonitor monitor Monitor.ingested
    | _ => s
  | .backfill flag =>
    match event with
    | .index (.ingested _) => s
    | _ => s.updateFill flag Backfill.halt

/-- Tell all who listen to the index. -/
def announce (s : Session) (event : IndexEvent) : Session :=
  (s.indexListeners.foldl (fun s l => s.tell (.index event) l) s).rouseCalled

/-- Whether somebody still holds a monitor: it is the current one, or a task runs it. -/
def isHeld (s : Session) (monitor : Nat) : Bool :=
  s.current = some monitor ||
    s.tasks.entries.any fun e => e.2.watches monitor && !e.2.isEnded

/-- Let monitors that nobody holds listen to the index no more. -/
def dropUnheld (s : Session) : Session :=
  { s with indexListeners := s.indexListeners.filter fun l =>
      match l with
      | .trigger monitor => s.isHeld monitor
      | _ => true }

end Session

end ResultSearch
