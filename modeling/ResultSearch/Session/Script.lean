import ResultSearch.Document.Row
import ResultSearch.Session.Filling
import ResultSearch.Session.Scheduler

/-!
# Scripts

What can be asked of a session, and what it answers. After every action the tasks in the background
run until they wait.

* `Session.step`: the answer to one action.
* `Session.run`: the answers to a script.
-/

namespace ResultSearch

/-- Where the query of a plan comes from. -/
inductive QuerySource where
  | nothing
  | bound (query : BoundQuery)
  /-- A query to bind, or why there is none. -/
  | toBind (query : Except QueryError Query)

/-- What a search that is being carried out listens to. -/
inductive Interruption where
  | none
  | cancelled
  /-- The deadline has passed. -/
  | expired
  /-- The deadline is far away. -/
  | far
  deriving DecidableEq

namespace Interruption

/-- A time that no search takes. -/
def longTime : Nat := 3600000

/-- What a scan is told. -/
def check (i : Interruption) : StopCheck := fun _ _ =>
  let token := CancelToken.new 0
  match i with
  | none => .ok ()
  | cancelled => token.check (token.cancel .none) 0
  | expired => (token.withTimeout 0 0).check .none 0
  | far => (token.withTimeout 0 longTime).check .none 0

end Interruption

/-- How the rows of an answer are wanted: options as they are written, and letters of a diff filter. -/
structure RowWishes where
  options : Option Json
  letters : Option String

/-- Something that is asked of a session. -/
inductive Action where
  -- ingesting
  | report (id : RunId) (report : Report)
  | load (run : Run) (report : Report)
  | ingest (run : Run)
  | hold (id : RunId)
  | release (id : RunId)
  | hook (id : RunId) (hooks : List Hook)
  | beginIngest (run : Run)
  | endIngest (id : RunId)
  | abortIngest (id : RunId)
  | loads
  -- the index
  | evict (fraction : Float)
  | evictAny
  | state
  | run (id : RunId)
  | runs (ids : List RunId)
  | split (ids : List RunId)
  -- listeners
  | observe (name : String) (silent : Bool)
  | unobserve (name : String)
  | events (name : String)
  -- searching
  | setBinder (binder : Binder)
  | search (body : String) (wishes : RowWishes) (asIs : Bool) (maxRuns : Nat)
  | bind (plan : String) (ids : List RunId) (query : QuerySource)
  | execute (plan : String) (ids : List RunId) (wishes : RowWishes) (interruption : Interruption)
  -- monitors
  | monitor (settings : MonitorSettings)
  | dropMonitor
  | startMonitor
  | stopMonitor
  | restartMonitor
  | monitorState
  | heap (bytes : Nat)
  | check
  | setInterval (ms : Nat)
  | setMaxHeap (bytes : Nat)
  | setFraction (fraction : Float)
  -- keeping the index current
  | listing (runs : List Run) (fails : Bool)
  | holdListing
  | releaseListing
  | pushNewest (run : Run)
  | fetch (limit : Nat)
  | limits
  | pollOnce (maxRuns : Nat)
  | fill (budget : Nat)
  | startLoop (kind : LoopKind) (interval maxRuns : Nat)
  | stopLoop (kind : LoopKind)
  | loopFinished (kind : LoopKind)
  | source (documents : List Json)
  | caches
  | advance (ms : Nat)
  /-- A document that came with an action could not be read. -/
  | unreadable

/-- What a session answers. -/
inductive Answer where
  | done
  | pending
  | failed (cause : Error)
  | refused (cause : QueryError)
  | monitorFailed (cause : MonitorError)
  /-- The action speaks of something that there is not. -/
  | misused
  | count (n : Nat)
  | flag (b : Bool)
  | id (id : RunId)
  | ids (ids : List RunId)
  | counts (ns : List Nat)
  | run (run : Run)
  | split (resident missing : List RunId)
  | loads (ids : List RunId) (hooks : List HookOutcome)
  | state (index : Index)
  | unobserved (index : Bool) (monitor : Option Bool)
  | events (events : List Event)
  | rows (rows : List Row)
  | plan (ids : List RunId) (shards : Nat)
  | settings (settings : MonitorSettings)
  | tasks (outcomes : List (Option Error))
  | monitor (monitor : Monitor) (samples : Nat) (outcomes : List (Option Error))
  | polled (iteration : PollIteration)
  | filled (summary : BackfillSummary) (outcomes : List (Option Error))
  | caches (calls : Nat) (metadata : MetadataTable) (features : WebFeatures)

namespace Answer

/-- The answer to what either is done or fails. -/
def ofUnit : Except Error Unit → Answer
  | .ok () => done
  | .error e => failed e

end Answer

namespace Session

/-! ## Ingesting -/

/-- Ingest a run while everything else goes on. -/
def ingest (s : Session) (r : Run) : Except Error Unit × Session :=
  match s.index.begin r with
  | .error e => (.error e, s)
  | .ok index => ({ s with index }.settle).completeLoad r

/-- What a task came to, if it has ended. -/
def outcome? (s : Session) (id : Nat) : Option (Except Error Unit) :=
  match (s.tasks.get? id).map Task.stage with
  | some (.ended outcome) => some outcome
  | _ => none

/-- Begin to ingest a run in the background. -/
def beginIngest (s : Session) (r : Run) : Answer × Session :=
  let (id, s) := s.spawn (.ingest r)
  let s := s.settle
  match s.outcome? id with
  | some outcome => (.ofUnit outcome, s)
  | none => (.pending, { s with pending := s.pending.set r.id id })

/-- Let all tasks run until one of them has ended. -/
def await (id : Nat) : (fuel : Nat) → Session → Session
  | 0, s => s
  | fuel + 1, s => if (s.outcome? id).isSome then s else await id fuel s.settle

/-- Open the gate of a run that is ingested in the background, and wait for the end. -/
def endIngest (s : Session) (r : RunId) : Answer × Session :=
  match s.pending.get? r with
  | none => (.misused, s)
  | some id =>
    let s := await id patience (drain patience (s.release r))
    let s := { s with pending := s.pending.erase r }
    match s.outcome? id with
    | some outcome => (.ofUnit outcome, s)
    | none => (.pending, s)

/-- Give up ingesting a run in the background. -/
def abortIngest (s : Session) (r : RunId) : Answer × Session :=
  match s.pending.get? r with
  | none => (.misused, s)
  | some id =>
    let s := { s with pending := s.pending.erase r }
    if (s.outcome? id).isSome then (.done, s)
    else
      (.done, { s.finish id (.ok ()) with
        index := s.index.abandon r
        parked := s.parked.filter (· ≠ id)
        queue := s.queue.filter (· ≠ id) })

/-! ## Listeners -/

/-- Register a new recorder on the index and the current monitor. -/
def observe (s : Session) (name : String) (silent : Bool) : Session :=
  let id := s.recorders.size
  let watches := match s.currentWatch? with
    | some (m, w) => s.watches.set m { w with listeners := w.listeners ++ [.recorder id] }
    | none => s.watches
  { s with
    recorders := s.recorders.set id ⟨silent, []⟩
    recorderNames := s.recorderNames.set name id
    indexListeners := s.indexListeners ++ [.recorder id]
    watches }

/-- Take a recorder off the index and the current monitor, and say where it was registered. -/
def unobserve (s : Session) (name : String) : Answer × Session :=
  match s.recorderNames.get? name with
  | none => (.misused, s)
  | some id =>
    let onIndex := s.indexListeners.contains (.recorder id)
    let s := { s with indexListeners := s.indexListeners.filter (· ≠ Listener.recorder id) }
    match s.currentWatch? with
    | none => (.unobserved onIndex none, s)
    | some (m, w) =>
      let left := w.listeners.filter (· ≠ Listener.recorder id)
      (.unobserved onIndex (some (w.listeners.contains (.recorder id))),
        { s with watches := s.watches.set m { w with listeners := left } })

/-- What a recorder was told since somebody asked. -/
def takeEvents (s : Session) (name : String) : Answer × Session :=
  match s.recorderNames.get? name with
  | none => (.misused, s)
  | some id =>
    match s.recorders.get? id with
    | none => (.misused, s)
    | some r => (.events r.events, { s with recorders := s.recorders.set id { r with events := [] } })

/-! ## Searching -/

/-- The options of an answer: those that are written, with the filter that letters give. -/
def options (w : RowWishes) : Except Answer RowOptions := do
  let o ← match w.options with
    | none => pure .standard
    | some j =>
      match RowOptions.ofJson? j with
      | some o => pure o
      | none => throw (.failed .document)
  match w.letters with
  | none => return o
  | some letters =>
    match DiffFilter.parse letters with
    | .ok diffFilter => return { o with diffFilter }
    | .error e => throw (.refused e)

/-- The rows of a plan as an answer. -/
def answerRows (s : Session) (p : Plan) (ids : List RunId) (w : RowWishes) (i : Interruption) :
    Answer :=
  match options w with
  | .error a => a
  | .ok o =>
    match s.index.executeWith p ids o i.check with
    | .ok rows => .rows rows
    | .error e => .failed e

/-- Answer a request. -/
def search (s : Session) (body : String) (w : RowWishes) (asIs : Bool) (maxRuns : Nat) : Answer :=
  match Request.parseWithin maxRuns body with
  | .error e => .failed e
  | .ok request =>
    match s.index.plan s.binder request asIs with
    | .error e => .failed e
    | .ok p => s.answerRows p request.runIds w .none

/-- The query of a plan over runs. -/
def boundQuery (s : Session) (ids : List RunId) : QuerySource → Except Answer (Option BoundQuery)
  | .nothing => .ok none
  | .bound q => .ok (some q)
  | .toBind query =>
    match s.index.runs ids with
    | .error e => .error (.failed e)
    | .ok runs =>
      match query with
      | .error e => .error (.refused e)
      | .ok q => .ok (some (s.binder.bind q runs))

/-- Keep the plan of a query under a name. -/
def bindPlan (s : Session) (name : String) (ids : List RunId) (source : QuerySource) :
    Answer × Session :=
  match s.boundQuery ids source with
  | .error a => (a, s)
  | .ok q =>
    match s.index.bind ids q with
    | .error e => (.failed e, s)
    | .ok p => (.plan p.runIds p.shards.length, { s with plans := s.plans.set name p })

/-! ## Monitors -/

/-- How the tasks that run monitors stand: what each ended with, if it has. -/
def watchOutcomes (s : Session) : List (Option Error) :=
  s.tasks.entries.filterMap fun e =>
    match e.2.job with
    | .watch _ _ =>
      match e.2.stage with
      | .ended (.error cause) => some (some cause)
      | _ => some none
    | _ => none

/-- Make a new monitor the current one. -/
def newMonitor (s : Session) (settings : MonitorSettings) : Answer × Session :=
  match Monitor.create settings with
  | .error e => (.monitorFailed e, s)
  | .ok m =>
    let id := s.watches.size
    let listeners :=
      if settings.maxIngestedRuns = 0 then s.indexListeners
      else s.indexListeners ++ [.trigger id]
    (.settings settings, { s with
      watches := s.watches.set id ⟨m, []⟩
      indexListeners := listeners
      current := some id })

/-- Do something with the current monitor. -/
def withMonitor (s : Session) (f : Nat → Watch → Answer × Session) : Answer × Session :=
  match s.currentWatch? with
  | some (id, w) => f id w
  | none => (.misused, s)

/-- Run the current monitor in the background. -/
def startMonitor (s : Session) (id : Nat) : Answer × Session :=
  let s := (s.spawn (.watch id none)).2.settle
  (.tasks s.watchOutcomes, s)

/-- Change the current monitor, unless it refuses. -/
def changeMonitor (s : Session) (id : Nat) (w : Watch) (m : Except MonitorError Monitor) :
    Answer × Session :=
  match m with
  | .error e => (.monitorFailed e, s)
  | .ok m => (.done, { s with watches := s.watches.set id { w with monitor := m } })

/-! ## Keeping the index current -/

/-- Offer runs to the index one after the other. -/
def poll : PollPass → List Run → Session → PollPass × Session
  | p, [], s => (p, s)
  | p, r :: rest, s =>
    let (outcome, s) := s.ingest r
    poll (p.record outcome) rest s

/-- Poll once: offer the newest runs of the listing to the index, and count what became of them. -/
def pollOnce (s : Session) (maxRuns : Nat) : PollIteration × Session :=
  match s.fetchRuns maxRuns with
  | (.error _, s) => (.none, s)
  | (.ok runs, s) =>
    let (p, s) := poll (.ofRuns runs) runs s
    (p.iteration, s)

/-- Begin runs as long as the filling of a flag goes on; there are at most `fuel` of them. -/
def fillRuns (flag : Nat) : (fuel : Nat) → Session → Session
  | 0, s => s
  | fuel + 1, s =>
    match s.nextFill flag with
    | none => s
    | some (.finished _, s) => s
    | some (.refused _ _, s) => fillRuns flag fuel s
    | some (.begun r, s) =>
      let (outcome, s) := s.settle.completeLoad r
      fillRuns flag fuel (s.recordFill flag outcome)

/-- Fill the index within a budget, and leave the monitor running. -/
def fill (s : Session) (budget monitor : Nat) (w : Watch) : Answer × Session :=
  match s.fetchRuns budget with
  | (.error e, s) => (.failed e, s)
  | (.ok runs, s) =>
    let flag := s.freshFlag
    let s := fillRuns flag (runs.length + 1) (s.beginFill flag monitor w runs)
    let summary := ((s.backfill? flag).map Backfill.summary).getD ⟨runs.length, 0, 0, false⟩
    let s := (s.lowerFlag flag monitor).settle
    (.filled summary s.watchOutcomes, s)

/-- Begin a loop in the background. -/
def startLoop (s : Session) (kind : LoopKind) (interval maxRuns : Nat) : Session :=
  let job : Job := match kind with
    | .runs => .poll interval maxRuns none none
    | kind => .refresh kind interval none
  let (id, s) := s.spawn job
  { s with loops := s.loops.set kind id }

/-! ## Actions -/

/-- The answer to an action, before the tasks in the background run. -/
def perform (s : Session) : Action → Answer × Session
  | .report id report => (.done, { s with reports := s.reports.set id report })
  | .load r report =>
    let (outcome, s) := { s with reports := s.reports.set r.id report }.ingest r
    (.ofUnit outcome, s)
  | .ingest r =>
    let (outcome, s) := s.ingest r
    (.ofUnit outcome, s)
  | .hold id => (.done, { s with held := if s.held.contains id then s.held else id :: s.held })
  | .release id => (.done, s.release id)
  | .hook id hooks => (.done, { s with hooks := s.hooks.set id hooks })
  | .beginIngest r => s.beginIngest r
  | .endIngest id => s.endIngest id
  | .abortIngest id => s.abortIngest id
  | .loads => (.loads s.loads s.hookOutcomes, { s with loads := [], hookOutcomes := [] })
  | .evict fraction =>
    match s.evict fraction with
    | (.ok ids, s) => (.count ids.length, s)
    | (.error e, s) => (.failed e, s)
  | .evictAny =>
    match s.evictAny with
    | (.ok id, s) => (.id id, s)
    | (.error e, s) => (.failed e, s)
  | .state => (.state s.index, s)
  | .run id =>
    match s.index.run id with
    | .ok r => (.run r, s)
    | .error e => (.failed e, s)
  | .runs ids =>
    match s.index.runs ids with
    | .ok runs => (.ids (runs.map Run.id), s)
    | .error e => (.failed e, s)
  | .split ids =>
    let (resident, missing) := s.index.splitResident ids
    (.split (resident.map Run.id) missing, s)
  | .observe name silent => (.done, s.observe name silent)
  | .unobserve name => s.unobserve name
  | .events name => s.takeEvents name
  | .setBinder binder => (.done, { s with binder })
  | .search body wishes asIs maxRuns => (s.search body wishes asIs maxRuns, s)
  | .bind name ids source => s.bindPlan name ids source
  | .execute name ids wishes interruption =>
    match s.plans.get? name with
    | some p => (s.answerRows p ids wishes interruption, s)
    | none => (.misused, s)
  | .monitor settings => s.newMonitor settings
  | .dropMonitor => (.done, { s with current := none })
  | .startMonitor => s.withMonitor fun id _ => s.startMonitor id
  | .stopMonitor => s.withMonitor fun id w =>
    match s.stopMonitor id w with
    | .error e => (.monitorFailed e, s)
    | .ok s =>
      let s := s.settle
      (.tasks s.watchOutcomes, s)
  | .restartMonitor => s.withMonitor fun id w =>
    match s.stopMonitor id w with
    | .error e => (.monitorFailed e, s)
    | .ok s => s.startMonitor id
  | .monitorState => s.withMonitor fun _ w => (.monitor w.monitor s.samples s.watchOutcomes, s)
  | .heap bytes => (.done, { s with heapBytes := bytes })
  | .check => s.withMonitor fun _ w =>
    let (n, s) := s.check w.monitor.settings
    (.count n, s)
  | .setInterval ms => s.withMonitor fun id w => s.changeMonitor id w (w.monitor.setInterval ms)
  | .setMaxHeap bytes => s.withMonitor fun id w =>
    s.changeMonitor id w (.ok (w.monitor.setMaxHeapBytes bytes))
  | .setFraction fraction => s.withMonitor fun id w =>
    s.changeMonitor id w (w.monitor.setFraction fraction)
  | .listing runs fails => (.done, { s with listing := runs, listingFails := fails })
  | .holdListing => (.done, { s with listingHeld := true })
  | .releaseListing => (.done, s.releaseListing)
  | .pushNewest r => (.done, { s with listing := r :: s.listing })
  | .fetch limit =>
    match s.fetchRuns limit with
    | (.ok runs, s) => (.ids (runs.map Run.id), s)
    | (.error e, s) => (.failed e, s)
  | .limits => (.counts s.limits, { s with limits := [] })
  | .pollOnce maxRuns =>
    let (iteration, s) := s.pollOnce maxRuns
    (.polled iteration, s)
  | .fill budget => s.withMonitor fun id w => s.fill budget id w
  | .startLoop kind interval maxRuns => (.done, s.startLoop kind interval maxRuns)
  | .stopLoop kind =>
    match s.loops.get? kind with
    | some id => (.done, { s with shutdown := id :: s.shutdown })
    | none => (.misused, s)
  | .loopFinished kind =>
    match s.loops.get? kind with
    | some id => (.flag (s.outcome? id).isSome, s)
    | none => (.misused, s)
  | .source documents => (.done, { s with documents })
  | .caches => (.caches s.sourceCalls s.cachedMetadata s.cachedFeatures, s)
  | .advance ms => (.done, s.advance ms)
  | .unreadable => (.failed .document, s)

/-- The answer to an action, after which the tasks in the background run until they wait. -/
def step (s : Session) (action : Action) : Answer × Session :=
  let (answer, s) := s.perform action
  (answer, s.settle.dropUnheld)

/-- The answers to a script. -/
def run (s : Session) : List Action → List Answer
  | [] => []
  | action :: rest =>
    let (answer, s) := s.step action
    answer :: s.run rest

end Session

end ResultSearch
