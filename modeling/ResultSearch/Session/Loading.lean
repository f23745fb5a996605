import ResultSearch.Session.Basic

/-!
# Evicting, stopping and loading in a session

What changes the index or a monitor, together with what listeners are told of it.
-/

namespace ResultSearch.Session

/-- Take over what evicting came to, and tell the listeners if runs are gone. -/
def evicted (s : Session) (result : Except Error (List RunId) × Index) :
    Except Error (List RunId) × Session :=
  let s := { s with index := result.2 }
  match result.1 with
  | .error e => (.error e, s)
  | .ok [] => (.ok [], s)
  | .ok ids => (.ok ids, s.announce (.evicted ids))

/-- Evict a part of the runs. -/
def evict (s : Session) (fraction : Float) : Except Error (List RunId) × Session :=
  s.evicted (s.index.evict fraction)

/-- Evict the oldest run. -/
def evictAny (s : Session) : Except Error RunId × Session :=
  match s.evicted s.index.evictAny with
  | (.ok (id :: _), s) => (.ok id, s)
  | (.ok [], s) => (.error .noRuns, s)
  | (.error e, s) => (.error e, s)

/-- Take a sample of the heap for a monitor; the number of runs evicted comes with the session. -/
def check (s : Session) (settings : MonitorSettings) : Nat × Session :=
  let s := { s with samples := s.samples + 1 }
  match s.evicted (settings.check s.heapBytes s.index) with
  | (.ok ids, s) => (ids.length, s)
  | (.error _, s) => (0, s)

/-- Stop a monitor and tell those who listen to it. -/
def stopMonitor (s : Session) (monitor : Nat) (w : Watch) : Except MonitorError Session := do
  let stopped ← w.monitor.stop
  let s := { s with watches := s.watches.set monitor { w with monitor := stopped } }
  return (w.listeners.foldl (fun s l => s.tell .stopped l) s).rouseCalled

/-- End the ingestion of a run with what loading its report came to, and tell the listeners if the
run is resident now. -/
def deliver (s : Session) (r : Run) (loaded : Loaded) : Except Error Unit × Session :=
  let (outcome, index) := s.index.deliver r loaded
  let s := { s with index }
  match outcome with
  | .ok () => (.ok (), s.announce (.ingested r.id))
  | .error e => (.error e, s)

/-- Do what is hooked to the load of a run. -/
def runHook (s : Session) : Hook → HookOutcome × Session
  | .evictAny =>
    match s.evictAny with
    | (.ok id, s) => (.run id, s)
    | (.error e, s) => (.failed e, s)
  | .stopMonitor =>
    match s.currentWatch? with
    | none => (.misused, s)
    | some (id, w) =>
      match s.stopMonitor id w with
      | .ok s => (.done, s)
      | .error e => (.monitorFailed e, s)
  | .check =>
    match s.currentWatch? with
    | none => (.misused, s)
    | some (_, w) =>
      let (n, s) := s.check w.monitor.settings
      (.count n, s)
  | .heap bytes => (.done, { s with heapBytes := bytes })
  | .size => (.count s.index.size, s)

/-- Do all that is hooked to the load of a run, and keep what it came to. -/
def runHooks (s : Session) (hooks : List Hook) : Session :=
  hooks.foldl (fun s hook =>
    let (outcome, s) := s.runHook hook
    { s with hookOutcomes := s.hookOutcomes ++ [outcome] }) s

/-- Load the report of a run whose ingestion has begun, and end the ingestion. -/
def completeLoad (s : Session) (r : Run) : Except Error Unit × Session :=
  let s := { s with loads := s.loads ++ [r.id] }
  let s := s.runHooks ((s.hooks.get? r.id).getD [])
  let loaded : Loaded :=
    match s.reports.get? r.id with
    | some report => .ok report
    | none => .error (Report.notRegistered r.id)
  s.deliver r loaded

/-- Keep the limit that the listing is asked for with. -/
def askRuns (s : Session) (limit : Nat) : Session := { s with limits := s.limits ++ [limit] }

/-- The newest runs of the listing. -/
def listed (s : Session) (limit : Nat) : Except Error (List Run) :=
  if s.listingFails then .error (.payload "listing unavailable") else .ok (s.listing.take limit)

/-- Ask for the newest runs of the listing and have them at once. Only loops in the background wait
for a listing that is held back. -/
def fetchRuns (s : Session) (limit : Nat) : Except Error (List Run) × Session :=
  (s.listed limit, s.askRuns limit)

end ResultSearch.Session
