import ResultSearch.Monitor.Settings

/-!
# The loops of a memory monitor

A monitor that is started runs a loop: the loop looks whether it still is the current one, takes a
sample of the heap, and sleeps until its time is up, until enough runs have been ingested, or until
the monitor is stopped. A monitor can be started again while the loop of an earlier start has not
noticed yet that it is stopped; every stop begins a new generation, and a loop ends once its
generation is over.

All loops of a monitor wait for one and the same wake-up call. A call goes to the loop that has been
waiting longest, and is kept for the next one if none is waiting; at most one call is kept. A loop
that was called but goes on for another reason hands the call on.

* `start`, `stop`: a loop begins; the current loop is told to end.
* `ingested`: an ingested run counts towards a wake-up call.
* `rouse`: a sleeping loop goes on for one of the reasons it has.
* `turn`: a loop that goes on ends, or takes a sample and sleeps again.
-/

namespace ResultSearch

/-- Where a loop stands: it goes on at its next turn, or it sleeps until some time at the latest. -/
inductive LoopPhase where
  | awake
  | asleep (due : Nat)
  deriving DecidableEq

/-- A loop that has not ended. -/
structure MonitorLoop where
  id : Nat
  generation : Nat
  phase : LoopPhase
  /-- A wake-up call went to this loop. -/
  called : Bool
  /-- The loop was told to end. -/
  dismissed : Bool
  deriving DecidableEq

/-- Why a sleeping loop goes on. -/
inductive Reason where
  | timer
  | call
  | dismissal
  deriving DecidableEq

namespace MonitorLoop

/-- Whether a sleeping loop may go on for a reason. -/
def hasReason (l : MonitorLoop) (now : Nat) (reason : Reason) : Bool :=
  match l.phase with
  | .awake => false
  | .asleep due =>
    match reason with
    | .timer => decide (due ≤ now)
    | .call => l.called
    | .dismissal => l.dismissed

end MonitorLoop

/-- What a loop did in its turn: it ended, or it took a sample of the heap. -/
inductive LoopTurn where
  | ended
  | sampled
  deriving DecidableEq

/-- A memory monitor. -/
structure Monitor where
  settings : MonitorSettings
  running : Bool
  generation : Nat
  /-- The loops that have not ended. -/
  loops : List MonitorLoop
  /-- How many loops there have been. -/
  launched : Nat
  /-- The sleeping loops that were not called, the one that has been waiting longest first. -/
  waiting : List Nat
  /-- A wake-up call is kept. -/
  callKept : Bool
  /-- The runs that have been ingested since the monitor was made. -/
  ingestedRuns : Nat
  deriving DecidableEq

namespace Monitor

/-- A monitor that is not running. -/
def create (settings : MonitorSettings) : Except MonitorError Monitor := do
  settings.validate
  return ⟨settings, false, 0, [], 0, [], false, 0⟩

/-- The loop with an id. -/
def loop? (m : Monitor) (id : Nat) : Option MonitorLoop := m.loops.find? fun l => l.id = id

/-- Change the loop with an id. -/
def updateLoop (m : Monitor) (id : Nat) (f : MonitorLoop → MonitorLoop) : Monitor :=
  { m with loops := m.loops.map fun l => if l.id = id then f l else l }

/-- Whether a loop belongs to the current generation of a running monitor. -/
def isCurrent (m : Monitor) (l : MonitorLoop) : Bool :=
  m.running && decide (l.generation = m.generation)

/-! ## Wake-up calls -/

/-- Call the loop that has been waiting longest, or keep the call. -/
def call (m : Monitor) : Monitor :=
  match m.waiting with
  | [] => { m with callKept := true }
  | id :: rest => { m with waiting := rest }.updateLoop id fun l => { l with called := true }

/-- Count an ingested run. -/
def ingested (m : Monitor) : Monitor :=
  let m := { m with ingestedRuns := m.ingestedRuns + 1 }
  if m.settings.maxIngestedRuns ≠ 0 ∧ m.ingestedRuns % m.settings.maxIngestedRuns = 0 then m.call
  else m

/-! ## Starting and stopping -/

/-- Begin a loop, whose id comes with the monitor. -/
def start (m : Monitor) : Except MonitorError (Nat × Monitor) :=
  if m.running then .error .running
  else
    .ok (m.launched,
      { m with
        running := true
        launched := m.launched + 1
        loops := m.loops ++ [⟨m.launched, m.generation, .awake, false, false⟩] })

/-- End the current generation and tell its loop. -/
def stop (m : Monitor) : Except MonitorError Monitor :=
  if m.running then
    .ok { m with
      running := false
      generation := m.generation + 1
      loops := m.loops.map fun l =>
        if l.generation = m.generation then { l with dismissed := true } else l }
  else .error .stopped

/-! ## Turns -/

/-- Let a sleeping loop go on for a reason that it has. -/
def rouse (m : Monitor) (id now : Nat) (reason : Reason) : Option Monitor := do
  let l ← m.loop? id
  if l.hasReason now reason then
    let woken : Monitor := { m with waiting := m.waiting.filter (· ≠ id) }.updateLoop id fun l =>
      { l with
        phase := .awake
        called := false
        dismissed := l.dismissed && decide (reason ≠ Reason.dismissal) }
    return if l.called && decide (reason ≠ Reason.call) then woken.call else woken
  else none

/-- Put a loop to sleep. A call that was kept goes to it at once. -/
def sleep (m : Monitor) (id now : Nat) : Monitor :=
  let due := now + m.settings.interval
  if m.callKept then
    { m with callKept := false }.updateLoop id fun l =>
      { l with phase := .asleep due, called := true }
  else
    { m with waiting := m.waiting ++ [id] }.updateLoop id fun l => { l with phase := .asleep due }

/-- The turn of a loop that is awake: it ends unless it is the current one, else it takes a sample
and goes to sleep. -/
def turn (m : Monitor) (id now : Nat) : Option (LoopTurn × Monitor) := do
  let l ← m.loop? id
  if l.phase = .awake then
    if m.isCurrent l then return (.sampled, m.sleep id now)
    else return (.ended, { m with loops := m.loops.filter fun l => l.id ≠ id })
  else none

/-! ## Settings -/

/-- Change the time between two looks at the heap; it must not be zero. -/
def setInterval (m : Monitor) (interval : Nat) : Except MonitorError Monitor := do
  MonitorSettings.checkInterval interval
  return { m with settings := { m.settings with interval } }

/-- Change how much there may be on the heap. -/
def setMaxHeapBytes (m : Monitor) (maxHeapBytes : Nat) : Monitor :=
  { m with settings := { m.settings with maxHeapBytes } }

/-- Change which part of the runs is evicted; it must be a fraction of a whole. -/
def setFraction (m : Monitor) (evictionFraction : Float) : Except MonitorError Monitor := do
  MonitorSettings.checkFraction evictionFraction
  return { m with settings := { m.settings with evictionFraction } }

theorem start_of_running {m : Monitor} (h : m.running = true) : m.start = .error .running := by
  simp [start, h]

theorem stop_of_not_running {m : Monitor} (h : m.running = false) : m.stop = .error .stopped := by
  simp [stop, h]

end Monitor

end ResultSearch
