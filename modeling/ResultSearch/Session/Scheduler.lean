import ResultSearch.Document.Metadata
import ResultSearch.Session.Loading

/-!
# Turns and time in a session

A task that has its turn runs until it waits. `settle` gives turns until no task is ready; a task that
comes to a load waits for the next `settle`, so that the others run first. Time passes from one due
task to the next, and before it passes all tasks run until every one of them waits for something else
than its turn.

* `turn`: the turn of one task.
* `settle`: the turns of all that are ready.
* `advance`: some time passes.
-/

namespace ResultSearch.Session

/-! ## Monitors -/

/-- Let a sleeping loop go on for one of its reasons. Any of them may be taken; here a call comes
first, also for a loop that was dismissed and will do nothing with it, then the dismissal, and then
the time. -/
def rouseLoop (m : Monitor) (loop now : Nat) : Monitor :=
  ((m.rouse loop now .call).orElse fun _ =>
    (m.rouse loop now .dismissal).orElse fun _ => m.rouse loop now .timer).getD m

/-- The turn of the task that runs a loop of a monitor. -/
def turnLoop (s : Session) (id monitor loop : Nat) : Session :=
  match s.watch? monitor with
  | none => s
  | some w =>
    let roused := rouseLoop w.monitor loop s.clock
    match roused.turn loop s.clock with
    | none => s
    | some (.ended, m) =>
      { s with watches := s.watches.set monitor { w with monitor := m } }.finish id
        (.error (.monitor .stopped))
    | some (.sampled, m) =>
      let s := { s with watches := s.watches.set monitor { w with monitor := m } }
      let s := (s.check m.settings).2
      let s := s.waitUntil id (s.clock + m.settings.interval)
      if s.isCalled monitor loop then s.makeReady id else s

/-- The first turn of the task that runs a monitor. -/
def turnStart (s : Session) (id monitor : Nat) : Session :=
  match s.watch? monitor with
  | none => s
  | some w =>
    match w.monitor.start with
    | .error e => s.finish id (.error (.monitor e))
    | .ok (loop, m) =>
      let s := { s with watches := s.watches.set monitor { w with monitor := m } }
      (s.setJob id (.watch monitor (some loop))).turnLoop id monitor loop

/-! ## Polling -/

/-- Wait for the next tick. -/
def awaitTick (s : Session) (id : Nat) (t : Ticker) : Session :=
  if t.due ≤ s.clock then s.makeReady id else s.waitUntil id t.due

/-- Offer runs to the index up to the first that has to be loaded. -/
def offerRuns (s : Session) (id interval maxRuns : Nat) (t : Ticker) :
    PollPass → List Run → Session
  | _, [] => (s.setJob id (.poll interval maxRuns (some t) none)).awaitTick id t
  | p, r :: rest =>
    match s.index.begin r with
    | .error e => s.offerRuns id interval maxRuns t (p.record (.error e)) rest
    | .ok index =>
      ({ s with index }.setJob id (.poll interval maxRuns (some t) (some (p, rest)))).park id r

/-- Wait for the listing as long as it is held back, and offer its runs to the index. -/
def receiveRuns (s : Session) (id interval maxRuns : Nat) (t : Ticker) : Session :=
  if s.listingHeld then
    (s.setJob id (.poll interval maxRuns (some t) none)).setStage id .listing
  else
    match s.listed maxRuns with
    | .ok runs => s.offerRuns id interval maxRuns t (.ofRuns runs) runs
    | .error _ => s.offerRuns id interval maxRuns t (.ofRuns []) []

/-- The tick of a loop that polls for runs. -/
def tickPoll (s : Session) (id interval maxRuns : Nat) (t : Ticker) : Session :=
  if s.shutdown.contains id then s.finish id (.ok ())
  else (s.askRuns maxRuns).receiveRuns id interval maxRuns (t.tick s.clock)

/-- The tick of a loop that refreshes metadata or web features. A document that is no good leaves
what there was. -/
def tickRefresh (s : Session) (id : Nat) (kind : LoopKind) (interval : Nat) (t : Ticker) : Session :=
  if s.shutdown.contains id then s.finish id (.ok ())
  else
    let t := t.tick s.clock
    let document := s.documents.head?.getD .null
    let s := { s with sourceCalls := s.sourceCalls + 1, documents := s.documents.tail }
    let s := match kind with
      | .features =>
        match WebFeatures.ofJson? document with
        | some data => { s with cachedFeatures := data }
        | none => s
      | _ =>
        match MetadataTable.ofJson? document with
        | some table => { s with cachedMetadata := table }
        | none => s
    (s.setJob id (.refresh kind interval (some t))).awaitTick id t

/-! ## Turns -/

/-- The turn of a task that is ready. -/
def turnJob (s : Session) (id : Nat) : Job → Session
  | .watch monitor none => s.turnStart id monitor
  | .watch monitor (some loop) => s.turnLoop id monitor loop
  | .ingest r =>
    match s.index.begin r with
    | .error e => s.finish id (.error e)
    | .ok index => { s with index }.park id r
  | .poll interval maxRuns none _ =>
    if interval = 0 then s.finish id (.ok ())
    else
      let t : Ticker := ⟨interval, s.clock + interval⟩
      (s.setJob id (.poll interval maxRuns (some t) none)).awaitTick id t
  | .poll interval maxRuns (some t) _ => s.tickPoll id interval maxRuns t
  | .refresh kind interval none =>
    if interval = 0 then s.finish id (.ok ())
    else s.tickRefresh id kind interval ⟨interval, s.clock⟩
  | .refresh kind interval (some t) => s.tickRefresh id kind interval t

/-- A task that waited for a load goes on with what the load came to. -/
def resume (s : Session) (id : Nat) (job : Job) (outcome : Except Error Unit) : Session :=
  match job with
  | .poll interval maxRuns (some t) (some (p, rest)) =>
    s.offerRuns id interval maxRuns t (p.record outcome) rest
  | _ => s.finish id outcome

/-- The load of a task, unless it is held back. -/
def turnLoad (s : Session) (id : Nat) (job : Job) (r : Run) : Session :=
  if s.held.contains r.id then s.setStage id (.gated r)
  else
    let (outcome, s) := s.completeLoad r
    s.resume id job outcome

/-- The turn of a task that waits for the listing. -/
def turnListing (s : Session) (id : Nat) : Job → Session
  | .poll interval maxRuns (some t) none => s.receiveRuns id interval maxRuns t
  | _ => s

/-- The turn of a task. -/
def turn (s : Session) (id : Nat) : Session :=
  match s.tasks.get? id with
  | none => s
  | some t =>
    match t.stage with
    | .ready => s.turnJob id t.job
    | .loading r => s.turnLoad id t.job r
    | .gated r => s.turnLoad id t.job r
    | .listing => s.turnListing id t.job
    | .timed _ _ => s
    | .ended _ => s

/-- More turns than the tasks of a session take at one time. -/
def patience : Nat := 1000000

/-- Give turns until no task is ready. -/
def drain : (fuel : Nat) → Session → Session
  | 0, s => s
  | fuel + 1, s =>
    match s.queue with
    | [] => s
    | id :: rest => drain fuel ({ s with queue := rest }.turn id)

/-- Let all tasks run that are ready or about to load a report. -/
def settle (s : Session) : Session :=
  drain patience { s with queue := s.parked ++ s.queue, parked := [] }

/-- Let all tasks run until none is about to load a report. -/
def settleAll : (fuel : Nat) → Session → Session
  | 0, s => s
  | fuel + 1, s =>
    let s := s.settle
    if s.parked.isEmpty then s else settleAll fuel s

/-- Open the gate of a run. -/
def release (s : Session) (id : RunId) : Session :=
  let s := { s with held := s.held.filter (· ≠ id) }
  let waiting := s.tasks.entries.filter fun e =>
    match e.2.stage with
    | .gated r => r.id = id
    | _ => false
  { s with queue := s.queue ++ waiting.map Prod.fst }

/-- Let the listing come to those who wait for it. -/
def releaseListing (s : Session) : Session :=
  let waiting := s.tasks.entries.filter fun e =>
    match e.2.stage with
    | .listing => true
    | _ => false
  { s with listingHeld := false, queue := s.queue ++ waiting.map Prod.fst }

/-! ## Time -/

/-- The tasks that wait for a time, each with that time and its number. -/
def timed (s : Session) : List (Nat × Nat × Nat) :=
  s.tasks.entries.filterMap fun e =>
    match e.2.stage with
    | .timed due number => some (due, number, e.1)
    | _ => none

/-- The next time that a task waits for. -/
def nextDue? (s : Session) : Option Nat := (s.timed.map fun e => e.1).min?

/-- Set the clock and give their turns to the tasks that are due. -/
def setClock (s : Session) (now : Nat) : Session :=
  let due := (s.timed.filter fun e => decide (e.1 ≤ now)).mergeSort fun a b =>
    decide (a.2.1 ≤ b.2.1)
  due.foldl (fun s e => s.makeReady e.2.2) { s with clock := now }

/-- Let time pass until `target`, with all that happens before; every step takes a millisecond or
more. -/
def passUntil (target : Nat) : (fuel : Nat) → Session → Session
  | 0, s => s
  | fuel + 1, s =>
    let s := settleAll patience s
    match s.nextDue? with
    | some due => if due < target then passUntil target fuel (s.setClock due) else s
    | none => s

/-- Let some milliseconds pass. -/
def advance (s : Session) (ms : Nat) : Session :=
  let target := s.clock + ms
  ((passUntil target (ms + 1) s).setClock target).settle

end ResultSearch.Session
