import ResultSearch.Session.Basic

/-!
# Filling the index of a session

While the index is being filled a flag listens to it and to the monitor, so that filling ends with
the first eviction or the first stop. Every filling has a flag of its own, and takes down no other.

* `freshFlag`: a flag that nobody has.
* `beginFill`: the flag is raised and the monitor is begun.
* `nextFill`: the next run is begun, or filling is over.
* `recordFill`: a run is counted.
* `lowerFlag`: the flag listens no more.
-/

namespace ResultSearch

/-- What filling comes to when it looks for the next run. -/
inductive FillMove where
  | finished (summary : BackfillSummary)
  /-- The index refuses the run. -/
  | refused (run : Run) (error : Error)
  /-- The report of the run has to be loaded. -/
  | begun (run : Run)

namespace Session

/-- The flags that there are: those of the backfills under way, and those that listen to the index or
to a monitor. -/
def flags (s : Session) : List Nat :=
  s.backfills.keys ++
    (s.indexListeners ++ s.watches.values.flatMap Watch.listeners).filterMap Listener.flag?

/-- A flag that there is not. -/
def freshFlag (s : Session) : Nat := s.flags.max?.getD 0 + 1

theorem freshFlag_not_mem (s : Session) : s.freshFlag ∉ s.flags := fun h =>
  Nat.not_succ_le_self _ (List.le_max?_getD_of_mem h)

/-- Let the flag of a backfill listen to the index and to a monitor. -/
def raiseFlag (s : Session) (flag monitor : Nat) (w : Watch) (b : Backfill) : Session :=
  { s.setFill flag b with
    indexListeners := s.indexListeners ++ [.backfill flag]
    watches := s.watches.set monitor { w with listeners := w.listeners ++ [.backfill flag] } }

/-- End the backfill of a flag, which listens no more. -/
def lowerFlag (s : Session) (flag monitor : Nat) : Session :=
  let watches := match s.watch? monitor with
    | some w =>
      s.watches.set monitor { w with listeners := w.listeners.filter (· ≠ Listener.backfill flag) }
    | none => s.watches
  { s with
    backfills := s.backfills.erase flag
    indexListeners := s.indexListeners.filter (· ≠ Listener.backfill flag)
    watches }

/-- Begin to fill the index with runs that were fetched, and begin to run the monitor. -/
def beginFill (s : Session) (flag monitor : Nat) (w : Watch) (runs : List Run) : Session :=
  ((s.raiseFlag flag monitor w (.ofRuns runs)).spawn (.watch monitor none)).2

/-- Count what became of the run that filling began last. -/
def recordFill (s : Session) (flag : Nat) (outcome : Except Error Unit) : Session :=
  s.updateFill flag fun b => b.record outcome

/-- Begin the next run, if filling goes on. -/
def nextFill (s : Session) (flag : Nat) : Option (FillMove × Session) := do
  let b ← s.backfill? flag
  match b.next with
  | (none, b) => return (.finished b.summary, s.setFill flag b)
  | (some r, b) =>
    match s.index.begin r with
    | .error e => return (.refused r e, s.setFill flag (b.record (.error e)))
    | .ok index => return (.begun r, { s.setFill flag b with index })

end Session

end ResultSearch
