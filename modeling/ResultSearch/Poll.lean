import ResultSearch.Index.Basic

/-!
# Polling

A pass of a poll offers every listed run to the index and counts what became of it. Passes are paced
by a ticker: each tick is due one period after the one before was, but a tick that comes late by more
than the slack pushes the ones after it back.

* `record`: the account of a pass after one more run.
* `pollOnce`: a whole pass with nothing in between.
* `Ticker.tick`: when the next tick is due.
-/

namespace ResultSearch

/-- What became of the runs of one pass. -/
structure PollIteration where
  fetched : Nat
  ingested : Nat
  /-- Runs that were resident already or being loaded. -/
  skipped : Nat
  failed : Nat
  /-- The position of the first ingested run that comes right after one that was not. -/
  ingestedAfter : Option Nat
  deriving DecidableEq

namespace PollIteration

/-- A pass without runs. -/
def none : PollIteration := ⟨0, 0, 0, 0, .none⟩

end PollIteration

/-- A pass that is under way. -/
structure PollPass where
  iteration : PollIteration
  /-- The position of the next run. -/
  position : Nat
  previousIngested : Bool
  deriving DecidableEq

namespace PollPass

/-- The start of a pass over some runs. -/
def ofRuns (runs : List Run) : PollPass := ⟨{ PollIteration.none with fetched := runs.length }, 0, true⟩

/-- Count a run that was ingested. -/
def recordIngested (p : PollPass) : PollPass where
  iteration := { p.iteration with
    ingested := p.iteration.ingested + 1
    ingestedAfter :=
      if p.previousIngested then p.iteration.ingestedAfter
      else p.iteration.ingestedAfter.or (some p.position) }
  position := p.position + 1
  previousIngested := true

/-- Count what became of the next run. -/
def record (p : PollPass) (outcome : Except Error Unit) : PollPass :=
  match outcome with
  | .ok () => p.recordIngested
  | .error e =>
    let iteration :=
      if e.isExpectedSkip then { p.iteration with skipped := p.iteration.skipped + 1 }
      else { p.iteration with failed := p.iteration.failed + 1 }
    ⟨iteration, p.position + 1, false⟩

/-- Offer runs to the index one after the other. Loading the same run at another position may come to
something else. -/
def run (load : Nat → Run → Loaded) : List Run → PollPass → Index → PollPass × Index
  | [], p, ix => (p, ix)
  | r :: rest, p, ix =>
    let (outcome, ix) := ix.ingest (load p.position) r
    run load rest (p.record outcome) ix

end PollPass

/-- One pass over the runs that were fetched; if they could not be had, nothing happens. -/
def pollOnce (load : Nat → Run → Loaded) (fetched : Except Error (List Run)) (ix : Index) :
    PollIteration × Index :=
  match fetched with
  | .error _ => (.none, ix)
  | .ok runs =>
    let (p, ix) := PollPass.run load runs (.ofRuns runs) ix
    (p.iteration, ix)

/-- A clock that ticks once in every period; times are in milliseconds. -/
structure Ticker where
  period : Nat
  /-- When the next tick is due. -/
  due : Nat
  deriving DecidableEq

namespace Ticker

/-- By how much a tick may come late without pushing back the ones after it. -/
def slack : Nat := 5

/-- The ticker after the tick that came at `now`. -/
def tick (t : Ticker) (now : Nat) : Ticker :=
  { t with due := if t.due + slack < now then now + t.period else t.due + t.period }

/-- The next tick is due a period after this one came, less the slack at most. -/
theorem due_tick_ge (t : Ticker) (now : Nat) : now + t.period ≤ (t.tick now).due + slack := by
  unfold tick
  dsimp only
  split <;> omega

end Ticker

end ResultSearch
