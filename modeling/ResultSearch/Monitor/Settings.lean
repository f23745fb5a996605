import ResultSearch.Index.Eviction

/-!
# What a memory monitor is set to

How often the heap is looked at, how much of it is allowed, and what is done when there is more.

* `check`: the runs that one look at the heap evicts.
-/

namespace ResultSearch

/-- The settings of a memory monitor. -/
structure MonitorSettings where
  /-- The time between two looks at the heap in milliseconds. -/
  interval : Nat
  maxHeapBytes : Nat
  /-- The part of the resident runs that is evicted when there is too much. -/
  evictionFraction : Float
  /-- After so many ingested runs the heap is looked at in any case; never if this is zero. -/
  maxIngestedRuns : Nat
  deriving DecidableEq

namespace MonitorSettings

/-- Look every five seconds and after every tenth run, and evict a tenth of the runs if there is
anything on the heap. -/
def standard : MonitorSettings := ⟨5000, 0, 0.1, 10⟩

instance : Inhabited MonitorSettings := ⟨standard⟩

/-- Whether a number is a fraction of a whole. -/
def isFraction (x : Float) : Bool := decide (0 ≤ x) && decide (x ≤ 1)

/-- Refuse to look at the heap all the time. -/
def checkInterval (interval : Nat) : Except MonitorError Unit :=
  if interval = 0 then .error .zeroInterval else .ok ()

/-- Refuse what is no fraction of a whole. -/
def checkFraction (fraction : Float) : Except MonitorError Unit :=
  if isFraction fraction then .ok () else .error (.invalidFraction fraction)

/-- Refuse settings that no monitor can have. -/
def validate (s : MonitorSettings) : Except MonitorError Unit := do
  checkInterval s.interval
  checkFraction s.evictionFraction

/-- Look at the heap once: with too much on it, evict runs. -/
def check (s : MonitorSettings) (heapBytes : Nat) (ix : Index) :
    Except Error (List RunId) × Index :=
  if heapBytes ≤ s.maxHeapBytes then (.ok [], ix) else ix.evict s.evictionFraction

end MonitorSettings

end ResultSearch
