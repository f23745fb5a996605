import ResultSearch.Proofs.Session.Listeners

/-!
# Filling an index while others work on it

Filling goes on step by step: runs are fetched, then one run after the other is begun and its load
ends. Between any two of these steps others evict runs, stop the monitor or ingest runs of their own.

* `Run.stablySorted_latestStartFirst`: the order in which runs are begun.
* `Session.FlagKept`: what others do to a session takes the flag down at most.
* `Filling`, `step`, `play`: filling with what it has done, step by step.
* `Change`, `change_of_step`: what a step can do.
-/

namespace ResultSearch

/-! ## The order of the runs -/

namespace Run

/-- One list has the runs of another one by descending start, those that started together in the
order that they have there. -/
structure StablySorted (runs sorted : List Run) : Prop where
  perm : sorted.Perm runs
  pairwise : sorted.Pairwise fun a b => a.timeStart.before b.timeStart = false
  stable : ∀ t, (sorted.filter fun r => r.timeStart = t) = runs.filter fun r => r.timeStart = t

theorem latestStartFirst_perm (runs : List Run) : (latestStartFirst runs).Perm runs :=
  List.mergeSort_perm _ _

theorem not_before_trans (a b c : Run) (hab : (!a.timeStart.before b.timeStart) = true)
    (hbc : (!b.timeStart.before c.timeStart) = true) :
    (!a.timeStart.before c.timeStart) = true := by
  rw [Bool.not_eq_true', ← Bool.not_eq_true, Timestamp.before_iff] at *
  omega

theorem not_before_total (a b : Run) :
    (!a.timeStart.before b.timeStart || !b.timeStart.before a.timeStart) = true := by
  rw [Bool.or_eq_true, Bool.not_eq_true', Bool.not_eq_true', ← Bool.not_eq_true,
    ← Bool.not_eq_true, Timestamp.before_iff, Timestamp.before_iff]
  omega

theorem pairwise_latestStartFirst (runs : List Run) :
    (latestStartFirst runs).Pairwise fun a b => a.timeStart.before b.timeStart = false := by
  have h := List.pairwise_mergeSort not_before_trans not_before_total runs
  exact h.imp fun hab => by simpa using hab

theorem filter_latestStartFirst (runs : List Run) (t : Timestamp) :
    (latestStartFirst runs).filter (fun r => r.timeStart = t) =
      runs.filter fun r => r.timeStart = t := by
  have hsame : (runs.filter fun r => r.timeStart = t).Pairwise fun a b =>
      (!a.timeStart.before b.timeStart) = true := by
    refine List.pairwise_of_forall_mem_list fun a ha b hb => ?_
    have ha := of_decide_eq_true (List.mem_filter.1 ha).2
    have hb := of_decide_eq_true (List.mem_filter.1 hb).2
    simp [ha, hb, Timestamp.before]
  have hsub : (runs.filter fun r => r.timeStart = t).Sublist (latestStartFirst runs) :=
    List.sublist_mergeSort not_before_trans not_before_total hsame
      List.filter_sublist
  have hsub' := hsub.filter fun r => decide (r.timeStart = t)
  simp only [List.filter_filter, Bool.and_self] at hsub'
  exact (hsub'.eq_of_length ((latestStartFirst_perm runs).filter _).length_eq.symm).symm

theorem stablySorted_latestStartFirst (runs : List Run) :
    StablySorted runs (latestStartFirst runs) :=
  ⟨latestStartFirst_perm runs, pairwise_latestStartFirst runs, filter_latestStartFirst runs⟩

end Run

/-! ## What others do -/

namespace Session

/-- What others do to a session leaves the flag of a backfill listening where it does. The flag was
taken down if it was told of something, and else left as it was. -/
structure FlagKept (told : Bool) (flag : Option Nat) (monitor : Nat) (s s' : Session) : Prop where
  onIndex : s'.flagOnIndex flag = s.flagOnIndex flag
  onMonitor : s'.flagOnMonitor flag monitor = s.flagOnMonitor flag monitor
  backfill : flag.bind s'.backfill? =
    if told then (flag.bind s.backfill?).map Backfill.halt else flag.bind s.backfill?

instance (told : Bool) (flag : Option Nat) (monitor : Nat) (s s' : Session) :
    Decidable (FlagKept told flag monitor s s') :=
  decidable_of_iff (s'.flagOnIndex flag = s.flagOnIndex flag ∧
      s'.flagOnMonitor flag monitor = s.flagOnMonitor flag monitor ∧
      flag.bind s'.backfill? =
        if told then (flag.bind s.backfill?).map Backfill.halt else flag.bind s.backfill?)
    ⟨fun ⟨h₁, h₂, h₃⟩ => ⟨h₁, h₂, h₃⟩, fun h => ⟨h.onIndex, h.onMonitor, h.backfill⟩⟩

variable {s s' : Session} {flag : Option Nat}

theorem Heard.flagKept {told : Bool} (h : Heard told flag s s') (monitor : Nat) :
    FlagKept told flag monitor s s' :=
  ⟨h.flagOnIndex_eq, h.flagOnMonitor_eq monitor, h.backfill⟩

/-- Whether the flag of a backfill listens to the index or to a monitor. -/
def flagListens (s : Session) (flag : Option Nat) (monitor : Nat) : Bool :=
  s.flagOnIndex flag || s.flagOnMonitor flag monitor = some true

variable {k : Nat} {b : Backfill} {run : Run} {rest : List Run}

/-! ## Looking for the next run -/

theorem nextFill_of_nil (hb : s.backfill? k = some b) (hpending : b.pending = []) :
    s.nextFill k = some (.finished b.summary, s.setFill k b) := by
  simp [nextFill, Backfill.next, hb, hpending]

theorem nextFill_of_halted (hb : s.backfill? k = some b) (hpending : b.pending ≠ [])
    (hflag : b.flag = false) : s.nextFill k = some (.finished { b.summary with halted := true },
      s.setFill k { b with summary := { b.summary with halted := true } }) := by
  obtain ⟨run, rest, hcons⟩ := List.exists_cons_of_ne_nil hpending
  simp [nextFill, Backfill.next, hb, hcons, hflag]

theorem nextFill_of_refused {e : Error} (hb : s.backfill? k = some b)
    (hpending : b.pending = run :: rest) (hflag : b.flag = true)
    (hbegin : s.index.begin run = .error e) : s.nextFill k = some (.refused run e,
      s.setFill k (Backfill.record { b with pending := rest } (.error e))) := by
  simp [nextFill, Backfill.next, hb, hpending, hflag, hbegin]

theorem nextFill_of_begun {index : Index} (hb : s.backfill? k = some b)
    (hpending : b.pending = run :: rest) (hflag : b.flag = true)
    (hbegin : s.index.begin run = .ok index) : s.nextFill k = some (.begun run,
      { s.setFill k { b with pending := rest } with index }) := by
  simp [nextFill, Backfill.next, hb, hpending, hflag, hbegin]

end Session

/-! ## Filling step by step -/

/-- How far filling has come. -/
inductive FillPhase where
  /-- The runs to fill with have yet to be fetched. -/
  | fetching
  /-- The next run is looked for. -/
  | picking
  /-- The report of the run that was begun last is loaded. -/
  | loading (run : Run)
  | returned (outcome : Except Error BackfillSummary)
  deriving DecidableEq

namespace FillPhase

/-- How many ingestions are under way. -/
def inFlight : FillPhase → Nat
  | .loading _ => 1
  | _ => 0

/-- Whether runs were fetched and filling has yet to return. -/
def isUnderWay : FillPhase → Bool
  | .picking => true
  | .loading _ => true
  | _ => false

/-- Whether the runs to fill with were fetched. -/
def hasFetched : FillPhase → Bool
  | .fetching => false
  | .returned (.error _) => false
  | _ => true

theorem inFlight_eq_zero {phase : FillPhase} (h : phase.isUnderWay = false) :
    phase.inFlight = 0 := by
  cases phase with
  | loading run => cases h
  | fetching | picking | returned => rfl

end FillPhase

/-- Filling the index of a session, with what it has done. -/
structure Filling where
  session : Session
  monitor : Nat
  /-- Its flag, once it was raised. -/
  flag : Option Nat
  /-- What fetching runs comes to. -/
  answer : Except Error (List Run)
  phase : FillPhase
  /-- The runs that it has tried to ingest, and what became of those that are under way no more, each
  from the first on. -/
  begun : List Run
  outcomes : List (Except Error Unit)
  /-- How often its flag was told of an eviction or of a stop. -/
  notices : Nat

/-- What happens between two waits. -/
inductive FillStep where
  | fetch
  | next
  | finish (loaded : Loaded)
  | evict (fraction : Float)
  | evictAny
  | check (settings : MonitorSettings)
  | stop
  /-- Anything else that others do; `told` says whether the flag hears of it. -/
  | others (told : Bool) (session : Session)

namespace FillStep

/-- Whether it is neither a step of filling nor an eviction nor a stop. -/
def isOthers : FillStep → Bool
  | .others _ _ => true
  | _ => false

/-- Whether those who listen to the index are told of an eviction in a session, or those who listen
to a monitor of its stop. -/
def tells (s : Session) (monitor : Nat) : FillStep → Bool
  | .fetch => false
  | .next => false
  | .finish _ => false
  | .evict fraction => evictsSome (s.evict fraction).1
  | .evictAny => s.evictAny.1.toBool
  | .check settings => (s.check settings).1 != 0
  | .stop => (s.watch? monitor).any fun w => (s.stopMonitor monitor w).toBool
  | .others told _ => told

end FillStep

namespace Filling

/-- The runs to fill with. -/
def fetched (f : Filling) : List Run := f.answer.toOption.getD []

/-- Take over what others did to the session, and count what the flag was told. -/
def outside (f : Filling) (told : Bool) (session : Session) : Filling :=
  { f with session, notices := f.notices + told.toNat }

/-- Take over what looking for the next run came to. -/
def moved (f : Filling) (k : Nat) (session : Session) : FillMove → Filling
  | .finished summary =>
    { f with session := session.lowerFlag k f.monitor, phase := .returned (.ok summary) }
  | .refused run e => { f with
      session, phase := .picking, begun := f.begun ++ [run], outcomes := f.outcomes ++ [.error e] }
  | .begun run => { f with session, phase := .loading run, begun := f.begun ++ [run] }

/-- Take over what the ingestion of a run came to. -/
def recorded (f : Filling) (k : Nat) (session : Session) (outcome : Except Error Unit) : Filling :=
  { f with
    session := session.recordFill k outcome, phase := .picking
    outcomes := f.outcomes ++ [outcome] }

/-- One step, if it is the turn of filling for it. What others do leaves the flag in its places, and
the flag hears of nothing that it does not listen to. -/
def step (f : Filling) : FillStep → Option Filling
  | .fetch =>
    match f.phase, f.answer with
    | .fetching, .error e => some { f with phase := .returned (.error e) }
    | .fetching, .ok runs => (f.session.watch? f.monitor).map fun w =>
      let k := f.session.freshFlag
      { f with
        session := f.session.beginFill k f.monitor w runs, flag := some k, phase := .picking }
    | _, _ => none
  | .next =>
    match f.phase, f.flag with
    | .picking, some k =>
      (f.session.nextFill k).map fun (move, session) => f.moved k session move
    | _, _ => none
  | .finish loaded =>
    match f.phase, f.flag with
    | .loading run, some k =>
      let (outcome, session) := f.session.deliver run loaded
      some (f.recorded k session outcome)
    | _, _ => none
  | .evict fraction =>
    let (evicted, session) := f.session.evict fraction
    some (f.outside (f.session.flagOnIndex f.flag && evictsSome evicted) session)
  | .evictAny =>
    let (evicted, session) := f.session.evictAny
    some (f.outside (f.session.flagOnIndex f.flag && evicted.toBool) session)
  | .check settings =>
    let (evicted, session) := f.session.check settings
    some (f.outside (f.session.flagOnIndex f.flag && evicted != 0) session)
  | .stop =>
    match f.session.watch? f.monitor with
    | none => none
    | some w =>
      match f.session.stopMonitor f.monitor w with
      | .error _ => some f
      | .ok session => some (f.outside (flagIn f.flag w.listeners) session)
  | .others told session =>
    if Session.FlagKept told f.flag f.monitor f.session session ∧
        (told → f.session.flagListens f.flag f.monitor) then
      some (f.outside told session)
    else none

/-- Filling before its first step. -/
def ofSession (s : Session) (monitor : Nat) (answer : Except Error (List Run)) : Filling :=
  ⟨s, monitor, none, answer, .fetching, [], [], 0⟩

/-- Filling after some steps, if each can be taken where it comes. -/
def play (s : Session) (monitor : Nat) (answer : Except Error (List Run)) (steps : List FillStep) :
    Option Filling :=
  steps.foldlM step (ofSession s monitor answer)

variable {f f' : Filling} {fs : FillStep}

/-! ## What a step can do -/

/-- What one step can do: fetch the runs or fail to, find that filling is over or has to stop, try
one more run, end the ingestion of a run, or leave things to others. -/
inductive Change (f : Filling) : FillStep → Filling → Prop
  | fetchFailed {e : Error} : f.phase = .fetching → f.answer = .error e →
      Change f .fetch { f with phase := .returned (.error e) }
  | fetched {runs : List Run} {w : Watch} : f.phase = .fetching → f.answer = .ok runs →
      f.session.watch? f.monitor = some w →
      Change f .fetch { f with
        session := f.session.beginFill f.session.freshFlag f.monitor w runs
        flag := some f.session.freshFlag, phase := .picking }
  | exhausted {k : Nat} {b : Backfill} : f.phase = .picking → f.flag = some k →
      f.session.backfill? k = some b → b.pending = [] →
      Change f .next { f with
        session := (f.session.setFill k b).lowerFlag k f.monitor
        phase := .returned (.ok b.summary) }
  | halted {k : Nat} {b : Backfill} : f.phase = .picking → f.flag = some k →
      f.session.backfill? k = some b → b.pending ≠ [] → b.flag = false →
      Change f .next { f with
        session := (f.session.setFill k
          { b with summary := { b.summary with halted := true } }).lowerFlag k f.monitor
        phase := .returned (.ok { b.summary with halted := true }) }
  | refused {k : Nat} {b : Backfill} {run : Run} {rest : List Run} {e : Error} :
      f.phase = .picking → f.flag = some k → f.session.backfill? k = some b →
      b.pending = run :: rest → b.flag = true → f.session.index.begin run = .error e →
      Change f .next { f with
        session := f.session.setFill k (Backfill.record { b with pending := rest } (.error e))
        phase := .picking, begun := f.begun ++ [run], outcomes := f.outcomes ++ [.error e] }
  | begun {k : Nat} {b : Backfill} {run : Run} {rest : List Run} {index : Index} :
      f.phase = .picking → f.flag = some k → f.session.backfill? k = some b →
      b.pending = run :: rest → b.flag = true → f.session.index.begin run = .ok index →
      Change f .next { f with
        session := { f.session.setFill k { b with pending := rest } with index }
        phase := .loading run, begun := f.begun ++ [run] }
  | ended {k : Nat} {run : Run} (loaded : Loaded) : f.phase = .loading run → f.flag = some k →
      Change f (.finish loaded)
        (f.recorded k (f.session.deliver run loaded).2 (f.session.deliver run loaded).1)
  | heard {fs : FillStep} {told : Bool} {session : Session} :
      Session.Heard told f.flag f.session session →
      (told → f.session.flagListens f.flag f.monitor) →
      Change f fs (f.outside told session)
  | others {told : Bool} {session : Session} :
      Session.FlagKept told f.flag f.monitor f.session session →
      (told → f.session.flagListens f.flag f.monitor) →
      Change f (.others told session) (f.outside told session)

theorem step_next {k : Nat} {move : FillMove} {session : Session} (hphase : f.phase = .picking)
    (hk : f.flag = some k) (hmove : f.session.nextFill k = some (move, session)) :
    f.step .next = some (f.moved k session move) := by
  rw [step, hphase, hk]
  dsimp only
  rw [hmove]
  rfl

theorem step_finish {k : Nat} {run : Run} (hphase : f.phase = .loading run) (hk : f.flag = some k)
    (loaded : Loaded) : f.step (.finish loaded) = some
      (f.recorded k (f.session.deliver run loaded).2 (f.session.deliver run loaded).1) := by
  rw [step, hphase, hk]

theorem change_of_next {k : Nat} (hphase : f.phase = .picking) (hk : f.flag = some k)
    (h : f.step .next = some f') : Change f .next f' := by
  cases hb : f.session.backfill? k with
  | none =>
    rw [step, hphase, hk] at h
    simp [Session.nextFill, hb] at h
  | some b =>
    cases hpending : b.pending with
    | nil =>
      rw [step_next hphase hk (Session.nextFill_of_nil hb hpending)] at h
      exact Option.some.inj h ▸ .exhausted hphase hk hb hpending
    | cons run rest =>
      cases hflag : b.flag with
      | false =>
        have hpending : b.pending ≠ [] := by simp [hpending]
        rw [step_next hphase hk (Session.nextFill_of_halted hb hpending hflag)] at h
        exact Option.some.inj h ▸ .halted hphase hk hb hpending hflag
      | true =>
        cases hbegin : f.session.index.begin run with
        | error e =>
          rw [step_next hphase hk (Session.nextFill_of_refused hb hpending hflag hbegin)] at h
          exact Option.some.inj h ▸ .refused hphase hk hb hpending hflag hbegin
        | ok index =>
          rw [step_next hphase hk (Session.nextFill_of_begun hb hpending hflag hbegin)] at h
          exact Option.some.inj h ▸ .begun hphase hk hb hpending hflag hbegin

theorem change_of_step (h : f.step fs = some f') : Change f fs f' := by
  cases fs with
  | fetch =>
    rw [step] at h
    split at h
    · next e hphase hanswer => exact Option.some.inj h ▸ .fetchFailed hphase hanswer
    · next runs hphase hanswer =>
      obtain ⟨w, hw, rfl⟩ := Option.map_eq_some_iff.1 h
      exact .fetched hphase hanswer hw
    · cases h
  | next =>
    have hnext := h
    rw [step] at h
    split at h
    · next k hphase hk => exact change_of_next hphase hk hnext
    · cases h
  | finish loaded =>
    rw [step] at h
    split at h
    · next run k hphase hk => exact Option.some.inj h ▸ .ended loaded hphase hk
    · cases h
  | evict fraction =>
    refine Option.some.inj h ▸ .heard (Session.heard_evict fraction) ?_
    simp +contextual [Session.flagListens]
  | evictAny =>
    refine Option.some.inj h ▸ .heard Session.heard_evictAny ?_
    simp +contextual [Session.flagListens]
  | check settings =>
    refine Option.some.inj h ▸ .heard (Session.heard_check settings) ?_
    simp +contextual [Session.flagListens]
  | stop =>
    rw [step] at h
    split at h
    · cases h
    · next w hw =>
      split at h
      · exact Option.some.inj h ▸ .heard (.refl f.flag f.session) (fun h => nomatch h)
      · next session hstop =>
        refine Option.some.inj h ▸ .heard (Session.heard_stopMonitor hw hstop) ?_
        simp +contextual [Session.flagListens, Session.flagOnMonitor, hw]
  | others told session =>
    rw [step] at h
    split at h
    · next hkept => exact Option.some.inj h ▸ .others hkept.1 hkept.2
    · cases h

theorem Change.answer_eq (h : Change f fs f') : f'.answer = f.answer := by
  cases h <;> rfl

theorem Change.monitor_eq (h : Change f fs f') : f'.monitor = f.monitor := by
  cases h <;> rfl

end Filling

end ResultSearch
