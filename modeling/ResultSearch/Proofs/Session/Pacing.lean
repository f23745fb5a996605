import ResultSearch.Proofs.Session.PollTurns
import ResultSearch.Session.Script

/-!
# The pace of a loop that polls

A loop that polls for runs waits one period and polls, again and again. Whatever else goes on, and
however long the polls take, the polls stay apart and none is late: a poll that takes too long is
followed by the next one at once, and the one after that is due a period later. Time passes as it
likes while a poll is under way, but not beyond the time that the loop waits for.

* `Paced`, `Paced.Steps`: a session with the polls of one of its tasks.
* `InTime`: when a poll may start, given those before it.
* `Stance`, `Sound`, `Sound.of_step`: where the loop stands, and what a step makes of it.
* `keeps_pace`: every poll starts in time, and none does once the loop was told to end.
-/

namespace ResultSearch

namespace Session

variable {s s' : Session} {task : Nat}

/-- What leaves a task and its flag alone takes no time. -/
structure Spares (task : Nat) (s s' : Session) : Prop where
  task_eq : s'.tasks.get? task = s.tasks.get? task
  clock_eq : s'.clock = s.clock
  flag_eq : s'.shutdown.contains task = s.shutdown.contains task

theorem Leaves.spares (h : Leaves task s s') : Spares task s s' :=
  ⟨h.task_eq, h.clock_eq, by rw [h.shutdown_eq]⟩

/-- Whether time may pass up to `now` as far as a task is concerned: it is not ready, and waits for
no time before. -/
def mayPass (s : Session) (task now : Nat) : Bool :=
  match (s.tasks.get? task).map Task.stage with
  | some .ready => false
  | some (.timed due _) => decide (now ≤ due)
  | _ => true

end Session

/-! ## A session with the polls of a loop -/

/-- A poll that has ended. -/
structure Poll where
  start : Nat
  finish : Nat
  deriving DecidableEq

/-- A session with the polls of one of its tasks. -/
structure Paced where
  session : Session
  /-- The polls that have ended, the first one first. -/
  polls : List Poll
  /-- When the poll that is under way started, if one is. -/
  underWay : Option Nat

namespace Paced

/-- A session that begins a loop. -/
def begin (s : Session) (interval maxRuns : Nat) : Paced :=
  ⟨s.startLoop .runs interval maxRuns, [], none⟩

/-- When polls started. -/
def starts (x : Paced) : List Nat := x.polls.map Poll.start ++ x.underWay.toList

/-- The turn of the loop. A poll starts when the listing is asked for, and ends when all runs were
offered. -/
def turned (x : Paced) (task : Nat) : Paced :=
  let session := x.session.turn task
  let started := if x.session.asksListing session then some x.session.clock else x.underWay
  if (session.tasks.get? task).any Task.isPolling then ⟨session, x.polls, started⟩
  else ⟨session, x.polls ++ started.toList.map fun start => ⟨start, session.clock⟩, none⟩

/-- What can happen: the loop or another task has its turn, time passes, the loop is told to end, or
others do something that leaves the loop alone. -/
inductive Step (task : Nat) : Paced → Paced → Prop
  | turn (x : Paced) : Step task x (x.turned task)
  | otherTurn (x : Paced) {id : Nat} : id ≠ task →
      Step task x { x with session := x.session.turn id }
  | pass (x : Paced) {now : Nat} : x.session.clock ≤ now → x.session.mayPass task now = true →
      Step task x { x with session := x.session.setClock now }
  | flag (x : Paced) :
      Step task x { x with session := { x.session with shutdown := task :: x.session.shutdown } }
  | others (x : Paced) {session : Session} : x.session.Spares task session →
      Step task x { x with session }

/-- Any number of steps. -/
abbrev Steps (task : Nat) : Paced → Paced → Prop := Relation.ReflTransGen (Step task)

/-- The loop was told to end. -/
def Flagged (x : Paced) (task : Nat) : Prop := x.session.shutdown.contains task = true

/-- The loop has ended. -/
def IsOver (x : Paced) (task : Nat) : Prop :=
  ∃ job, x.session.tasks.get? task = some ⟨job, .ended (.ok ())⟩

/-! ## When polls start -/

/-- When the next poll starts at the latest: one period after the loop was called or after the last
poll started, or when that has ended. -/
def latest (interval called : Nat) (before : List Poll) : Nat :=
  match before.getLast? with
  | none => called + interval
  | some last => max (last.start + interval) last.finish

/-- A poll that starts in time: the first one starts one period after the loop was called, any other
one period after the one before it, less the slack, at the earliest, when that has ended, and at the
latest when both is so. -/
def InTime (interval called : Nat) (before : List Poll) (start : Nat) : Prop :=
  match before.getLast? with
  | none => start = called + interval
  | some last => last.start + interval ≤ start + Ticker.slack ∧ last.finish ≤ start ∧
      start ≤ max (last.start + interval) last.finish

/-- When the next tick is due. -/
def NextDue (interval called : Nat) (before : List Poll) (due : Nat) : Prop :=
  match before.getLast? with
  | none => due = called + interval
  | some last => last.start + interval ≤ due + Ticker.slack ∧ due ≤ last.start + interval

variable {interval called due now start : Nat} {before : List Poll}

theorem NextDue.le_latest (h : NextDue interval called before due) :
    due ≤ latest interval called before := by
  cases hlast : before.getLast? <;> simp only [NextDue, latest, hlast] at h ⊢ <;> omega

theorem NextDue.inTime (h : NextDue interval called before due) (hdue : due ≤ now)
    (hlatest : now ≤ latest interval called before) (hended : ∀ a ∈ before, a.finish ≤ now) :
    InTime interval called before now := by
  cases hlast : before.getLast? with
  | none =>
    simp only [NextDue, latest, InTime, hlast] at h hlatest ⊢
    omega
  | some last =>
    have hfinish := hended last (List.mem_of_getLast? hlast)
    simp only [NextDue, latest, InTime, hlast] at h hlatest ⊢
    omega

theorem latest_append (a : Poll) :
    latest interval called (before ++ [a]) = max (a.start + interval) a.finish := by
  simp [latest]

theorem nextDue_append {a : Poll} : NextDue interval called (before ++ [a]) due ↔
    a.start + interval ≤ due + Ticker.slack ∧ due ≤ a.start + interval := by
  simp [NextDue]

/-! ## Where the loop stands -/

/-- The loop waits for a tick that is due at some time: it is ready, and no later than it may be, or
the time has yet to come. -/
inductive Awaits (due now latest : Nat) : Stage → Prop
  | ready : due ≤ now → now ≤ latest → Awaits due now latest .ready
  | timed (number : Nat) : now < due → Awaits due now latest (.timed due number)

/-- Where a loop stands: it has yet to be called, it waits for a tick, a poll is under way, or it
has ended. -/
inductive Stance (interval called task : Nat) (x : Paced) : Prop
  | fresh {maxRuns : Nat} :
      x.session.tasks.get? task = some ⟨.poll interval maxRuns none none, .ready⟩ →
      x.session.clock = called → x.polls = [] → x.underWay = none → Stance interval called task x
  | waiting {maxRuns : Nat} {ticker : Ticker} {stage : Stage} :
      x.session.tasks.get? task = some ⟨.poll interval maxRuns (some ticker) none, stage⟩ →
      ticker.period = interval → NextDue interval called x.polls ticker.due →
      Awaits ticker.due x.session.clock (latest interval called x.polls) stage →
      x.underWay = none → Stance interval called task x
  | polling {maxRuns : Nat} {ticker : Ticker} {t : Task} {start : Nat} :
      x.session.tasks.get? task = some t → t.Polls interval maxRuns ticker →
      ticker.period = interval → x.underWay = some start →
      InTime interval called x.polls start → start ≤ x.session.clock →
      start + interval ≤ ticker.due + Ticker.slack → ticker.due ≤ start + interval →
      Stance interval called task x
  | ended {maxRuns : Nat} {ticker : Ticker} :
      x.session.tasks.get? task =
        some ⟨.poll interval maxRuns (some ticker) none, .ended (.ok ())⟩ →
      x.underWay = none → x.Flagged task → Stance interval called task x

/-- The polls that have ended started in time. -/
structure Record (interval called now : Nat) (polls : List Poll) : Prop where
  inTime : ∀ before a after, polls = before ++ a :: after →
    InTime interval called before a.start ∧ a.start ≤ a.finish
  finish_le : ∀ a ∈ polls, a.finish ≤ now

variable {polls : List Poll} {x y : Paced} {task : Nat}

theorem Record.mono (h : Record interval called now polls) {later : Nat} (hle : now ≤ later) :
    Record interval called later polls :=
  ⟨h.inTime, fun a ha => Nat.le_trans (h.finish_le a ha) hle⟩

theorem Record.append (h : Record interval called now polls)
    (hstart : InTime interval called polls start) (hle : start ≤ now) :
    Record interval called now (polls ++ [⟨start, now⟩]) := by
  constructor
  · intro before a after hsplit
    rcases List.eq_nil_or_concat after with rfl | ⟨rest, last, rfl⟩
    · obtain ⟨rfl, hlast⟩ := List.append_inj' hsplit rfl
      obtain rfl := List.head_eq_of_cons_eq hlast
      exact ⟨hstart, hle⟩
    · have hsplit : polls ++ [⟨start, now⟩] = (before ++ a :: rest) ++ [last] := by
        simpa using hsplit
      exact h.inTime before a rest (List.append_inj' hsplit rfl).1
  · intro a ha
    rcases List.mem_append.1 ha with ha | ha
    · exact h.finish_le a ha
    · exact Nat.le_of_eq (congrArg Poll.finish (List.mem_singleton.1 ha))

theorem awaits_tickStage {ticker : Ticker} {last : Nat} (h : now ≤ last) (number : Nat) :
    Awaits ticker.due now last (Session.tickStage ticker now number) := by
  unfold Session.tickStage
  split
  · next hdue => exact .ready hdue h
  · next hdue => exact .timed number (Nat.lt_of_not_le hdue)

/-! ## Turns of the loop -/

theorem session_turned (x : Paced) (task : Nat) :
    (x.turned task).session = x.session.turn task := by
  unfold turned
  dsimp only
  split <;> rfl

theorem clock_turned (x : Paced) (task : Nat) :
    (x.turned task).session.clock = x.session.clock := by
  rw [session_turned, Session.timeless_turn.clock_eq]

theorem turned_of_polling {t : Task} {asked : Bool} (h : x.session.TurnsTo task asked t)
    (ht : t.isPolling = true) : x.turned task =
      ⟨x.session.turn task, x.polls, if asked then some x.session.clock else x.underWay⟩ := by
  rw [turned, h.task_eq, Option.any_some, ht, h.asks_eq]
  rfl

theorem turned_of_not_polling {t : Task} {asked : Bool} (h : x.session.TurnsTo task asked t)
    (ht : t.isPolling = false) : x.turned task =
      ⟨x.session.turn task,
        x.polls ++ (if asked then some x.session.clock else x.underWay).toList.map
          fun start => ⟨start, x.session.clock⟩, none⟩ := by
  have htime : (x.session.turn task).clock = x.session.clock := Session.timeless_turn.clock_eq
  rw [turned, h.task_eq, Option.any_some, ht, h.asks_eq, htime]
  rfl

/-- The loop with what it has polled. -/
structure Sound (interval called task : Nat) (x : Paced) : Prop where
  record : Record interval called x.session.clock x.polls
  stance : Stance interval called task x

/-- A poll that started in time is under way, or has ended just now. -/
theorem sound_of_offered {maxRuns : Nat} {ticker : Ticker} {t : Task} {asked : Bool}
    (hrecord : Record interval called x.session.clock x.polls)
    (h : x.session.TurnsTo task asked t)
    (hoffered : Session.Offered interval maxRuns ticker x.session.clock t)
    (hstart : (if asked then some x.session.clock else x.underWay) = some start)
    (hinTime : InTime interval called x.polls start) (hle : start ≤ x.session.clock)
    (hperiod : ticker.period = interval) (hge : start + interval ≤ ticker.due + Ticker.slack)
    (hdue : ticker.due ≤ start + interval) : Sound interval called task (x.turned task) := by
  have htime : (x.session.turn task).clock = x.session.clock := Session.timeless_turn.clock_eq
  cases hoffered with
  | ended number =>
    rw [turned_of_not_polling h (Session.isPolling_tickStage ..), hstart]
    refine ⟨?_, .waiting h.task_eq hperiod (nextDue_append.2 ⟨hge, hdue⟩) ?_ rfl⟩
    · rw [htime]
      exact hrecord.append hinTime hle
    · rw [htime]
      refine awaits_tickStage ?_ number
      show _ ≤ latest interval called (x.polls ++ [⟨start, x.session.clock⟩])
      rw [latest_append]
      exact Nat.le_max_right _ _
  | goesOn hpolls =>
    rw [turned_of_polling h hpolls.isPolling, hstart]
    exact ⟨htime ▸ hrecord,
      .polling h.task_eq hpolls hperiod rfl hinTime (htime ▸ hle) hge hdue⟩

/-- A turn between polls in which none starts. -/
theorem turned_of_idle {t : Task} (h : x.session.TurnsTo task false t) (ht : t.isPolling = false)
    (hunderWay : x.underWay = none) :
    x.turned task = ⟨x.session.turn task, x.polls, none⟩ := by
  rw [turned_of_not_polling h ht, hunderWay]
  simp

/-- A task that waits for a time or has ended has no turn. -/
theorem turnsTo_of_resting {t : Task} (ht : x.session.tasks.get? task = some t)
    (hturn : x.session.turn task = x.session) : x.session.TurnsTo task false t :=
  ⟨hturn.symm ▸ ht, Session.asksListing_eq_false (by rw [hturn])⟩

theorem turned_of_resting {t : Task} (ht : x.session.tasks.get? task = some t)
    (hturn : x.session.turn task = x.session) (hpolling : t.isPolling = false)
    (hunderWay : x.underWay = none) : x.turned task = x := by
  rw [turned_of_idle (turnsTo_of_resting ht hturn) hpolling hunderWay, hturn, ← hunderWay]

theorem Sound.turned (hinterval : 0 < interval) (h : Sound interval called task x) :
    Sound interval called task (x.turned task) := by
  have htime : Session.Timeless x.session (x.session.turn task) := Session.timeless_turn
  have hrecord : Record interval called (x.session.turn task).clock x.polls :=
    htime.clock_eq ▸ h.record
  cases h.stance with
  | fresh ht hclock hpolls hunderWay =>
    obtain ⟨number, hturn⟩ := Session.turnsTo_first hinterval ht rfl
    rw [turned_of_idle hturn (Session.isPolling_tickStage ..) hunderWay]
    refine ⟨hrecord, .waiting hturn.task_eq rfl ?_ ?_ rfl⟩
    · simp [NextDue, hpolls, hclock]
    · rw [htime.clock_eq]
      refine awaits_tickStage ?_ number
      simp [latest, hpolls, hclock]
  | @waiting _ ticker _ ht hperiod hdue hstage hunderWay =>
    cases hstage with
    | ready hle hlatest =>
      by_cases hflag : x.Flagged task
      · have hturn := Session.turnsTo_end hflag ht
        rw [turned_of_idle hturn rfl hunderWay]
        refine ⟨hrecord, .ended hturn.task_eq rfl ?_⟩
        rwa [Flagged, htime.shutdown_eq]
      · obtain ⟨t, hoffered, hturn⟩ := Session.turnsTo_tick (Bool.eq_false_iff.2 hflag) ht
        have hinTime := hdue.inTime hle hlatest h.record.finish_le
        refine sound_of_offered h.record hturn hoffered rfl hinTime (Nat.le_refl _) hperiod ?_ ?_
        · exact hperiod ▸ ticker.due_tick_ge x.session.clock
        · unfold Ticker.tick
          dsimp only
          split <;> omega
    | timed number hlt =>
      rw [turned_of_resting ht (by rw [Session.turn, ht]) rfl hunderWay]
      exact h
  | polling ht hpolls hperiod hunderWay hstart hle hge hdue =>
    obtain ⟨t, hoffered, hturn⟩ := Session.turnsTo_poll ht hpolls
    exact sound_of_offered h.record hturn hoffered hunderWay hstart hle hperiod hge hdue
  | ended ht hunderWay hflag =>
    rw [turned_of_resting ht (by rw [Session.turn, ht]) rfl hunderWay]
    exact h

/-! ## Every step -/

/-- What leaves the loop alone leaves it where it stands. -/
theorem Stance.of_task_eq (h : Stance interval called task x) {session : Session}
    (htask : session.tasks.get? task = x.session.tasks.get? task)
    (hclock : session.clock = x.session.clock)
    (hflag : x.Flagged task → Flagged { x with session } task) :
    Stance interval called task { x with session } := by
  cases h with
  | fresh ht hcalled hpolls hunderWay =>
    exact .fresh (htask.trans ht) (hclock.trans hcalled) hpolls hunderWay
  | waiting ht hperiod hdue hstage hunderWay =>
    exact .waiting (htask.trans ht) hperiod hdue (hclock ▸ hstage) hunderWay
  | polling ht hpolls hperiod hunderWay hstart hle hge hdue =>
    exact .polling (htask.trans ht) hpolls hperiod hunderWay hstart (hclock ▸ hle) hge hdue
  | ended ht hunderWay hflagged => exact .ended (htask.trans ht) hunderWay (hflag hflagged)

theorem Stance.not_runsLoop (h : Stance interval called task x) : ¬ x.session.RunsLoop task := by
  cases h with
  | fresh ht | waiting ht | ended ht => exact Session.not_runsLoop_of_poll (Session.job?_of_get? ht)
  | polling ht hpolls =>
    cases hpolls <;> exact Session.not_runsLoop_of_poll (Session.job?_of_get? ht)

/-- Time passes up to the next tick at most. -/
theorem Stance.pass (h : Stance interval called task x) (hnow : x.session.clock ≤ now)
    (hpass : x.session.mayPass task now = true) :
    Stance interval called task { x with session := x.session.setClock now } := by
  have htask := Session.get?_setClock (s := x.session) now task
  cases h with
  | fresh ht _ _ _ =>
    rw [Session.mayPass, ht] at hpass
    cases hpass
  | waiting ht hperiod hdue hstage hunderWay =>
    rw [Session.mayPass, ht] at hpass
    rw [ht] at htask
    cases hstage with
    | ready _ _ => cases hpass
    | timed number _ =>
      have hnow : now ≤ _ := of_decide_eq_true hpass
      refine .waiting htask hperiod hdue ?_ hunderWay
      rw [Session.clock_setClock, Stage.atTime]
      split
      · next hle => exact .ready hle (Nat.le_trans hnow hdue.le_latest)
      · next hlt => exact .timed number (Nat.lt_of_not_le hlt)
  | polling ht hpolls hperiod hunderWay hstart hle hge hdue =>
    rw [ht, Option.map_some, hpolls.atTime] at htask
    refine .polling htask hpolls hperiod hunderWay hstart ?_ hge hdue
    rw [Session.clock_setClock]
    exact Nat.le_trans hle hnow
  | ended ht hunderWay hflag =>
    rw [ht] at htask
    refine .ended htask hunderWay ?_
    rwa [Flagged, Session.shutdown_setClock]

theorem Sound.of_spares (h : Sound interval called task x) {session : Session}
    (hspares : x.session.Spares task session) :
    Sound interval called task { x with session } :=
  ⟨hspares.clock_eq ▸ h.record, h.stance.of_task_eq hspares.task_eq hspares.clock_eq
    fun hflag => hspares.flag_eq.trans hflag⟩

theorem Sound.of_step (hinterval : 0 < interval) (h : Sound interval called task x)
    (hstep : Step task x y) : Sound interval called task y := by
  cases hstep with
  | turn => exact h.turned hinterval
  | otherTurn hne =>
    exact h.of_spares (Session.leaves_turn (Ne.symm hne) h.stance.not_runsLoop).spares
  | pass hnow hpass =>
    refine ⟨?_, h.stance.pass hnow hpass⟩
    rw [Session.clock_setClock]
    exact h.record.mono hnow
  | flag =>
    refine ⟨h.record, h.stance.of_task_eq rfl rfl fun _ => ?_⟩
    simp [Flagged]
  | others hspares => exact h.of_spares hspares

theorem Sound.of_steps (hinterval : 0 < interval) (h : Sound interval called task x)
    (hsteps : Steps task x y) : Sound interval called task y := by
  induction hsteps with
  | refl => exact h
  | tail _ hstep ih => exact ih.of_step hinterval hstep

theorem sound_begin (s : Session) (interval maxRuns : Nat) :
    Sound interval s.clock s.tasks.size (begin s interval maxRuns) := by
  have ht : (begin s interval maxRuns).session.tasks.get? s.tasks.size =
      some ⟨.poll interval maxRuns none none, .ready⟩ := Table.get?_set_self _ _ _
  refine ⟨⟨fun before a after h => ?_, fun a ha => ?_⟩, .fresh ht rfl rfl rfl⟩
  · exact absurd (h.symm ▸ List.mem_append_right before List.mem_cons_self) List.not_mem_nil
  · exact absurd ha List.not_mem_nil

/-! ## When the loop was told to end -/

theorem starts_turned {t : Task} {asked : Bool} (h : x.session.TurnsTo task asked t) :
    (x.turned task).starts =
      x.polls.map Poll.start ++ (if asked then some x.session.clock else x.underWay).toList := by
  cases ht : t.isPolling with
  | true => rw [turned_of_polling h ht, starts]
  | false =>
    rw [turned_of_not_polling h ht]
    simp [starts, Function.comp_def]

/-- A loop that was told to end asks for no listing. -/
theorem Stance.turnsTo_of_flagged (hinterval : 0 < interval) (h : Stance interval called task x)
    (hflag : x.Flagged task) : ∃ t, x.session.TurnsTo task false t := by
  cases h with
  | fresh ht _ _ _ =>
    obtain ⟨number, hturn⟩ := Session.turnsTo_first hinterval ht rfl
    exact ⟨_, hturn⟩
  | waiting ht _ _ hstage _ =>
    cases hstage with
    | ready _ _ => exact ⟨_, Session.turnsTo_end hflag ht⟩
    | timed number _ => exact ⟨_, turnsTo_of_resting ht (by rw [Session.turn, ht])⟩
  | polling ht hpolls _ _ _ _ _ _ =>
    obtain ⟨t, -, hturn⟩ := Session.turnsTo_poll ht hpolls
    exact ⟨t, hturn⟩
  | ended ht _ _ => exact ⟨_, turnsTo_of_resting ht (by rw [Session.turn, ht])⟩

/-- Once the loop was told to end no poll starts. -/
theorem Sound.starts_of_step (hinterval : 0 < interval) (h : Sound interval called task x)
    (hflag : x.Flagged task) (hstep : Step task x y) : y.Flagged task ∧ y.starts = x.starts := by
  cases hstep with
  | turn =>
    obtain ⟨t, hturn⟩ := h.stance.turnsTo_of_flagged hinterval hflag
    refine ⟨?_, starts_turned hturn⟩
    rwa [Flagged, session_turned, Session.timeless_turn.shutdown_eq]
  | otherTurn _ =>
    exact ⟨by rwa [Flagged, Session.timeless_turn.shutdown_eq], rfl⟩
  | pass _ _ => exact ⟨by rwa [Flagged, Session.shutdown_setClock], rfl⟩
  | flag => exact ⟨by simp [Flagged], rfl⟩
  | others hspares => exact ⟨hspares.flag_eq.trans hflag, rfl⟩

theorem Sound.starts_of_steps (hinterval : 0 < interval) (h : Sound interval called task x)
    (hflag : x.Flagged task) (hsteps : Steps task x y) :
    y.Flagged task ∧ y.starts = x.starts := by
  induction hsteps with
  | refl => exact ⟨hflag, rfl⟩
  | tail hsteps hstep ih =>
    obtain ⟨hflag', hstarts⟩ := (h.of_steps hinterval hsteps).starts_of_step hinterval ih.1 hstep
    exact ⟨hflag', hstarts.trans ih.2⟩

/-! ## Ticks -/

/-- The loop is at a tick: its next turn starts a poll, or ends the loop. -/
def AtTick (x : Paced) (task : Nat) : Prop :=
  ∃ interval maxRuns ticker,
    x.session.tasks.get? task = some ⟨.poll interval maxRuns (some ticker) none, .ready⟩

theorem isOver_turned (h : x.AtTick task) (hflag : x.Flagged task) :
    (x.turned task).IsOver task := by
  obtain ⟨interval, maxRuns, ticker, ht⟩ := h
  have hturn := (Session.turnsTo_end hflag ht).task_eq
  rw [← session_turned] at hturn
  exact ⟨_, hturn⟩

theorem starts_turned_of_tick (h : Sound interval called task x) (htick : x.AtTick task)
    (hflag : ¬ x.Flagged task) : (x.turned task).starts = x.starts ++ [x.session.clock] := by
  obtain ⟨interval, maxRuns, ticker, ht⟩ := htick
  obtain ⟨t, -, hturn⟩ := Session.turnsTo_tick (Bool.eq_false_iff.2 hflag) ht
  have hunderWay : x.underWay = none := by
    cases h.stance with
    | fresh _ _ _ hunderWay | waiting _ _ _ _ hunderWay | ended _ hunderWay _ => exact hunderWay
    | polling ht' hpolls _ _ _ _ _ _ =>
      obtain rfl := Option.some.inj (ht.symm.trans ht')
      exact absurd rfl hpolls.stage_ne_ready
  rw [starts_turned hturn, starts, hunderWay]
  simp

/-- A loop that waits comes to its next tick as time passes. -/
theorem exists_tick_of_awaits {maxRuns last : Nat} {ticker : Ticker} {stage : Stage}
    (ht : x.session.tasks.get? task = some ⟨.poll interval maxRuns (some ticker) none, stage⟩)
    (hstage : Awaits ticker.due x.session.clock last stage) :
    ∃ y, Steps task x y ∧ y.AtTick task ∧ y.starts = x.starts ∧
      y.session.shutdown = x.session.shutdown := by
  cases hstage with
  | ready _ _ => exact ⟨x, .refl, ⟨_, _, _, ht⟩, rfl, rfl⟩
  | timed number hlt =>
    have hpass : x.session.mayPass task ticker.due = true := by
      rw [Session.mayPass, ht]
      exact decide_eq_true (Nat.le_refl _)
    refine ⟨_, .single (.pass x (Nat.le_of_lt hlt) hpass), ⟨interval, maxRuns, ticker, ?_⟩, rfl,
      Session.shutdown_setClock _⟩
    rw [Session.get?_setClock, ht, Option.map_some, Stage.atTime, if_pos (Nat.le_refl _)]

/-- Between polls the next tick comes: the loop has its first turn, if that is yet to come, and time
passes until the tick is due. -/
theorem Sound.exists_tick (hinterval : 0 < interval) (h : Sound interval called task x)
    (hunderWay : x.underWay = none) (hover : ¬ x.IsOver task) :
    ∃ y, Steps task x y ∧ y.AtTick task ∧ y.starts = x.starts ∧
      y.session.shutdown = x.session.shutdown := by
  cases h.stance with
  | fresh ht _ _ _ =>
    obtain ⟨ticker, hticker⟩ : ∃ ticker : Ticker, ticker = ⟨interval, x.session.clock + interval⟩ :=
      ⟨_, rfl⟩
    obtain ⟨number, hturn⟩ := Session.turnsTo_first hinterval ht hticker
    have ht := hturn.task_eq
    have hstage : Awaits ticker.due _ _ _ := awaits_tickStage (Nat.le_refl x.session.clock) number
    rw [← session_turned] at ht
    rw [← clock_turned x task] at ht hstage
    obtain ⟨y, hsteps, htick, hstarts, hshutdown⟩ := exists_tick_of_awaits ht hstage
    refine ⟨y, .head (.turn x) hsteps, htick, hstarts.trans (starts_turned hturn), ?_⟩
    rw [hshutdown, session_turned, Session.timeless_turn.shutdown_eq]
  | waiting ht _ _ hstage _ => exact exists_tick_of_awaits ht hstage
  | polling _ _ _ hstart _ _ _ _ => cases hstart.symm.trans hunderWay
  | ended ht _ _ => exact absurd ⟨_, ht⟩ hover

/-! ## The pace -/

/-- A loop that keeps its pace. -/
structure OnPace (interval called task : Nat) (x : Paced) : Prop where
  /-- Every poll that has ended started in time. -/
  polls : ∀ before a after, x.polls = before ++ a :: after →
    InTime interval called before a.start ∧ a.start ≤ a.finish
  /-- So did the one that is under way. -/
  underWay : ∀ start, x.underWay = some start →
    InTime interval called x.polls start ∧ start ≤ x.session.clock
  /-- Between polls it is not too late for the next one, unless the loop was told to end and has. -/
  idle : x.underWay = none →
    x.session.clock ≤ latest interval called x.polls ∨ x.Flagged task ∧ x.IsOver task
  /-- The next tick can come, whatever others do in the meantime. -/
  next : x.underWay = none → ¬ x.IsOver task → ∃ y, Steps task x y ∧ y.AtTick task ∧
    y.starts = x.starts ∧ (y.Flagged task ↔ x.Flagged task)
  /-- At a tick a poll starts. -/
  tick : x.AtTick task → ¬ x.Flagged task →
    (x.turned task).starts = x.starts ++ [x.session.clock]
  /-- If the loop was told to end, it ends at its next tick. -/
  ends : x.AtTick task → x.Flagged task → (x.turned task).IsOver task
  /-- Once the loop was told to end no poll starts. -/
  flagged : x.Flagged task → ∀ y, Steps task x y → y.starts = x.starts

/-- A loop that polls keeps its pace, whatever else goes on, however long its polls take and
whenever it is told to end: the first poll starts one period after the loop was called, and every
other one a period after the one before it, less the slack, at the earliest, not before that has
ended, and at the latest when both is so. Once the loop was told to end no poll starts, and the loop
ends at its next tick. -/
theorem keeps_pace (s : Session) (interval maxRuns : Nat) (hinterval : 0 < interval) {x : Paced}
    (h : Steps s.tasks.size (begin s interval maxRuns) x) :
    OnPace interval s.clock s.tasks.size x := by
  have hx := (sound_begin s interval maxRuns).of_steps hinterval h
  refine ⟨hx.record.inTime, fun start hstart => ?_, fun hunderWay => ?_,
    fun hunderWay hover => ?_, starts_turned_of_tick hx, isOver_turned,
    fun hflag y hy => (hx.starts_of_steps hinterval hflag hy).2⟩
  · cases hx.stance with
    | fresh _ _ _ hnone | waiting _ _ _ _ hnone | ended _ hnone _ => cases hnone.symm.trans hstart
    | polling _ _ _ hunderWay hinTime hle _ _ =>
      obtain rfl := Option.some.inj (hunderWay.symm.trans hstart)
      exact ⟨hinTime, hle⟩
  · cases hx.stance with
    | fresh _ hclock hpolls _ =>
      refine .inl ?_
      simp [latest, hpolls, hclock]
    | waiting _ _ hdue hstage _ =>
      cases hstage with
      | ready _ hlatest => exact .inl hlatest
      | timed number hlt => exact .inl (Nat.le_trans (Nat.le_of_lt hlt) hdue.le_latest)
    | polling _ _ _ hstart _ _ _ _ => cases hstart.symm.trans hunderWay
    | ended ht _ hflag => exact .inr ⟨hflag, _, ht⟩
  · obtain ⟨y, hsteps, htick, hstarts, hshutdown⟩ := hx.exists_tick hinterval hunderWay hover
    exact ⟨y, hsteps, htick, hstarts, by rw [Flagged, Flagged, hshutdown]⟩

/-- The first poll waits so long for a report that the second one starts when it ends. The third one
starts a period later and waits for the listing. Then the loop is told to end. -/
theorem keeps_pace_after_long_poll :
    let listing (s : Session) : Session := { s with
      listing := [{ Run.blank with id := 1 }], reports := Table.empty.set 1 ⟨[], .null⟩ }
    ∃ s x, Session.create Hash.hashText 1 .empty = .ok s ∧
      Steps 0 (begin (listing s) 1000 1) x ∧
      x.polls = [⟨1000, 2600⟩, ⟨2600, 2600⟩, ⟨3600, 4100⟩] ∧ x.Flagged 0 ∧ x.underWay = none ∧
      OnPace 1000 0 0 x := by
  intro listing
  let s : Session := (Session.create Hash.hashText 1 .empty).toOption.get rfl
  let pass (x : Paced) (now : Nat) : Paced := { x with session := x.session.setClock now }
  let x₁ := pass ((begin (listing s) 1000 1).turned 0) 1000
  let x₂ := pass (x₁.turned 0) 2600
  let x₃ := pass ((x₂.turned 0).turned 0) 3600
  let x₄ := { x₃ with session := { x₃.session with listingHeld := true } }
  let x₅ := pass (x₄.turned 0) 4100
  let x₆ := { x₅ with session := x₅.session.releaseListing }.turned 0
  let x₇ := { x₆ with session := { x₆.session with shutdown := 0 :: x₆.session.shutdown } }
  have h₁ : Steps 0 (begin (listing s) 1000 1) x₁ :=
    .tail (.single (.turn _)) (.pass _ (by decide +kernel) (by decide +kernel))
  have h₂ : Steps 0 x₁ x₂ :=
    .tail (.single (.turn _)) (.pass _ (by decide +kernel) (by decide +kernel))
  have h₃ : Steps 0 x₂ x₃ :=
    .tail (.tail (.single (.turn _)) (.turn _)) (.pass _ (by decide +kernel) (by decide +kernel))
  have hheld : Step 0 x₃ x₄ := .others _ ⟨rfl, rfl, rfl⟩
  have h₅ : Steps 0 x₄ x₅ :=
    .tail (.single (.turn _)) (.pass _ (by decide +kernel) (by decide +kernel))
  have hreleased : Step 0 x₅ { x₅ with session := x₅.session.releaseListing } :=
    .others _ ⟨rfl, rfl, rfl⟩
  have h₇ := h₅.trans (.tail (.tail (.single hreleased) (.turn _)) (.flag _))
  have hsteps := h₁.trans (h₂.trans (h₃.trans (.head hheld h₇)))
  have hpolls : x₇.polls = [⟨1000, 2600⟩, ⟨2600, 2600⟩, ⟨3600, 4100⟩] ∧ x₇.underWay = none := by
    decide +kernel
  exact ⟨s, x₇, rfl, hsteps, hpolls.1, by simp [Flagged, x₇], hpolls.2,
    keeps_pace (listing s) 1000 1 (by decide) hsteps⟩

end Paced

end ResultSearch
