import ResultSearch.Proofs.Session.Running
import ResultSearch.Proofs.Session.Watching

/-!
# How filling leaves the monitor

Filling begins a task that is to run the monitor, and goes on without it. The task begins to run the
monitor in its first turn, and nothing says that it has had that when filling is over: with no runs
to fill in, or with reports that are there at once, filling returns before.

* `Launch`, `Step`: filling with the task that it has begun, and whatever others do in the meantime.
* `Started`, `Started.of_deed`: what the task may have come to as long as nobody stops the monitor.
* `Left`, `left_of_returned`: how filling leaves the monitor and the task.
* `not_running_of_fill_at_once`: filling that is over before the first turn of the task.
* `steps_of_fill`: filling as a session runs is made of such steps.
-/

namespace ResultSearch

open Session

variable {s s' : Session} {k task generation launched : Nat} {w : Watch}

/-! ## What a task may have come to -/

namespace Session

/-- A task is about to end because a monitor was stopped, or has ended, and stays so whatever is
done. -/
def Resolves (task : Nat) (s : Session) : Prop :=
  ∀ s', Deeds s s' → s'.outcome? task = some (.error (.monitor .stopped)) ∨
    s'.outcome? task = none ∧ (s'.turn task).outcome? task = some (.error (.monitor .stopped))

/-- A task runs a monitor: it can be stopped, and the task ends once it is. -/
structure Keeps (k task : Nat) (w : Watch) (s : Session) : Prop where
  running : w.monitor.running = true
  outcome : s.outcome? task = none
  stop : ∃ s', s.stopMonitor k w = .ok s'
  resolves : ∀ s', s.stopMonitor k w = .ok s' → Resolves task s'

theorem outcome?_of_get? {t : Task} (h : s.tasks.get? task = some t) :
    s.outcome? task = match t.stage with
      | .ended outcome => some outcome
      | _ => none := by
  rw [outcome?, h, Option.map_some]
  cases t.stage <;> rfl

theorem Over.resolves (h : Over k task generation s) : Resolves task s := by
  intro s' hdeeds
  obtain ⟨hs, m, loop, -, hover, hruns | hended⟩ := h.of_deeds hdeeds
  · obtain ⟨m', -, -, hended⟩ := hruns.ends hs hover
    exact .inr ⟨outcome?_of_get? hruns.task_eq, outcome?_of_get? hended⟩
  · exact .inl (outcome?_of_get? hended)

theorem stopMonitor_of_running (h : w.monitor.running = true) :
    ∃ s', s.stopMonitor k w = .ok s' := by
  rw [stopMonitor, Monitor.stop, h]
  exact ⟨_, rfl⟩

theorem stopMonitor_of_stopped (h : w.monitor.running = false) :
    s.stopMonitor k w = .error .stopped := by
  rw [stopMonitor, Monitor.stop_of_not_running h]
  rfl

theorem Watching.keeps (h : Watching k task generation launched s) (hw : s.watch? k = some w)
    (hgeneration : w.monitor.generation = generation) : Keeps k task w s := by
  obtain ⟨hs, m, hm, -, hruns⟩ := h
  obtain rfl := Option.some.inj (hm.symm.trans (monitor?_of_watch? hw))
  obtain ⟨hrunning, loop, stage, hruns, hstage⟩ := hruns hgeneration
  refine ⟨hrunning, ?_, stopMonitor_of_running hrunning, fun s' hstop =>
    (hruns.over_of_stop hs hstage hgeneration hw hstop).resolves⟩
  rw [outcome?_of_get? hruns.task_eq]
  cases stage with
  | ready | timed => rfl
  | loading | gated | listing | ended => cases hstage

/-- What a task that is to run a monitor may have come to as long as the monitor was not stopped. -/
inductive Standing (k task generation : Nat) (m : Monitor) (s : Session) : Prop
  /-- It has yet to have its first turn. -/
  | awaiting : s.tasks.get? task = some ⟨.watch k none, .ready⟩ → Standing k task generation m s
  | begun {loop : Nat} {stage : Stage} : m.running = true → Runs k task generation loop stage m s →
      stage.isWaiting = true → Standing k task generation m s
  /-- Another task runs the monitor. -/
  | refused : m.running = true →
      s.tasks.get? task = some ⟨.watch k none, .ended (.error (.monitor .running))⟩ →
      Standing k task generation m s

/-- Since a monitor was not running, a task was begun that is to run it. -/
structure Started (k task generation launched : Nat) (s : Session) : Prop where
  orderly : Orderly k s
  standing : ∃ m, s.monitor? k = some m ∧ m.Since generation launched ∧
    (m.generation = generation → Standing k task generation m s)

theorem Watching.started (h : Watching k task generation launched s) :
    Started k task generation launched s := by
  obtain ⟨hs, m, hm, hsince, hruns⟩ := h
  refine ⟨hs, m, hm, hsince, fun hgeneration => ?_⟩
  obtain ⟨hrunning, loop, stage, hruns, hstage⟩ := hruns hgeneration
  exact .begun hrunning hruns hstage

/-- In its first turn a task begins to run a monitor, unless another one does. -/
theorem started_of_first_turn {m : Monitor} (hs : Orderly k s)
    (ht : s.tasks.get? task = some ⟨.watch k none, .ready⟩) (hm : s.monitor? k = some m)
    (hsince : m.Since generation launched) (hgeneration : m.generation = generation) :
    Started k task generation launched (s.turn task) := by
  cases hrunning : m.running with
  | false => exact (watching_of_first_turn hs ht hm hsince hgeneration hrunning).started
  | true =>
    obtain ⟨w, hw, rfl⟩ := watch?_of_monitor? hm
    have hturn : s.turn task = s.finish task (.error (.monitor .running)) := by
      have hstarts : s.turn task = s.turnStart task k := turn_eq_turnJob ht
      rw [hstarts, turnStart, hw]
      dsimp only
      rw [Monitor.start, hrunning]
      rfl
    refine ⟨hs.of_passages effects_turn.passages, w.monitor, ?_, hsince, fun _ =>
      .refused hrunning ?_⟩
    · rw [hturn]
      exact (monitor?_congr (watches_updateTask _ _ _)).trans hm
    · rw [hturn, finish, setStage, get?_updateTask, if_pos rfl, ht]
      rfl

theorem Started.of_deed (h : Started k task generation launched s) (hdeed : Deed s s') :
    Started k task generation launched s' := by
  obtain ⟨hs, m, hm, hsince, hstanding⟩ := id h
  obtain ⟨acts, hpassages, -⟩ := hdeed.passages hs
  have hs' := hs.of_passages hpassages
  by_cases hgeneration : m.generation = generation
  · cases hstanding hgeneration with
    | awaiting ht =>
      rcases hdeed.cases hs (job?_of_get? ht) with rfl | hasides
      · exact started_of_first_turn hs ht hm hsince hgeneration
      · obtain ⟨m', hm', hsince'⟩ :=
          hs.monitor_of_passages hasides (fun _ _ h hchange => h.of_change hchange) hm hsince
        exact ⟨hs', m', hm', hsince', fun _ => .awaiting (get?_of_asides hasides ht (by simp))⟩
    | begun hrunning hruns hstage =>
      have hwatching : Watching k task generation launched s :=
        ⟨hs, m, hm, hsince, fun _ => ⟨hrunning, _, _, hruns, hstage⟩⟩
      exact (hwatching.of_deed hdeed).started
    | refused hrunning ht =>
      have hkept : ∀ m m' : Monitor, m.Since generation launched ∧ launched < m.launched →
          m.LoopChange m' → m'.Since generation launched ∧ launched < m'.launched := by
        rintro m m' ⟨hsince, hlt⟩ hchange
        exact ⟨hsince.of_change hchange, Nat.lt_of_lt_of_le hlt hchange.launched_le⟩
      obtain ⟨m', hm', hsince', hlt⟩ := hs.monitor_of_passages hpassages hkept hm
        ⟨hsince, (hsince.running_iff hgeneration).1 hrunning⟩
      refine ⟨hs', m', hm', hsince', fun hgeneration' =>
        .refused ((hsince'.running_iff hgeneration').2 hlt) ?_⟩
      rcases hdeed.cases hs (job?_of_get? ht) with rfl | hasides
      · rw [turn, ht]
        exact ht
      · exact get?_of_asides hasides ht (by simp)
  · obtain ⟨m', hm', hsince', hother⟩ := hs.since_of_stopped hpassages hm hsince hgeneration
    exact ⟨hs', m', hm', hsince', fun heq => absurd heq hother⟩

theorem Started.of_deeds (h : Started k task generation launched s) (hdeeds : Deeds s s') :
    Started k task generation launched s' := by
  induction hdeeds with
  | refl => exact h
  | tail _ hdeed ih => exact ih.of_deed hdeed

/-- A new task that is to run a monitor has yet to have its first turn. -/
theorem started_of_spawn {m : Monitor} (hs : Orderly k s) (hm : s.monitor? k = some m)
    (hsince : m.Since generation launched) :
    Started k s.tasks.size generation launched (s.spawn (.watch k none)).2 :=
  ⟨hs.of_deed (.spawn (by simp)), m, hm, hsince, fun _ => .awaiting (Table.get?_set_self _ _ _)⟩

/-! ## How filling leaves the monitor -/

/-- How a monitor that was not running is left if nobody stopped it, and the task that is to run
it. -/
inductive Left (k task launched : Nat) (w : Watch) (s : Session) : Prop
  /-- The task has yet to have its first turn. If the monitor was not started by others it does not
  run and cannot be stopped, until the task has its turn. -/
  | awaiting : s.job? task = some (.watch k none) → s.outcome? task = none →
      (w.monitor.running = true ↔ launched < w.monitor.launched) →
      (w.monitor.running = false → s.stopMonitor k w = .error .stopped ∧
        ∀ w', (s.turn task).watch? k = some w' → w'.monitor.generation = w.monitor.generation →
          Keeps k task w' (s.turn task)) → Left k task launched w s
  | kept : Keeps k task w s → Left k task launched w s
  /-- Others had started the monitor. -/
  | refused : w.monitor.running = true → (∃ s', s.stopMonitor k w = .ok s') →
      s.outcome? task = some (.error (.monitor .running)) → Left k task launched w s

theorem Started.left (h : Started k task generation launched s) (hw : s.watch? k = some w)
    (hgeneration : w.monitor.generation = generation) : Left k task launched w s := by
  obtain ⟨hs, m, hm, hsince, hstanding⟩ := h
  obtain rfl := Option.some.inj (hm.symm.trans (monitor?_of_watch? hw))
  cases hstanding hgeneration with
  | awaiting ht =>
    refine .awaiting (job?_of_get? ht) (outcome?_of_get? ht) (hsince.running_iff hgeneration)
      fun hstopped => ⟨stopMonitor_of_stopped hstopped, fun w' hw' hgeneration' => ?_⟩
    have hwatching := watching_of_first_turn hs ht hm hsince hgeneration hstopped
    exact hwatching.keeps hw' (hgeneration'.trans hgeneration)
  | begun hrunning hruns hstage =>
    have hwatching : Watching k task generation launched s :=
      ⟨hs, _, hm, hsince, fun _ => ⟨hrunning, _, _, hruns, hstage⟩⟩
    exact .kept (hwatching.keeps hw hgeneration)
  | refused hrunning ht =>
    exact .refused hrunning (stopMonitor_of_running hrunning) (outcome?_of_get? ht)

end Session

/-- Filling, and the task that it has begun to run the monitor. -/
structure Launch where
  filling : Filling
  task : Option Nat

namespace Launch

/-- Before filling begins. -/
def ofSession (s : Session) (monitor : Nat) (answer : Except Error (List Run)) : Launch :=
  ⟨.ofSession s monitor answer, none⟩

/-- The session in which the index is filled. -/
abbrev session (x : Launch) : Session := x.filling.session

/-- A step of filling, or what others do, before filling is over or after that. -/
inductive Step (x : Launch) : Launch → Prop
  /-- If runs are fetched a task begins that is to run the monitor. -/
  | fetch {f : Filling} : x.filling.step .fetch = some f →
      Step x ⟨f, x.filling.answer.toOption.map fun _ => x.session.tasks.size⟩
  | next {f : Filling} : x.filling.step .next = some f → Step x { x with filling := f }
  | finish {f : Filling} (loaded : Loaded) : x.filling.step (.finish loaded) = some f →
      Step x { x with filling := f }
  | deed {s : Session} : Deed x.session s →
      Step x { x with filling := { x.filling with session := s } }

/-- Any number of steps. -/
abbrev Steps : Launch → Launch → Prop := Relation.ReflTransGen Step

variable {x y : Launch}

theorem monitor?_lowerFlag (flag monitor : Nat) :
    (s.lowerFlag flag monitor).monitor? k = s.monitor? k := by
  rw [monitor?, monitor?, watch?_lowerFlag]
  split
  · next hk =>
    rw [hk, Option.map_map]
    rfl
  · rfl

theorem monitor?_raiseFlag {monitor : Nat} (hw : s.watch? monitor = some w) (flag : Nat)
    (b : Backfill) : (s.raiseFlag flag monitor w b).monitor? k = s.monitor? k := by
  show (Table.get? _ k).map _ = _
  rw [raiseFlag, Table.get?_set]
  split
  · next hk =>
    rw [hk, monitor?, hw]
    rfl
  · rfl

theorem nextFill_frame {flag : Nat} {move : FillMove} (h : s.nextFill flag = some (move, s')) :
    s'.watches = s.watches ∧ s'.tasks = s.tasks := by
  obtain ⟨b, -, h⟩ := Option.bind_eq_some_iff.1 h
  split at h
  · obtain ⟨-, rfl⟩ := Prod.mk.inj (Option.some.inj h)
    exact ⟨rfl, rfl⟩
  · split at h
    all_goals
      obtain ⟨-, rfl⟩ := Prod.mk.inj (Option.some.inj h)
      exact ⟨rfl, rfl⟩

theorem recordFill_frame (flag : Nat) (outcome : Except Error Unit) :
    (s.recordFill flag outcome).watches = s.watches ∧
      (s.recordFill flag outcome).tasks = s.tasks := by
  obtain ⟨backfills, hupdated⟩ := s.exists_updateFill flag fun b => b.record outcome
  rw [recordFill, hupdated]
  exact ⟨rfl, rfl⟩

theorem deeds_of_frame (h : s'.watches = s.watches ∧ s'.tasks = s.tasks) : Deeds s s' :=
  .single (.others (fun _ => monitor?_congr h.1) h.2)

theorem deeds_lowerFlag (flag monitor : Nat) : Deeds s (s.lowerFlag flag monitor) :=
  .single (.others (fun _ => monitor?_lowerFlag flag monitor) rfl)

/-! ## What a step comes to -/

theorem step_fetch {f f' : Filling} (h : f.step .fetch = some f') :
    f'.monitor = f.monitor ∧ (f'.session = f.session ∧ f'.phase.hasFetched = false ∨
      ∃ w runs, f.answer = .ok runs ∧ f.session.watch? f.monitor = some w ∧
        f'.session = f.session.beginFill f.session.freshFlag f.monitor w runs) := by
  rw [Filling.step] at h
  split at h
  · obtain rfl := Option.some.inj h
    exact ⟨rfl, .inl ⟨rfl, rfl⟩⟩
  · next runs _ hanswer =>
    obtain ⟨w, hw, rfl⟩ := Option.map_eq_some_iff.1 h
    exact ⟨rfl, .inr ⟨w, runs, hanswer, hw, rfl⟩⟩
  · cases h

theorem step_next {f f' : Filling} (h : f.step .next = some f') :
    f'.monitor = f.monitor ∧ f.phase.hasFetched = true ∧ Deeds f.session f'.session := by
  rw [Filling.step] at h
  split at h
  · next flag hphase _ =>
    obtain ⟨⟨move, session⟩, hmove, rfl⟩ := Option.map_eq_some_iff.1 h
    have hdeeds : Deeds f.session session := deeds_of_frame (nextFill_frame hmove)
    rw [hphase]
    cases move with
    | finished summary => exact ⟨rfl, rfl, hdeeds.trans (deeds_lowerFlag flag f.monitor)⟩
    | refused run e => exact ⟨rfl, rfl, hdeeds⟩
    | begun run => exact ⟨rfl, rfl, hdeeds⟩
  · cases h

theorem step_finish {f f' : Filling} {loaded : Loaded} (h : f.step (.finish loaded) = some f') :
    f'.monitor = f.monitor ∧ f.phase.hasFetched = true ∧ Deeds f.session f'.session := by
  rw [Filling.step] at h
  split at h
  · next run flag hphase _ =>
    obtain rfl := Option.some.inj h
    refine ⟨rfl, by rw [hphase]; rfl, ?_⟩
    have hdelivered : Deeds f.session (f.session.deliver run loaded).2 :=
      .single (.deliver run loaded)
    exact hdelivered.trans (deeds_of_frame (recordFill_frame flag _))
  · cases h

/-! ## What holds at each step -/

/-- A monitor that was not running is stopped, or not, while filling goes on, and once runs were
fetched a task was begun that is to run it. -/
structure Sound (k generation launched : Nat) (x : Launch) : Prop where
  monitor_eq : x.filling.monitor = k
  orderly : Orderly k x.session
  monitor : ∃ m, x.session.monitor? k = some m ∧ m.Since generation launched
  started : x.filling.phase.hasFetched = true → ∃ task, x.task = some task ∧
    Started k task generation launched x.session

theorem Sound.of_deeds {f : Filling} (h : Sound k generation launched x)
    (hmonitor : f.monitor = x.filling.monitor)
    (hphase : f.phase.hasFetched = true → x.filling.phase.hasFetched = true)
    (hdeeds : Deeds x.session f.session) :
    Sound k generation launched { x with filling := f } := by
  obtain ⟨m, hm, hsince⟩ := h.monitor
  refine ⟨hmonitor.trans h.monitor_eq, h.orderly.of_deeds hdeeds,
    h.orderly.since_of_deeds hdeeds hm hsince, fun hfetched => ?_⟩
  obtain ⟨task, htask, hstarted⟩ := h.started (hphase hfetched)
  exact ⟨task, htask, hstarted.of_deeds hdeeds⟩

theorem Sound.of_fetch {f : Filling} (h : Sound k generation launched x)
    (hstep : x.filling.step .fetch = some f) : Sound k generation launched
      ⟨f, x.filling.answer.toOption.map fun _ => x.session.tasks.size⟩ := by
  obtain ⟨hmonitor, ⟨hsame, hfetched⟩ | ⟨w, runs, hanswer, hw, hbegun⟩⟩ := step_fetch hstep
  · have horderly : Orderly k f.session := hsame ▸ h.orderly
    have hsince := h.monitor
    rw [session, ← hsame] at hsince
    refine ⟨hmonitor.trans h.monitor_eq, horderly, hsince, fun h => ?_⟩
    cases hfetched.symm.trans h
  · obtain ⟨m, hm, hsince⟩ := h.monitor
    have hraised : Deed x.session
        (x.session.raiseFlag x.session.freshFlag x.filling.monitor w (.ofRuns runs)) :=
      .others (fun _ => monitor?_raiseFlag hw _ _) rfl
    have hstarted : Started k x.session.tasks.size generation launched f.session := by
      rw [hbegun, h.monitor_eq]
      exact started_of_spawn (h.orderly.of_deed (h.monitor_eq ▸ hraised))
        ((monitor?_raiseFlag (h.monitor_eq ▸ hw) _ _).trans hm) hsince
    obtain ⟨m', hm', hsince', -⟩ := hstarted.standing
    exact ⟨hmonitor.trans h.monitor_eq, hstarted.orderly, ⟨m', hm', hsince'⟩, fun _ =>
      ⟨x.session.tasks.size, by rw [hanswer]; rfl, hstarted⟩⟩

theorem Sound.of_step (h : Sound k generation launched x) (hstep : Step x y) :
    Sound k generation launched y := by
  cases hstep with
  | fetch hstep => exact h.of_fetch hstep
  | next hstep =>
    obtain ⟨hmonitor, hfetched, hdeeds⟩ := step_next hstep
    exact h.of_deeds hmonitor (fun _ => hfetched) hdeeds
  | finish loaded hstep =>
    obtain ⟨hmonitor, hfetched, hdeeds⟩ := step_finish hstep
    exact h.of_deeds hmonitor (fun _ => hfetched) hdeeds
  | deed hdeed => exact h.of_deeds rfl id (.single hdeed)

theorem Sound.of_steps (h : Sound k generation launched x) (hsteps : Steps x y) :
    Sound k generation launched y := by
  induction hsteps with
  | refl => exact h
  | tail _ hstep ih => exact ih.of_step hstep

/-- A monitor that has not been started. -/
def idleMonitor : Monitor := ⟨⟨1000, 100, 0.5, 0⟩, false, 0, [], 0, [], false, 0⟩

/-- A new session with this monitor. -/
def idleSession : Session :=
  (((Session.create Hash.hashText 1 .empty).toOption.get rfl).newMonitor idleMonitor.settings).2

theorem monitor?_idleSession : idleSession.monitor? 0 = some idleMonitor := by decide +kernel

theorem deeds_idleSession :
    ∃ s₀, Session.create Hash.hashText 1 .empty = .ok s₀ ∧ Deeds s₀ idleSession := by
  have hcreate : Monitor.create idleMonitor.settings = .ok idleMonitor := by decide +kernel
  refine ⟨_, rfl, ?_⟩
  rw [idleSession, newMonitor, hcreate]
  exact .tail (.single (.create [] rfl hcreate)) (.others (fun _ => rfl) rfl)

/-- Whatever runs are filled in, however their reports are loaded and whatever others do: if the
monitor was not running before filling and nobody stops it, so that its generation goes on, then
from when filling has returned either the task that filling has begun runs the monitor, so that a
stop succeeds and the task then ends for it; or the task was refused, because others had started the
monitor; or the task has yet to have its first turn. Then a monitor that nobody else started does
not run, and a stop fails. -/
theorem left_of_returned {hash : NameHash} {shards : Nat} {binder : Binder} {s₀ s : Session}
    (hcreate : Session.create hash shards binder = .ok s₀) (hdeeds : Deeds s₀ s) {k : Nat}
    {m : Monitor} (hm : s.monitor? k = some m) (hstopped : m.running = false)
    {answer : Except Error (List Run)} {x : Launch} (hsteps : Steps (ofSession s k answer) x)
    {summary : BackfillSummary} (hreturned : x.filling.phase = .returned (.ok summary)) :
    ∃ task w, x.task = some task ∧ x.session.watch? k = some w ∧
      (w.monitor.generation = m.generation → Left k task m.launched w x.session) := by
  have hbegins : Sound k m.generation m.launched (ofSession s k answer) :=
    ⟨rfl, (orderly_create hcreate k).of_deeds hdeeds,
      ⟨m, hm, Monitor.since_of_not_running hstopped⟩, fun h => nomatch h⟩
  have hx := hbegins.of_steps hsteps
  obtain ⟨task, htask, hstarted⟩ := hx.started (by rw [hreturned]; rfl)
  obtain ⟨m', hm', -⟩ := hx.monitor
  obtain ⟨w, hw, -⟩ := watch?_of_monitor? hm'
  exact ⟨task, w, htask, hw, fun hgeneration => hstarted.left hw hgeneration⟩

/-- The task has its first turn while a report is loaded, and so the monitor runs when filling
returns. -/
theorem left_of_turn_during_load :
    ∃ s₀ x task w, Session.create Hash.hashText 1 .empty = .ok s₀ ∧ Deeds s₀ idleSession ∧
      idleMonitor.running = false ∧
      Steps (ofSession idleSession 0 (.ok [{ Run.blank with id := 1 }])) x ∧
      x.filling.phase = .returned (.ok ⟨1, 1, 0, false⟩) ∧ x.task = some task ∧
      x.session.watch? 0 = some w ∧ w.monitor.generation = idleMonitor.generation ∧
      w.monitor.running = true ∧ Left 0 task idleMonitor.launched w x.session := by
  obtain ⟨s₀, hs₀, hdeeds⟩ := deeds_idleSession
  obtain ⟨f₁, hfetch, hplay⟩ : ∃ f₁,
      (Filling.ofSession idleSession 0 (.ok [{ Run.blank with id := 1 }])).step .fetch = some f₁ ∧
      ((f₁.step .next).any fun f₂ =>
        (Filling.step { f₂ with session := f₂.session.turn 0 } (.finish (.ok ⟨[], .null⟩))).any
          fun f₃ => (f₃.step .next).any fun f => decide (
            f.phase = .returned (.ok ⟨1, 1, 0, false⟩) ∧
            (f.session.monitor? 0).map (fun m => (m.generation, m.running)) = some (0, true))) =
        true := (Option.any_eq_true _ _).1 (by decide +kernel)
  obtain ⟨f₂, hbegin, hplay⟩ := (Option.any_eq_true _ _).1 hplay
  obtain ⟨f₃, hload, hplay⟩ := (Option.any_eq_true _ _).1 hplay
  obtain ⟨f, hnext, hend⟩ := (Option.any_eq_true _ _).1 hplay
  obtain ⟨hphase, hm⟩ := of_decide_eq_true hend
  have hsteps : Steps (ofSession idleSession 0 (.ok [{ Run.blank with id := 1 }])) ⟨f, some 0⟩ :=
    .tail (.tail (.tail (.tail (.single (.fetch hfetch)) (.next hbegin)) (.deed (.turn 0)))
      (.finish _ hload)) (.next hnext)
  obtain ⟨task, w, htask, hw, hleft⟩ :=
    left_of_returned hs₀ hdeeds monitor?_idleSession rfl hsteps hphase
  have hw' : f.session.watch? 0 = some w := hw
  rw [monitor?, hw'] at hm
  obtain ⟨hgeneration, hrunning⟩ := Prod.mk.inj (Option.some.inj hm)
  exact ⟨s₀, _, task, w, hs₀, hdeeds, rfl, hsteps, hphase, htask, hw, hgeneration, hrunning,
    hleft hgeneration⟩

/-- Filling returns before the task has had a turn if there are no runs to fill in, or if the report
of the only one is there at once. Nobody has stopped the monitor, but it does not run, and a stop
fails. -/
theorem not_running_of_fill_at_once :
    ∃ s₀, Session.create Hash.hashText 1 .empty = .ok s₀ ∧ Deeds s₀ idleSession ∧
      idleSession.monitor? 0 = some idleMonitor ∧ idleMonitor.running = false ∧
      ∀ runs ∈ [[], [{ Run.blank with id := 1 }]], ∃ x summary w,
        Steps (ofSession idleSession 0 (.ok runs)) x ∧
        x.filling.phase = .returned (.ok summary) ∧ x.session.watch? 0 = some w ∧
        w.monitor.generation = idleMonitor.generation ∧ w.monitor.running = false ∧
        x.session.stopMonitor 0 w = .error .stopped := by
  have hidle {s : Session} (h : s.monitor? 0 = some idleMonitor) : ∃ w, s.watch? 0 = some w ∧
      w.monitor.generation = idleMonitor.generation ∧ w.monitor.running = false ∧
      s.stopMonitor 0 w = .error .stopped := by
    obtain ⟨w, hw, hm⟩ := watch?_of_monitor? h
    have hrunning : w.monitor.running = false := congrArg Monitor.running hm
    exact ⟨w, hw, congrArg Monitor.generation hm, hrunning, stopMonitor_of_stopped hrunning⟩
  obtain ⟨s₀, hs₀, hdeeds⟩ := deeds_idleSession
  refine ⟨s₀, hs₀, hdeeds, monitor?_idleSession, rfl, fun runs hruns => ?_⟩
  rcases List.mem_pair.1 hruns with rfl | rfl
  · obtain ⟨f₁, hfetch, hplay⟩ : ∃ f₁,
        (Filling.ofSession idleSession 0 (.ok [])).step .fetch = some f₁ ∧
        ((f₁.step .next).any fun f => decide (f.phase = .returned (.ok ⟨0, 0, 0, false⟩) ∧
          f.session.monitor? 0 = some idleMonitor)) = true :=
      (Option.any_eq_true _ _).1 (by decide +kernel)
    obtain ⟨f, hnext, hend⟩ := (Option.any_eq_true _ _).1 hplay
    obtain ⟨hphase, hm⟩ := of_decide_eq_true hend
    obtain ⟨w, hw⟩ := hidle hm
    exact ⟨_, _, w, .tail (.single (.fetch hfetch)) (.next hnext), hphase, hw⟩
  · obtain ⟨f₁, hfetch, hplay⟩ : ∃ f₁,
        (Filling.ofSession idleSession 0 (.ok [{ Run.blank with id := 1 }])).step .fetch = some f₁ ∧
        ((f₁.step .next).any fun f₂ => (f₂.step (.finish (.ok ⟨[], .null⟩))).any fun f₃ =>
          (f₃.step .next).any fun f => decide (f.phase = .returned (.ok ⟨1, 1, 0, false⟩) ∧
            f.session.monitor? 0 = some idleMonitor)) = true :=
      (Option.any_eq_true _ _).1 (by decide +kernel)
    obtain ⟨f₂, hbegin, hplay⟩ := (Option.any_eq_true _ _).1 hplay
    obtain ⟨f₃, hload, hplay⟩ := (Option.any_eq_true _ _).1 hplay
    obtain ⟨f, hnext, hend⟩ := (Option.any_eq_true _ _).1 hplay
    obtain ⟨hphase, hm⟩ := of_decide_eq_true hend
    obtain ⟨w, hw⟩ := hidle hm
    exact ⟨_, _, w, .tail (.tail (.tail (.single (.fetch hfetch)) (.next hbegin))
      (.finish _ hload)) (.next hnext), hphase, hw⟩

/-! ## Filling in a session that runs -/

theorem deeds_drain (fuel : Nat) : Deeds s (drain fuel s) := by
  induction fuel generalizing s with
  | zero => exact .refl
  | succ fuel ih =>
    rw [drain]
    split
    · exact .refl
    · next id rest _ =>
      have hqueue : Deed s { s with queue := rest } := .others (fun _ => rfl) rfl
      exact .head hqueue (.head (.turn id) ih)

theorem deeds_settle : Deeds s s.settle := by
  have hqueue : Deed s { s with queue := s.parked ++ s.queue, parked := [] } :=
    .others (fun _ => rfl) rfl
  exact .head hqueue (deeds_drain patience)

theorem deeds_hookClosed : HookClosed Deeds where
  refl _ := .refl
  trans := Relation.ReflTransGen.trans
  evictAny _ := .single .evictAny
  stop hw hstop := .single (.stop hw hstop)
  check _ settings := .single (.check settings)
  logged _ _ _ _ := .single (.others (fun _ => rfl) rfl)

/-- The runs that filling has yet to begin. -/
def toFill (flag : Nat) (s : Session) : Option (List Run) := (s.backfill? flag).map Backfill.pending

variable {flag : Nat}

theorem toFill_of_overheard (h : Overheard (some flag) s s') : toFill flag s' = toFill flag s := by
  obtain ⟨told, h⟩ := h
  have hbackfill := h.backfill
  rw [Option.bind_some, Option.bind_some] at hbackfill
  rw [toFill, toFill, hbackfill]
  split
  · rw [Option.map_map]
    rfl
  · rfl

theorem toFill_recordFill (outcome : Except Error Unit) :
    toFill flag (s.recordFill flag outcome) = toFill flag s := by
  rw [toFill, toFill, recordFill, backfill?_updateFill, if_pos rfl, Option.map_map]
  congr 1
  funext b
  cases outcome <;> rfl

/-- Filling is over, or it tries the next run. -/
theorem nextFill_cases {runs : List Run} (h : toFill flag s = some runs) :
    (∃ summary s', s.nextFill flag = some (.finished summary, s')) ∨
      ∃ r rest s', runs = r :: rest ∧ toFill flag s' = some rest ∧
        ((∃ e, s.nextFill flag = some (.refused r e, s')) ∨
          s.nextFill flag = some (.begun r, s')) := by
  obtain ⟨b, hb, rfl⟩ := Option.map_eq_some_iff.1 h
  have hset (b : Backfill) : toFill flag (s.setFill flag b) = some b.pending := by
    rw [toFill, backfill?_setFill_self, Option.map_some]
  cases hpending : b.pending with
  | nil => exact .inl ⟨_, _, nextFill_of_nil hb hpending⟩
  | cons r rest =>
    cases hflag : b.flag with
    | false => exact .inl ⟨_, _, nextFill_of_halted hb (by simp [hpending]) hflag⟩
    | true =>
      refine .inr ⟨r, rest, ?_⟩
      cases hbegin : s.index.begin r with
      | error e =>
        exact ⟨_, rfl, hset _, .inl ⟨e, nextFill_of_refused hb hpending hflag hbegin⟩⟩
      | ok index => exact ⟨_, rfl, hset _, .inr (nextFill_of_begun hb hpending hflag hbegin)⟩

theorem steps_of_deeds (h : Deeds x.session s) :
    Steps x { x with filling := { x.filling with session := s } } := by
  induction h with
  | refl => exact .refl
  | tail _ hdeed ih => exact ih.tail (.deed hdeed)

/-- The turns that the tasks have while a run is loaded, and the end of its load. -/
theorem steps_completeLoad {run : Run} (hphase : x.filling.phase = .loading run)
    (hflag : x.filling.flag = some flag) :
    ∃ y, Steps x y ∧ y.filling.phase = .picking ∧ y.filling.flag = some flag ∧
      y.filling.monitor = x.filling.monitor ∧ toFill flag y.session = toFill flag x.session ∧
      y.session = (x.session.settle.completeLoad run).2.recordFill flag
        (x.session.settle.completeLoad run).1 := by
  have hclosed := deeds_hookClosed.and (overheard_hookClosed (some flag))
  obtain ⟨loading, loaded, ⟨hdeeds, hheard⟩, hdeliver⟩ :=
    hclosed.exists_loading x.session.settle run
  have hfinish := Filling.step_finish (f := { x.filling with session := loading }) hphase hflag
    loaded
  refine ⟨_, .tail (steps_of_deeds (deeds_settle.trans hdeeds)) (.finish loaded hfinish), rfl,
    hflag, rfl, ?_, by rw [hdeliver]; rfl⟩
  calc
    toFill flag ((loading.deliver run loaded).2.recordFill flag (loading.deliver run loaded).1)
    _ = toFill flag (loading.deliver run loaded).2 := toFill_recordFill _
    _ = toFill flag loading := toFill_of_overheard (heard_deliver run loaded).overheard
    _ = toFill flag x.session := toFill_of_overheard (overheard_settle.trans hheard)

/-- From where the next run is looked for, filling comes to its end as the session runs. -/
theorem steps_fillRuns {fuel : Nat} {runs : List Run} (hphase : x.filling.phase = .picking)
    (hflag : x.filling.flag = some flag) (hruns : toFill flag x.session = some runs)
    (hfuel : runs.length < fuel) :
    ∃ y summary, Steps x y ∧ y.filling.phase = .returned (.ok summary) ∧
      y.session = (fillRuns flag fuel x.session).lowerFlag flag x.filling.monitor ∧
      ((fillRuns flag fuel x.session).backfill? flag).map Backfill.summary = some summary := by
  induction fuel generalizing x runs with
  | zero => cases hfuel
  | succ fuel ih =>
    -- What comes after one more run was begun.
    have hgoes {y : Launch} {rest : List Run} (h : Steps x y) (hphase : y.filling.phase = .picking)
        (hflag : y.filling.flag = some flag) (hmonitor : y.filling.monitor = x.filling.monitor)
        (hrest : toFill flag y.session = some rest) (hlt : rest.length < fuel) :
        ∃ z summary, Steps x z ∧ z.filling.phase = .returned (.ok summary) ∧
          z.session = (fillRuns flag fuel y.session).lowerFlag flag x.filling.monitor ∧
          ((fillRuns flag fuel y.session).backfill? flag).map Backfill.summary =
            some summary := by
      obtain ⟨z, summary, hsteps, hend⟩ := ih hphase hflag hrest hlt
      exact ⟨z, summary, h.trans hsteps, hmonitor ▸ hend⟩
    rw [fillRuns]
    obtain ⟨summary, s', hmove⟩ | ⟨r, rest, s', rfl, hrest, ⟨e, hmove⟩ | hmove⟩ :=
      nextFill_cases hruns
    · have hnext := Filling.step_next hphase hflag hmove
      rw [hmove]
      exact ⟨_, summary, .single (.next hnext), rfl, rfl, Filling.summary_of_nextFill hmove⟩
    · have hnext := Filling.step_next hphase hflag hmove
      rw [hmove]
      exact hgoes (.single (.next hnext)) rfl hflag rfl hrest (Nat.lt_of_succ_lt_succ hfuel)
    · have hnext := Filling.step_next hphase hflag hmove
      obtain ⟨y, hload, hphase', hflag', hmonitor, htoFill, hsession⟩ :=
        steps_completeLoad (x := { x with filling := x.filling.moved flag s' (.begun r) }) rfl hflag
      have hend := hgoes (.head (.next hnext) hload) hphase' hflag' hmonitor (htoFill.trans hrest)
        (Nat.lt_of_succ_lt_succ hfuel)
      rw [hsession] at hend
      rw [hmove]
      exact hend

/-- Filling the index of a session is filling step by step, with turns of the tasks in between and
when it has returned. -/
theorem steps_of_fill {monitor : Nat} (hw : s.watch? monitor = some w) (budget : Nat) :
    ∃ x, Steps (ofSession s monitor (s.fetchRuns budget).1) x ∧
      ((∃ e, x.filling.phase = .returned (.error e) ∧
          s.fill budget monitor w = (.failed e, x.session)) ∨
        ∃ summary, x.filling.phase = .returned (.ok summary) ∧
          s.fill budget monitor w = (.filled summary x.session.watchOutcomes, x.session)) := by
  have hfetch : (s.fetchRuns budget).2 = s.askRuns budget := rfl
  unfold fill
  generalize s.fetchRuns budget = fetched at hfetch ⊢
  obtain ⟨answer, s₁⟩ := fetched
  have hfetch : s₁ = s.askRuns budget := hfetch
  have hw₁ : s₁.watch? monitor = some w := hfetch ▸ hw
  have hasked : Step (ofSession s monitor answer) (ofSession s₁ monitor answer) :=
    .deed (.others (fun _ => hfetch ▸ rfl) (hfetch ▸ rfl))
  cases answer with
  | error e =>
    have hfailed : (ofSession s₁ monitor (.error e)).filling.step .fetch =
        some { Filling.ofSession s₁ monitor (.error e) with phase := .returned (.error e) } := rfl
    exact ⟨_, .tail (.single hasked) (.fetch hfailed), .inl ⟨e, rfl, rfl⟩⟩
  | ok runs =>
    have hfetched : (ofSession s₁ monitor (.ok runs)).filling.step .fetch =
        some { Filling.ofSession s₁ monitor (.ok runs) with
          session := s₁.beginFill s₁.freshFlag monitor w runs
          flag := some s₁.freshFlag, phase := .picking } := by
      rw [ofSession, Filling.step, Filling.ofSession]
      dsimp only
      rw [hw₁]
      rfl
    have hfuel : (Run.latestStartFirst runs).length < runs.length + 1 := by
      rw [(Run.latestStartFirst_perm runs).length_eq]
      exact Nat.lt_succ_self _
    have htoFill : toFill s₁.freshFlag (s₁.beginFill s₁.freshFlag monitor w runs) =
        some (Run.latestStartFirst runs) := by
      rw [toFill, backfill?_beginFill]
      rfl
    obtain ⟨y, summary, hsteps, hphase, hsession, hsummary⟩ :=
      steps_fillRuns (x := ⟨{ Filling.ofSession s₁ monitor (.ok runs) with
        session := s₁.beginFill s₁.freshFlag monitor w runs
        flag := some s₁.freshFlag, phase := .picking }, some s₁.tasks.size⟩)
        rfl rfl htoFill hfuel
    have hend := steps_of_deeds (deeds_settle (s := y.session))
    refine ⟨_, .trans (.head hasked (.head (.fetch hfetched) hsteps)) hend,
      .inr ⟨summary, hphase, ?_⟩⟩
    dsimp only at hsession hsummary ⊢
    rw [hsummary, hsession]
    rfl

end Launch

end ResultSearch
