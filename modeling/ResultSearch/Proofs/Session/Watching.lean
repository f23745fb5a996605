import ResultSearch.Proofs.Session.Deeds
import ResultSearch.Session.Script

/-!
# Tasks that run a monitor

A task that has begun to run a monitor goes on to until the monitor is stopped, whatever is done in
the meantime. When it is stopped the task becomes ready, and ends in its next turn.

* `Runs`, `Runs.of_passage`: a task runs a loop of a monitor, and nobody else does.
* `Watching`, `Watching.of_deed`: it does so unless the monitor is stopped.
* `Over`, `Over.of_deeds`, `over_of_stop`: after a stop it is about to end, or has ended.
-/

namespace ResultSearch

/-- Whether a task waits for its turn or for a time. -/
def Stage.isWaiting : Stage → Bool
  | .ready => true
  | .timed _ _ => true
  | _ => false

namespace Session

open Monitor (LoopChange Since Sleeps SameLoops)

variable {s s' : Session} {m : Monitor} {k task generation launched loop : Nat} {stage : Stage}

/-! ## Running a loop -/

/-- A task runs a loop of a monitor, which sleeps and is no other task's. -/
structure Runs (k task generation loop : Nat) (stage : Stage) (m : Monitor) (s : Session) :
    Prop where
  monitor_eq : s.monitor? k = some m
  task_eq : s.tasks.get? task = some ⟨.watch k (some loop), stage⟩
  sleeps : m.Sleeps loop generation
  alone : ∀ j ≠ task, s.job? j ≠ some (.watch k (some loop))

/-- A task is left to run its loop, but its time may come. -/
theorem Runs.of_passage (h : Runs k task generation loop stage m s) (hs : Orderly k s)
    (hpassage : Passage k (· ≠ task) s s') : ∃ stage' m',
      Runs k task generation loop stage' m' s' ∧ m.LoopChange m' ∧
        (stage' = stage ∨ (∃ due number, stage = .timed due number) ∧ stage' = .ready) := by
  obtain ⟨hgenerations, -⟩ := hs.monitor m h.monitor_eq
  obtain ⟨m', hm', hmove⟩ := hpassage.monitor.moved m h.monitor_eq
  have hsleeps : m'.Sleeps loop generation :=
    h.sleeps.of_move hgenerations hmove fun ⟨j, hj, hjob⟩ => h.alone j hj hjob
  have halone : ∀ j ≠ task, s'.job? j ≠ some (.watch k (some loop)) := by
    intro j hj hjob
    rcases hpassage.jobs j loop hjob with hold | ⟨-, m₁, m₁', hm₁, hstart, -⟩
    · exact h.alone j hj hold
    · obtain rfl := Option.some.inj (h.monitor_eq.symm.trans hm₁)
      obtain ⟨l, hl, hid, -⟩ := h.sleeps
      have hlt := hgenerations.id_lt _ (Monitor.mem_outline hl)
      rw [hid, (Monitor.launched_of_start hstart).1] at hlt
      exact Nat.lt_irrefl _ hlt
  have hchange := hmove.loopChange hgenerations
  rcases hpassage.tasks task _ (fun hne => hne rfl) h.task_eq with htask | ⟨htimed, htask⟩
  · exact ⟨stage, m', ⟨hm', htask, hsleeps, halone⟩, hchange, .inl rfl⟩
  · exact ⟨.ready, m', ⟨hm', htask, hsleeps, halone⟩, hchange, .inr ⟨htimed, rfl⟩⟩

/-- The task waits for something else. -/
theorem Runs.of_stage (h : Runs k task generation loop stage m s) {stage' : Stage}
    (hwatches : s'.watches = s.watches) (htasks : s'.tasks = (s.setStage task stage').tasks) :
    Runs k task generation loop stage' m s' := by
  have hget (j : Nat) : s'.tasks.get? j =
      if j = task then some ⟨.watch k (some loop), stage'⟩ else s.tasks.get? j := by
    rw [htasks, setStage, get?_updateTask, h.task_eq]
    rfl
  refine ⟨?_, by rw [hget, if_pos rfl], h.sleeps, fun j hj => ?_⟩
  · exact (monitor?_congr hwatches).trans h.monitor_eq
  · rw [job?, hget, if_neg hj]
    exact h.alone j hj

/-- The sleeping loop of a task has a turn of its own. -/
theorem Runs.of_set (h : Runs k task generation loop stage m s) {w : Watch} {m' : Monitor}
    (hsleeps : m'.Sleeps loop generation) :
    Runs k task generation loop stage m' { s with
      watches := s.watches.set k { w with monitor := m' } } :=
  ⟨monitor?_set.trans (if_pos rfl), h.task_eq, hsleeps, h.alone⟩

/-! ## As long as the monitor is not stopped -/

/-- Since a monitor was not running, a task has begun to run it, and goes on to unless the monitor
was stopped. -/
structure Watching (k task generation launched : Nat) (s : Session) : Prop where
  orderly : Orderly k s
  runs : ∃ m, s.monitor? k = some m ∧ m.Since generation launched ∧
    (m.generation = generation → m.running = true ∧
      ∃ loop stage, Runs k task generation loop stage m s ∧ stage.isWaiting = true)

theorem generation_eq_of_since {m' : Monitor} (h : m.Since generation launched)
    (hchange : m.LoopChange m') (hgeneration : m'.generation = generation) :
    m.generation = generation :=
  Nat.le_antisymm (hgeneration ▸ hchange.generation_le) h.generation_le

/-- A monitor that was stopped since was so whatever comes next. -/
theorem Orderly.since_of_stopped {acts : Nat → Prop} (hs : Orderly k s)
    (hpassages : Relation.ReflTransGen (Passage k acts) s s') (hm : s.monitor? k = some m)
    (hsince : m.Since generation launched) (hother : m.generation ≠ generation) :
    ∃ m', s'.monitor? k = some m' ∧ m'.Since generation launched ∧ m'.generation ≠ generation := by
  have hkept (m m' : Monitor) : m.Since generation launched ∧ m.generation ≠ generation →
      m.LoopChange m' → m'.Since generation launched ∧ m'.generation ≠ generation :=
    fun ⟨hsince, hne⟩ hchange =>
      ⟨hsince.of_change hchange, mt (generation_eq_of_since hsince hchange) hne⟩
  exact hs.monitor_of_passages hpassages hkept hm ⟨hsince, hother⟩

theorem Orderly.since_of_deeds (hs : Orderly k s) (hdeeds : Deeds s s') {m : Monitor}
    (hm : s.monitor? k = some m) (hsince : m.Since generation launched) :
    ∃ m', s'.monitor? k = some m' ∧ m'.Since generation launched := by
  induction hdeeds with
  | refl => exact ⟨m, hm, hsince⟩
  | tail hbefore hdeed ih =>
    obtain ⟨m₁, hm₁, hsince₁⟩ := ih
    obtain ⟨acts, hpassages, -⟩ := hdeed.passages (hs.of_deeds hbefore)
    exact (hs.of_deeds hbefore).monitor_of_passages hpassages
      (fun _ _ h hchange => h.of_change hchange) hm₁ hsince₁

theorem Watching.of_passage (h : Watching k task generation launched s)
    (hpassage : Passage k (· ≠ task) s s') : Watching k task generation launched s' := by
  obtain ⟨hs, m, hm, hsince, hruns⟩ := h
  obtain ⟨m', hm', hmove⟩ := hpassage.monitor.moved m hm
  have hchange := hmove.loopChange (hs.monitor m hm).1
  refine ⟨hs.of_passage hpassage, m', hm', hsince.of_change hchange, fun hgeneration => ?_⟩
  have hbefore := generation_eq_of_since hsince hchange hgeneration
  obtain ⟨hrunning, loop, stage, hruns, hwaiting⟩ := hruns hbefore
  refine ⟨hchange.running hrunning (hgeneration.trans hbefore.symm), ?_⟩
  obtain ⟨stage', m'', hruns', -, hstage⟩ := hruns.of_passage hs hpassage
  obtain rfl := Option.some.inj (hm'.symm.trans hruns'.monitor_eq)
  refine ⟨loop, stage', hruns', ?_⟩
  rcases hstage with rfl | ⟨-, rfl⟩
  · exact hwaiting
  · rfl

theorem Watching.of_asides (h : Watching k task generation launched s)
    (hasides : Asides k task s s') : Watching k task generation launched s' := by
  induction hasides with
  | refl => exact h
  | tail _ hpassage ih => exact ih.of_passage hpassage

theorem Watching.of_setStage (h : Watching k task generation launched s) (stage' : Stage)
    (hstage : stage'.isWaiting = true) (hs' : Orderly k s') (hwatches : s'.watches = s.watches)
    (htasks : s'.tasks = (s.setStage task stage').tasks) :
    Watching k task generation launched s' := by
  obtain ⟨-, m, hm, hsince, hruns⟩ := h
  refine ⟨hs', m, (monitor?_congr hwatches).trans hm, hsince, fun hgeneration => ?_⟩
  obtain ⟨hrunning, loop, stage, hruns, -⟩ := hruns hgeneration
  exact ⟨hrunning, loop, stage', hruns.of_stage hwatches htasks, hstage⟩

/-- After a sample the task sleeps, or goes on at once if its loop was called. -/
theorem Watching.of_turnLoop {w : Watch} (hw : s.watch? k = some w)
    (hturn : (rouseLoop w.monitor loop s.clock).turn loop s.clock = some (.sampled, m))
    (h : Watching k task generation launched
      { s with watches := s.watches.set k { w with monitor := m } }) :
    Watching k task generation launched (s.turnLoop task k loop) := by
  obtain ⟨hnone, -⟩ | ⟨m', hended, -⟩ | ⟨m', sampled, hsampled, heffects, heq⟩ :=
    turnLoop_cases task loop hw
  · cases hnone.symm.trans hturn
  · cases hended.symm.trans hturn
  · obtain rfl : m' = m := (Prod.mk.inj (Option.some.inj (hsampled.symm.trans hturn))).2
    have hafter := h.of_asides heffects.asides
    have hwaits : Watching k task generation launched
        (sampled.waitUntil task (sampled.clock + m'.settings.interval)) :=
      hafter.of_setStage (.timed _ sampled.timers) rfl
        (hafter.orderly.of_passages (turn_waitUntil _).passages) (watches_updateTask _ _ _) rfl
    rcases heq with heq | heq
    · rw [heq]
      exact hwaits
    · rw [heq]
      exact hwaits.of_setStage .ready rfl
        (hwaits.orderly.of_passages turn_makeReady.passages) watches_makeReady rfl

theorem watch?_of_monitor? (h : s.monitor? k = some m) :
    ∃ w, s.watch? k = some w ∧ w.monitor = m :=
  Option.map_eq_some_iff.1 h

/-- In its own turn the task takes a sample and goes on. -/
theorem Watching.turn (h : Watching k task generation launched s) :
    Watching k task generation launched (s.turn task) := by
  obtain ⟨hs, m, hm, hsince, hruns⟩ := id h
  by_cases hgeneration : m.generation = generation
  · obtain ⟨hrunning, loop, stage, hruns, hwaiting⟩ := hruns hgeneration
    cases stage with
    | ready =>
      obtain ⟨w, hw, rfl⟩ := watch?_of_monitor? hm
      have hjob := job?_of_get? hruns.task_eq
      have hturn : s.turn task = s.turnLoop task k loop := turn_eq_turnJob hruns.task_eq
      rw [hturn]
      obtain ⟨-, heq⟩ | ⟨m', hended, -⟩ | ⟨m', -, hsampled, -, -⟩ := turnLoop_cases task loop hw
      · rw [heq]
        exact h
      · obtain ⟨hresult, -⟩ :=
          hruns.sleeps.sampled (hs.monitor _ hm).1 hrunning hgeneration hended
        cases hresult
      · obtain ⟨-, hsame, hsleeps⟩ :=
          hruns.sleeps.sampled (hs.monitor _ hm).1 hrunning hgeneration hsampled
        refine .of_turnLoop hw hsampled ⟨?_, m', monitor?_set.trans (if_pos rfl),
          hsince.of_change (.same hsame), fun _ => ⟨hsame.running_eq.trans hrunning, loop, .ready,
            hruns.of_set hsleeps, rfl⟩⟩
        exact hs.of_passage (TurnEffect.looped hjob hw hsampled).passage
    | timed due number =>
      rw [Session.turn, hruns.task_eq]
      exact h
    | loading | gated | listing | ended => cases hwaiting
  · obtain ⟨m', hm', hsince', hother⟩ :=
      hs.since_of_stopped effects_turn.passages hm hsince hgeneration
    exact ⟨hs.of_passages effects_turn.passages, m', hm', hsince', fun heq => absurd heq hother⟩

/-- In its first turn a task begins to run a monitor that is not running. -/
theorem watching_of_first_turn (hs : Orderly k s)
    (ht : s.tasks.get? task = some ⟨.watch k none, .ready⟩) (hm : s.monitor? k = some m)
    (hsince : m.Since generation launched) (hgeneration : m.generation = generation)
    (hstopped : m.running = false) : Watching k task generation launched (s.turn task) := by
  obtain ⟨w, hw, rfl⟩ := watch?_of_monitor? hm
  obtain ⟨loop, m₁, hstart⟩ : ∃ loop m₁, w.monitor.start = .ok (loop, m₁) := by
    rw [Monitor.start, hstopped]
    exact ⟨_, _, rfl⟩
  obtain ⟨hgenerations, -⟩ := hs.monitor _ hm
  have hjob := job?_of_get? ht
  have hbegun := TurnEffect.begun hjob hw hstart
  have hturn : s.turn task = (setJob { s with watches := s.watches.set k { w with monitor := m₁ } }
      task (.watch k (some loop))).turnLoop task k loop := by
    have hstarts : s.turn task = s.turnStart task k := turn_eq_turnJob ht
    rw [hstarts, turnStart, hw]
    dsimp only
    rw [hstart]
  generalize hs₁ : setJob { s with watches := s.watches.set k { w with monitor := m₁ } }
    task (.watch k (some loop)) = s₁ at hbegun hturn
  have hget (j : Nat) : s₁.tasks.get? j =
      if j = task then some ⟨.watch k (some loop), .ready⟩ else s.tasks.get? j := by
    rw [← hs₁, setJob, get?_updateTask]
    show (if j = task then (s.tasks.get? task).map _ else s.tasks.get? j) = _
    rw [ht]
    rfl
  have hw₁ : s₁.watch? k = some { w with monitor := m₁ } := by
    rw [← hs₁, watch?, setJob, watches_updateTask]
    exact Table.get?_set_self _ _ _
  have ht₁ : s₁.tasks.get? task = some ⟨.watch k (some loop), .ready⟩ :=
    (hget task).trans (if_pos rfl)
  obtain ⟨m₂, hsampled, hsame, hsleeps⟩ :=
    Monitor.exists_sampled_of_start hgenerations hstart s₁.clock
  obtain ⟨hnew, -, hrunning⟩ := Monitor.launched_of_start hstart
  have hs₁' : Orderly k s₁ := hs.of_passage hbegun.passage
  have halone : ∀ j ≠ task, s₁.job? j ≠ some (.watch k (some loop)) := by
    intro j hj hother
    rw [job?, hget, if_neg hj] at hother
    obtain ⟨m, hm', hlt⟩ := hs.jobs_lt j loop hother
    obtain rfl := Option.some.inj (hm.symm.trans hm')
    exact Nat.lt_irrefl _ (hnew ▸ hlt)
  rw [hturn]
  refine .of_turnLoop hw₁ hsampled ⟨?_, m₂, monitor?_set.trans (if_pos rfl),
    (hsince.of_change (Monitor.loopChange_start hstart)).of_change (.same hsame), fun _ =>
      ⟨hsame.running_eq.trans hrunning, loop, .ready, ⟨monitor?_set.trans (if_pos rfl), ?_,
        hgeneration ▸ hsleeps, halone⟩, rfl⟩⟩
  · exact hs₁'.of_passage (TurnEffect.looped (job?_of_get? ht₁) hw₁ hsampled).passage
  · exact ht₁

theorem Watching.of_deed (h : Watching k task generation launched s) (hdeed : Deed s s') :
    Watching k task generation launched s' := by
  obtain ⟨hs, m, hm, hsince, hruns⟩ := id h
  obtain ⟨acts, hpassages, -⟩ := hdeed.passages hs
  by_cases hgeneration : m.generation = generation
  · obtain ⟨-, loop, stage, hruns, -⟩ := hruns hgeneration
    rcases hdeed.cases hs (job?_of_get? hruns.task_eq) with rfl | hasides
    · exact h.turn
    · exact h.of_asides hasides
  · obtain ⟨m', hm', hsince', hother⟩ := hs.since_of_stopped hpassages hm hsince hgeneration
    exact ⟨hs.of_passages hpassages, m', hm', hsince', fun heq => absurd heq hother⟩

/-! ## After a stop -/

/-- The generation in which a task has begun to run a monitor is over: the task is ready, or it has
ended because the monitor was stopped. -/
structure Over (k task generation : Nat) (s : Session) : Prop where
  orderly : Orderly k s
  stopped : ∃ m loop, s.monitor? k = some m ∧ generation < m.generation ∧
    (Runs k task generation loop .ready m s ∨
      s.tasks.get? task = some ⟨.watch k (some loop), .ended (.error (.monitor .stopped))⟩)

theorem Over.of_passage (h : Over k task generation s) (hpassage : Passage k (· ≠ task) s s') :
    Over k task generation s' := by
  obtain ⟨hs, m, loop, hm, hover, htask⟩ := h
  obtain ⟨m', hm', hmove⟩ := hpassage.monitor.moved m hm
  have hle := (hmove.loopChange (hs.monitor m hm).1).generation_le
  refine ⟨hs.of_passage hpassage, m', loop, hm', Nat.lt_of_lt_of_le hover hle, ?_⟩
  rcases htask with hruns | hended
  · obtain ⟨stage', m'', hruns', -, rfl | ⟨-, rfl⟩⟩ := hruns.of_passage hs hpassage
    all_goals
      obtain rfl := Option.some.inj (hm'.symm.trans hruns'.monitor_eq)
      exact .inl hruns'
  · exact .inr (hpassage.get?_eq (fun hne => hne rfl) hended (by simp))

theorem Over.of_asides (h : Over k task generation s) (hasides : Asides k task s s') :
    Over k task generation s' := by
  induction hasides with
  | refl => exact h
  | tail _ hpassage ih => exact ih.of_passage hpassage

/-- A task whose loop is over ends in its turn. -/
theorem Runs.ends (h : Runs k task generation loop .ready m s) (hs : Orderly k s)
    (hover : generation < m.generation) : ∃ m', (s.turn task).monitor? k = some m' ∧
      m.generation ≤ m'.generation ∧ (s.turn task).tasks.get? task =
        some ⟨.watch k (some loop), .ended (.error (.monitor .stopped))⟩ := by
  obtain ⟨w, hw, rfl⟩ := watch?_of_monitor? h.monitor_eq
  obtain ⟨hgenerations, hdismissed⟩ := hs.monitor _ h.monitor_eq
  obtain ⟨m', hended⟩ :=
    h.sleeps.exists_ended hgenerations hdismissed (Nat.ne_of_lt hover) s.clock
  have hturn : s.turn task = s.turnLoop task k loop := turn_eq_turnJob h.task_eq
  have hmove : Monitor.Move (· = loop) w.monitor m' := .turned rfl hended
  have hle := (hmove.loopChange hgenerations).generation_le
  obtain ⟨hnone, -⟩ | ⟨m'', hended', heq⟩ | ⟨m'', -, hsampled, -, -⟩ := turnLoop_cases task loop hw
  · cases hnone.symm.trans hended
  · obtain rfl : m'' = m' := (Prod.mk.inj (Option.some.inj (hended'.symm.trans hended))).2
    refine ⟨m'', ?_, hle, ?_⟩
    · rw [hturn, heq, finish, setStage, monitor?, watch?, watches_updateTask, Table.get?_set_self]
      rfl
    · rw [hturn, heq, finish, setStage, get?_updateTask, if_pos rfl]
      show (s.tasks.get? task).map _ = _
      rw [h.task_eq]
      rfl
  · cases hsampled.symm.trans hended

theorem Over.turn (h : Over k task generation s) : Over k task generation (s.turn task) := by
  obtain ⟨hs, m, loop, hm, hover, hruns | hended⟩ := id h
  · obtain ⟨m', hm', hle, htask⟩ := hruns.ends hs hover
    exact ⟨hs.of_passages effects_turn.passages, m', loop, hm', Nat.lt_of_lt_of_le hover hle,
      .inr htask⟩
  · rw [Session.turn, hended]
    exact h

theorem Over.of_deed (h : Over k task generation s) (hdeed : Deed s s') :
    Over k task generation s' := by
  obtain ⟨hs, m, loop, hm, hover, htask⟩ := id h
  have hjob : s.job? task = some (.watch k (some loop)) := by
    rcases htask with hruns | hended
    · exact job?_of_get? hruns.task_eq
    · exact job?_of_get? hended
  rcases hdeed.cases hs hjob with rfl | hasides
  · exact h.turn
  · exact h.of_asides hasides

theorem Over.of_deeds (h : Over k task generation s) (hdeeds : Deeds s s') :
    Over k task generation s' := by
  induction hdeeds with
  | refl => exact h
  | tail _ hdeed ih => exact ih.of_deed hdeed

theorem Runs.of_asides (h : Runs k task generation loop stage m s) (hs : Orderly k s)
    (hstage : stage.isWaiting = true) (hasides : Asides k task s s') : ∃ stage' m',
      Runs k task generation loop stage' m' s' ∧ m.generation ≤ m'.generation ∧
        stage'.isWaiting = true := by
  induction hasides with
  | refl => exact ⟨stage, m, h, Nat.le_refl _, hstage⟩
  | tail hbefore hpassage ih =>
    obtain ⟨stage₁, m₁, hruns, hle, hwaiting⟩ := ih
    obtain ⟨stage', m', hruns', hchange, hstage'⟩ :=
      hruns.of_passage (hs.of_passages hbefore) hpassage
    refine ⟨stage', m', hruns', Nat.le_trans hle hchange.generation_le, ?_⟩
    rcases hstage' with rfl | ⟨-, rfl⟩
    · exact hwaiting
    · rfl

/-- A task that sleeps although its loop was told to end becomes ready. -/
theorem Runs.isRoused {due number : Nat}
    (h : Runs k task generation loop (.timed due number) m s) (hs : Orderly k s)
    (hover : generation < m.generation) :
    s.isRoused ⟨.watch k (some loop), .timed due number⟩ = true := by
  obtain ⟨w, hw, rfl⟩ := watch?_of_monitor? h.monitor_eq
  obtain ⟨hgenerations, hdismissed⟩ := hs.monitor _ h.monitor_eq
  obtain ⟨l, hl, -, hreason⟩ :=
    h.sleeps.exists_dismissed hgenerations hdismissed (Nat.ne_of_lt hover) s.clock
  show s.isCalled k loop = true
  rw [isCalled, hw, Option.bind_some, hl]
  dsimp only
  rw [hreason, Bool.or_true]

/-- A task whose loop was told to end is ready once those that were called are roused. -/
theorem Runs.over_of_rouseCalled (h : Runs k task generation loop stage m s) (hs : Orderly k s)
    (hstage : stage.isWaiting = true) (hover : generation < m.generation) :
    Over k task generation s.rouseCalled := by
  have htask : s.rouseCalled.tasks.get? task = some ⟨.watch k (some loop), .ready⟩ := by
    rw [get?_rouseCalled, h.task_eq, Option.map_some]
    cases stage with
    | ready => exact congrArg some (ite_self _)
    | timed due number => rw [if_pos (h.isRoused hs hover)]
    | loading | gated | listing | ended => cases hstage
  have hasides : Asides k task s s.rouseCalled := effects_rouseCalled.asides
  have hs' : Orderly k s.rouseCalled := hs.of_passages hasides
  obtain ⟨stage', m', hruns', hle, -⟩ := h.of_asides hs hstage hasides
  obtain rfl : stage' = .ready :=
    (Task.mk.inj (Option.some.inj (hruns'.task_eq.symm.trans htask))).2
  exact ⟨hs', m', loop, hruns'.monitor_eq, Nat.lt_of_lt_of_le hover hle, .inl hruns'⟩

/-- The stop of a monitor makes the task ready that runs it. -/
theorem Runs.over_of_stop (h : Runs k task generation loop stage m s) (hs : Orderly k s)
    (hstage : stage.isWaiting = true) (hgeneration : m.generation = generation) {w : Watch}
    (hw : s.watch? k = some w) (hstop : s.stopMonitor k w = .ok s') :
    Over k task generation s' := by
  obtain ⟨m₁, hm₁, heq⟩ := Outcome.bind_eq_ok_iff.1 hstop
  obtain rfl := Except.ok.inj heq
  obtain rfl := Option.some.inj (h.monitor_eq.symm.trans (monitor?_of_watch? hw))
  have hruns : Runs k task generation loop stage m₁
      { s with watches := s.watches.set k { w with monitor := m₁ } } :=
    h.of_set (h.sleeps.stop hm₁)
  have hpassage : Passage k (· ≠ task) s
      { s with watches := s.watches.set k { w with monitor := m₁ } } :=
    (Effect.stopped hw hm₁).passage
  have hs₁ := hs.of_passage hpassage
  generalize ({ s with watches := s.watches.set k { w with monitor := m₁ } } : Session) = s₁
    at hruns hs₁ ⊢
  have htold : Asides k task s₁ (w.listeners.foldl (fun s l => s.tell .stopped l) s₁) :=
    (effects_tellAll .stopped w.listeners).asides
  obtain ⟨stage', m', hruns', hle, hstage'⟩ := hruns.of_asides hs₁ hstage htold
  refine hruns'.over_of_rouseCalled (hs₁.of_passages htold) hstage' ?_
  have := Monitor.generation_of_stop hm₁
  omega

end Session

end ResultSearch
