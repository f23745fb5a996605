import ResultSearch.Proofs.Monitor.Moves
import ResultSearch.Proofs.Session.Turns

/-!
# What is done in a session

Whatever is done in a session, one thing after the other happens to a monitor, and to each task that
has no turn nothing happens but that its time comes. The ids of tasks and of loops stay apart.

* `Passage`: one thing that happens, as regards one monitor.
* `Orderly`, `Orderly.of_passage`: the ids stay apart.
* `Deed`: what can be done in a session; `Deed.cases`: what that comes to as regards a task that
  runs the monitor.
-/

namespace ResultSearch.Session

open Monitor (Move Generations Dismissed)

variable {s s' s'' : Session} {k id task : Nat} {acts acts' : Nat → Prop}

/-! ## What happens as regards one monitor -/

/-- One thing happens to a monitor, if it was there, and if it was not, it may be new; `turns` says
which of its loops may have a turn. -/
structure Happens (k : Nat) (turns : Nat → Prop) (s s' : Session) : Prop where
  moved : ∀ m, s.monitor? k = some m → ∃ m', s'.monitor? k = some m' ∧ Move turns m m'
  created : s.monitor? k = none → ∀ m', s'.monitor? k = some m' →
    ∃ settings, Monitor.create settings = .ok m'

/-- One thing that happens, as regards a monitor; `acts` says which tasks may do something. -/
structure Passage (k : Nat) (acts : Nat → Prop) (s s' : Session) : Prop where
  /-- The loops of the monitor have turns only in turns of their tasks. -/
  monitor : Happens k (fun loop => ∃ j, acts j ∧ s.job? j = some (.watch k (some loop))) s s'
  /-- A task runs the loop that it ran before, or one that it has begun. -/
  jobs : ∀ j loop, s'.job? j = some (.watch k (some loop)) →
    s.job? j = some (.watch k (some loop)) ∨
      acts j ∧ ∃ m m', s.monitor? k = some m ∧ m.start = .ok (loop, m') ∧ s'.monitor? k = some m'
  /-- The other tasks are left alone, unless they waited for a time. -/
  tasks : ∀ j t, ¬ acts j → s.tasks.get? j = some t → s'.tasks.get? j = some t ∨
    (∃ due number, t.stage = .timed due number) ∧ s'.tasks.get? j = some ⟨t.job, .ready⟩
  size_le : s.tasks.size ≤ s'.tasks.size
  /-- New tasks take the ids that follow. -/
  keys_lt : ∀ j ∈ s'.tasks.keys, j ∈ s.tasks.keys ∨ j < s'.tasks.size

theorem size_eq_of_keys_eq {α : Type} {t t' : Table Nat α} (h : t'.keys = t.keys) :
    t'.size = t.size := by
  have hlength := congrArg List.length h
  rwa [Table.keys, Table.keys, List.length_map, List.length_map] at hlength

theorem monitor?_of_watch? {monitor : Nat} {w : Watch} (h : s.watch? monitor = some w) :
    s.monitor? monitor = some w.monitor := by
  rw [monitor?, h]
  rfl

section Happens

variable {turns turns' : Nat → Prop}

theorem Happens.mono (h : Happens k turns s s') (hturns : ∀ loop, turns loop → turns' loop) :
    Happens k turns' s s' where
  moved m hm := by
    obtain ⟨m', hm', hmove⟩ := h.moved m hm
    exact ⟨m', hm', hmove.mono hturns⟩
  created := h.created

theorem happens_of_eq (h : s'.monitor? k = s.monitor? k) : Happens k turns s s' where
  moved m hm := ⟨m, h.trans hm, .none⟩
  created hnone m hm := by cases (h.symm.trans hm).symm.trans hnone

/-- Something happens to a monitor, perhaps another one. -/
theorem happens_of_move {monitor : Nat} {m m' : Monitor} (hm : s.monitor? monitor = some m)
    (hmonitor : s'.monitor? k = if k = monitor then some m' else s.monitor? k)
    (hmove : k = monitor → Move turns m m') : Happens k turns s s' := by
  by_cases hk : k = monitor
  · rw [if_pos hk] at hmonitor
    rw [← hk] at hm
    refine ⟨fun m₁ hm₁ => ?_, fun hnone => ?_⟩
    · obtain rfl := Option.some.inj (hm.symm.trans hm₁)
      exact ⟨m', hmonitor, hmove hk⟩
    · cases hm.symm.trans hnone
  · exact happens_of_eq (hmonitor.trans (if_neg hk))

end Happens

/-- The more tasks may do something, the more can happen. -/
theorem Passage.mono (h : Passage k acts s s') (hacts : ∀ j, acts j → acts' j) :
    Passage k acts' s s' where
  monitor := h.monitor.mono fun _ ⟨j, hj, hjob⟩ => ⟨j, hacts j hj, hjob⟩
  jobs j loop hjob := (h.jobs j loop hjob).imp_right fun ⟨hj, hstart⟩ => ⟨hacts j hj, hstart⟩
  tasks j t hj := h.tasks j t (mt (hacts j) hj)
  size_le := h.size_le
  keys_lt := h.keys_lt

theorem Passage.get?_eq (h : Passage k acts s s') (hacts : ¬ acts task) {t : Task}
    (ht : s.tasks.get? task = some t) (htimed : ∀ due number, t.stage ≠ .timed due number) :
    s'.tasks.get? task = some t := by
  rcases h.tasks task t hacts ht with h | ⟨⟨due, number, hstage⟩, -⟩
  · exact h
  · exact absurd hstage (htimed due number)

/-- Nothing happens to the tasks but that times come. -/
theorem passage_of_happens
    (hmonitor : Happens k (fun loop => ∃ j, acts j ∧ s.job? j = some (.watch k (some loop))) s s')
    (hkeys : s'.tasks.keys = s.tasks.keys)
    (htasks : ∀ j t, s.tasks.get? j = some t → s'.tasks.get? j = some t ∨
      (∃ due number, t.stage = .timed due number) ∧ s'.tasks.get? j = some ⟨t.job, .ready⟩) :
    Passage k acts s s' := by
  refine ⟨hmonitor, fun j loop hjob => .inl ?_, fun j t _ => htasks j t,
    Nat.le_of_eq (size_eq_of_keys_eq hkeys).symm, fun j hj => .inl (hkeys ▸ hj)⟩
  cases ht : s.tasks.get? j with
  | none =>
    have hnone : s'.tasks.get? j = none :=
      Table.get?_eq_none_iff.2 (hkeys ▸ Table.get?_eq_none_iff.1 ht)
    rw [job?, hnone] at hjob
    cases hjob
  | some t =>
    rcases htasks j t ht with ht' | ⟨-, ht'⟩ <;> rw [job?, ht'] at hjob <;> rw [job?, ht] <;>
      exact hjob

theorem passage_of_tasks_eq
    (hmonitor : Happens k (fun loop => ∃ j, acts j ∧ s.job? j = some (.watch k (some loop))) s s')
    (htasks : s'.tasks = s.tasks) : Passage k acts s s' :=
  passage_of_happens hmonitor (by rw [htasks]) fun j t ht => .inl (by rw [htasks, ht])

theorem Effect.passage (h : Effect s s') : Passage k acts s s' := by
  cases h with
  | besides h => exact passage_of_tasks_eq (happens_of_eq (h.monitors_eq k)) h.tasks_eq
  | counted monitor =>
    refine passage_of_tasks_eq ?_ tasks_updateMonitor
    cases hm : s.monitor? monitor with
    | none =>
      refine happens_of_eq ?_
      rw [monitor?_updateMonitor, hm]
      split
      · next hk => rw [hk, hm]; rfl
      · rfl
    | some m =>
      refine happens_of_move hm ?_ fun _ => .counted
      rw [monitor?_updateMonitor, hm]
      rfl
  | stopped hw hstop =>
    exact passage_of_tasks_eq
      (happens_of_move (monitor?_of_watch? hw) monitor?_set fun _ => .stopped hstop) rfl
  | @roused id t ht hroused =>
    have hmonitor : (s.makeReady id).monitor? k = s.monitor? k := monitor?_congr watches_makeReady
    refine passage_of_happens (happens_of_eq hmonitor) (keys_updateTask s id _) fun j t' ht' => ?_
    rw [get?_makeReady]
    split
    · next hj =>
      subst hj
      obtain rfl := Option.some.inj (ht.symm.trans ht')
      refine .inr ⟨?_, by rw [ht]; rfl⟩
      unfold isRoused at hroused
      split at hroused
      · next due number _ hstage => exact ⟨due, number, hstage⟩
      · cases hroused
    · exact .inl ht'

theorem TurnEffect.passage (h : TurnEffect id s s') : Passage k (· = id) s s' := by
  cases h with
  | effect h => exact h.passage
  | own hclock hshutdown hmonitors hkeys htasks hjob =>
    refine ⟨happens_of_eq (hmonitors k), fun j loop hj => .inl ?_,
      fun j t hne ht => .inl ((htasks j hne).trans ht),
      Nat.le_of_eq (size_eq_of_keys_eq hkeys).symm, fun j hj => .inl (hkeys ▸ hj)⟩
    by_cases hne : j = id
    · exact hne ▸ hjob k loop (hne ▸ hj)
    · rwa [job?, htasks j hne] at hj
  | @begun w monitor loop m hjob hw hstart =>
    generalize hs :
      ({ s with watches := s.watches.set monitor { w with monitor := m } } : Session) = s₁
    have hmonitor : (s₁.setJob id (.watch monitor (some loop))).monitor? k =
        if k = monitor then some m else s.monitor? k := by
      rw [monitor?, watch?, setJob, watches_updateTask, ← watch?, ← monitor?, ← hs, monitor?_set]
    have htasks (j : Nat) : (s₁.setJob id (.watch monitor (some loop))).tasks.get? j =
        if j = id then (s.tasks.get? id).map fun t => { t with job := .watch monitor (some loop) }
        else s.tasks.get? j := by
      rw [setJob, get?_updateTask, ← hs]
    have hkeys : (s₁.setJob id (.watch monitor (some loop))).tasks.keys = s.tasks.keys := by
      rw [setJob, keys_updateTask, ← hs]
    refine ⟨happens_of_move (monitor?_of_watch? hw) hmonitor fun _ => .started hstart,
      fun j loop' hj => ?_, fun j t hne ht => .inl (by rw [htasks, if_neg hne, ht]),
      Nat.le_of_eq (size_eq_of_keys_eq hkeys).symm, fun j hj => .inl (hkeys ▸ hj)⟩
    rw [job?, htasks] at hj
    split at hj
    · next hid =>
      rw [Option.map_map] at hj
      obtain ⟨t, -, ht⟩ := Option.map_eq_some_iff.1 hj
      obtain ⟨rfl, hloop⟩ := Job.watch.inj ht
      obtain rfl := Option.some.inj hloop
      exact .inr ⟨hid, _, _, monitor?_of_watch? hw, hstart, hmonitor.trans (if_pos rfl)⟩
    · exact .inl hj
  | looped hjob hw hturn =>
    exact passage_of_tasks_eq (happens_of_move (monitor?_of_watch? hw) monitor?_set
      fun hk => .turned ⟨id, rfl, hk ▸ hjob⟩ hturn) rfl

/-- A turn is made of passages in which only the task does something. -/
theorem TurnEffects.passages {s s' : Session} (h : TurnEffects id s s') :
    Relation.ReflTransGen (Passage k (· = id)) s s' :=
  Relation.ReflTransGen.mono (fun _ _ h => h.passage) _ _ h

/-! ## Ids stay apart -/

/-- Tasks and loops have ids of their own, and the loops of a monitor are in order. -/
structure Orderly (k : Nat) (s : Session) : Prop where
  tasks_lt : ∀ j ∈ s.tasks.keys, j < s.tasks.size
  monitor : ∀ m, s.monitor? k = some m → Generations m ∧ Dismissed m
  jobs_lt : ∀ j loop, s.job? j = some (.watch k (some loop)) →
    ∃ m, s.monitor? k = some m ∧ loop < m.launched

theorem orderly_create {hash : NameHash} {shards : Nat} {binder : Binder}
    (h : Session.create hash shards binder = .ok s) (k : Nat) : Orderly k s := by
  obtain ⟨index, -, h⟩ := Outcome.bind_eq_ok_iff.1 h
  obtain rfl := Except.ok.inj h
  exact ⟨fun j hj => absurd hj List.not_mem_nil, fun m hm => (nomatch hm),
    fun j loop hj => (nomatch hj)⟩

theorem Orderly.of_passage (h : Orderly k s) (hpassage : Passage k acts s s') : Orderly k s' := by
  have hmove (m : Monitor) (hm : s.monitor? k = some m) : ∃ m', s'.monitor? k = some m' ∧
      (Generations m' ∧ Dismissed m') ∧ m.LoopChange m' := by
    obtain ⟨m', hm', hmove⟩ := hpassage.monitor.moved m hm
    obtain ⟨hgenerations, hdismissed⟩ := h.monitor m hm
    have hchange := hmove.loopChange hgenerations
    exact ⟨m', hm', ⟨hgenerations.of_change hchange, hmove.dismissed hgenerations hdismissed⟩,
      hchange⟩
  refine ⟨fun j hj => ?_, fun m' hm' => ?_, fun j loop hj => ?_⟩
  · rcases hpassage.keys_lt j hj with hj | hj
    · exact Nat.lt_of_lt_of_le (h.tasks_lt j hj) hpassage.size_le
    · exact hj
  · cases hm : s.monitor? k with
    | none =>
      obtain ⟨settings, hcreate⟩ := hpassage.monitor.created hm m' hm'
      exact Monitor.generations_of_create hcreate
    | some m =>
      obtain ⟨m'', hm'', horderly, -⟩ := hmove m hm
      obtain rfl := Option.some.inj (hm'.symm.trans hm'')
      exact horderly
  · rcases hpassage.jobs j loop hj with hj | ⟨-, m, m', hm, hstart, hm'⟩
    · obtain ⟨m, hm, hlt⟩ := h.jobs_lt j loop hj
      obtain ⟨m', hm', -, hchange⟩ := hmove m hm
      exact ⟨m', hm', Nat.lt_of_lt_of_le hlt hchange.launched_le⟩
    · obtain ⟨rfl, hlaunched, -⟩ := Monitor.launched_of_start hstart
      exact ⟨m', hm', hlaunched ▸ Nat.lt_succ_self _⟩

/-! ## Deeds -/

/-- What can be done in a session. -/
inductive Deed (s : Session) : Session → Prop
  /-- A task has its turn. -/
  | turn (id : Nat) : Deed s (s.turn id)
  /-- Time passes. -/
  | setClock (now : Nat) : Deed s (s.setClock now)
  /-- A task begins, and no loop of a monitor with it. -/
  | spawn {job : Job} : (∀ monitor loop, job ≠ .watch monitor (some loop)) → Deed s (s.spawn job).2
  /-- The ingestion of a run in the background is given up. -/
  | abort {id : Nat} {r : Run} : s.job? id = some (.ingest r) → Deed s (s.finish id (.ok ()))
  /-- A report is loaded, and the ingestion of the run ends. -/
  | load (r : Run) : Deed s (s.completeLoad r).2
  | deliver (r : Run) (loaded : Loaded) : Deed s (s.deliver r loaded).2
  | evict (fraction : Float) : Deed s (s.evict fraction).2
  | evictAny : Deed s s.evictAny.2
  | check (settings : MonitorSettings) : Deed s (s.check settings).2
  | stop {monitor : Nat} {w : Watch} {s' : Session} : s.watch? monitor = some w →
      s.stopMonitor monitor w = .ok s' → Deed s s'
  /-- The settings of a monitor change. -/
  | set {monitor : Nat} {w : Watch} (settings : MonitorSettings) : s.watch? monitor = some w →
      Deed s { s with
        watches := s.watches.set monitor { w with monitor := { w.monitor with settings } } }
  /-- There is a new monitor. -/
  | create {monitor : Nat} {settings : MonitorSettings} {m : Monitor} (listeners : List Listener) :
      s.watch? monitor = none → Monitor.create settings = .ok m →
      Deed s { s with watches := s.watches.set monitor ⟨m, listeners⟩ }
  /-- Anything else that leaves tasks and monitors alone. -/
  | others {s' : Session} : (∀ k, s'.monitor? k = s.monitor? k) → s'.tasks = s.tasks → Deed s s'

/-- Any number of deeds. -/
abbrev Deeds : Session → Session → Prop := Relation.ReflTransGen Deed

theorem happens_set {monitor : Nat} {w : Watch} {m : Monitor} {turns : Nat → Prop}
    (hw : s.watch? monitor = some w) (hmove : k = monitor → Move turns w.monitor m) :
    Happens k turns s { s with watches := s.watches.set monitor { w with monitor := m } } :=
  happens_of_move (monitor?_of_watch? hw) monitor?_set hmove

theorem happens_create {monitor : Nat} {settings : MonitorSettings} {m : Monitor}
    {turns : Nat → Prop} (listeners : List Listener) (hnone : s.watch? monitor = none)
    (hcreate : Monitor.create settings = .ok m) :
    Happens k turns s { s with watches := s.watches.set monitor ⟨m, listeners⟩ } := by
  by_cases hk : k = monitor
  · have hbefore : s.monitor? k = none := by rw [hk, monitor?, hnone]; rfl
    refine ⟨fun m' hm' => ?_, fun _ m' hm' => ?_⟩
    · cases hbefore.symm.trans hm'
    · rw [monitor?_set, if_pos hk] at hm'
      exact ⟨settings, Option.some.inj hm' ▸ hcreate⟩
  · exact happens_of_eq (monitor?_set.trans (if_neg hk))

theorem passage_setClock (now : Nat) : Passage k acts s (s.setClock now) := by
  have hmonitor : (s.setClock now).monitor? k = s.monitor? k :=
    monitor?_congr (watches_setClock now)
  refine passage_of_happens (happens_of_eq hmonitor) (keys_setClock now) fun j t ht => ?_
  rw [get?_setClock, ht, Option.map_some]
  unfold Stage.atTime
  split
  · next due number hstage =>
    split
    · exact .inr ⟨⟨due, number, hstage⟩, rfl⟩
    · exact .inl (by rw [← hstage])
  · exact .inl rfl

theorem passage_spawn (hs : Orderly k s) {job : Job}
    (hjob : ∀ monitor loop, job ≠ .watch monitor (some loop)) :
    Passage k acts s (s.spawn job).2 := by
  have htasks (j : Nat) : (s.spawn job).2.tasks.get? j =
      if j = s.tasks.size then some ⟨job, .ready⟩ else s.tasks.get? j := Table.get?_set
  have hnew : s.tasks.size ∉ s.tasks.keys := fun h => Nat.lt_irrefl _ (hs.tasks_lt _ h)
  have hentries :
      (s.spawn job).2.tasks.entries = s.tasks.entries ++ [(s.tasks.size, ⟨job, .ready⟩)] :=
    Table.put_of_not_mem hnew
  have hsize : (s.spawn job).2.tasks.size = s.tasks.size + 1 := by
    rw [Table.size, hentries, List.length_append]
    rfl
  refine ⟨happens_of_eq rfl, fun j loop hj => .inl ?_, fun j t _ ht => .inl ?_,
    hsize ▸ Nat.le_succ _, fun j hj => ?_⟩
  · rw [job?, htasks] at hj
    split at hj
    · exact absurd (Option.some.inj hj) (hjob k loop)
    · exact hj
  · have hne : j ≠ s.tasks.size := by
      rintro rfl
      cases (Table.get?_eq_none_iff.2 hnew).symm.trans ht
    rw [htasks, if_neg hne, ht]
  · rw [Table.keys, hentries, List.map_append, List.mem_append] at hj
    rcases hj with hj | hj
    · exact .inl hj
    · rw [List.mem_singleton.1 hj, hsize]
      exact .inr (Nat.lt_succ_self _)

/-- What a deed comes to. If a task that runs the monitor does something in it, it is the turn of
that task. -/
theorem Deed.passages (h : Deed s s') (hs : Orderly k s) : ∃ acts,
    Relation.ReflTransGen (Passage k acts) s s' ∧
      ∀ j loop, acts j → s.job? j = some (.watch k loop) → s' = s.turn j := by
  have hquiet {s' : Session} (h : Effects s s') : ∃ acts,
      Relation.ReflTransGen (Passage k acts) s s' ∧
        ∀ j loop, acts j → s.job? j = some (.watch k loop) → s' = s.turn j :=
    ⟨fun _ => False, Relation.ReflTransGen.mono (fun _ _ h => h.passage) _ _ h,
      fun _ _ hacts => hacts.elim⟩
  have hsingle {s' : Session} (h : Passage k (fun _ => False) s s') : ∃ acts,
      Relation.ReflTransGen (Passage k acts) s s' ∧
        ∀ j loop, acts j → s.job? j = some (.watch k loop) → s' = s.turn j :=
    ⟨_, .single h, fun _ _ hacts => hacts.elim⟩
  cases h with
  | turn id =>
    exact ⟨(· = id), effects_turn.passages, fun j _ hj _ => by rw [hj]⟩
  | setClock now => exact hsingle (passage_setClock now)
  | spawn hjob => exact hsingle (passage_spawn hs hjob)
  | @abort id r hjob =>
    refine ⟨(· = id), ?_, fun j loop hj hwatch => ?_⟩
    · exact (turn_finish (.ok ())).passages
    · cases (hj ▸ hjob).symm.trans hwatch
  | load r => exact hquiet (effects_completeLoad r)
  | deliver r loaded => exact hquiet (effects_deliver r loaded)
  | evict fraction => exact hquiet (effects_evict fraction)
  | evictAny => exact hquiet effects_evictAny
  | check settings => exact hquiet (effects_check settings)
  | stop hw hstop => exact hquiet (effects_stopMonitor hw hstop)
  | set settings hw =>
    exact hsingle (passage_of_tasks_eq (happens_set hw fun _ => .set settings) rfl)
  | @create monitor settings m listeners hnone hcreate =>
    exact hsingle (passage_of_tasks_eq (happens_create listeners hnone hcreate) rfl)
  | others hmonitor htasks =>
    exact hsingle (passage_of_tasks_eq (happens_of_eq (hmonitor k)) htasks)

theorem Orderly.of_passages (h : Orderly k s)
    (hpassages : Relation.ReflTransGen (Passage k acts) s s') : Orderly k s' := by
  induction hpassages with
  | refl => exact h
  | tail _ hpassage ih => exact ih.of_passage hpassage

/-- What is kept however the loops of a monitor change is kept. -/
theorem Orderly.monitor_of_passages (h : Orderly k s)
    (hpassages : Relation.ReflTransGen (Passage k acts) s s') {P : Monitor → Prop}
    (hP : ∀ m m', P m → m.LoopChange m' → P m') {m : Monitor} (hm : s.monitor? k = some m)
    (hPm : P m) : ∃ m', s'.monitor? k = some m' ∧ P m' := by
  induction hpassages with
  | refl => exact ⟨m, hm, hPm⟩
  | tail hbefore hpassage ih =>
    obtain ⟨m₁, hm₁, hPm₁⟩ := ih
    obtain ⟨m', hm', hmove⟩ := hpassage.monitor.moved m₁ hm₁
    have hgenerations := ((h.of_passages hbefore).monitor m₁ hm₁).1
    exact ⟨m', hm', hP m₁ m' hPm₁ (hmove.loopChange hgenerations)⟩

theorem Orderly.of_deed (h : Orderly k s) (hdeed : Deed s s') : Orderly k s' := by
  obtain ⟨acts, hpassages, -⟩ := hdeed.passages h
  exact h.of_passages hpassages

theorem Orderly.of_deeds (h : Orderly k s) (hdeeds : Deeds s s') : Orderly k s' := by
  induction hdeeds with
  | refl => exact h
  | tail _ hdeed ih => exact ih.of_deed hdeed

/-- What others do as regards a task and the monitor that it runs. -/
abbrev Asides (k task : Nat) : Session → Session → Prop :=
  Relation.ReflTransGen (Passage k (· ≠ task))

/-- A deed is the turn of a task that runs the monitor, or it is none of its own. -/
theorem Deed.cases (h : Deed s s') (hs : Orderly k s) {loop : Option Nat}
    (htask : s.job? task = some (.watch k loop)) : s' = s.turn task ∨ Asides k task s s' := by
  obtain ⟨acts, hpassages, hturn⟩ := h.passages hs
  by_cases hacts : acts task
  · exact .inl (hturn task loop hacts htask)
  · refine .inr (Relation.ReflTransGen.mono (fun _ _ hpassage => ?_) _ _ hpassages)
    exact hpassage.mono fun j hj hjtask => hacts (hjtask ▸ hj)

theorem Effects.asides (h : Effects s s') : Asides k task s s' :=
  Relation.ReflTransGen.mono (fun _ _ h => h.passage) _ _ h

/-- What others do leaves a task alone that waits for no time. -/
theorem get?_of_asides (h : Asides k task s s') {t : Task} (ht : s.tasks.get? task = some t)
    (htimed : ∀ due number, t.stage ≠ .timed due number) : s'.tasks.get? task = some t := by
  induction h with
  | refl => exact ht
  | tail _ hpassage ih => exact hpassage.get?_eq (fun hne => hne rfl) ih htimed

end ResultSearch.Session
