import Mathlib.Logic.Relation
import ResultSearch.Proofs.Outcome
import ResultSearch.Proofs.Session.Hooks
import ResultSearch.Proofs.Session.Tasks

/-!
# What the turn of a task does

A turn is made of a few kinds of effects. Evictions, loads and what is hooked to them can count a
run at a monitor, stop a monitor, and rouse tasks whose loops were called; nothing else of that
touches tasks or monitors. Besides, the task that has its turn changes its own job and stage, and a
task that runs a monitor begins a loop of it or lets its own loop have its turn.

* `Effect`, `Effects`: the effects that are no task's own; one lemma for each of the operations.
* `TurnEffect`, `effects_turn`: the effects of a turn.
* `Timeless`, `Leaves`: what a turn leaves as it was.
-/

namespace ResultSearch.Session

variable {s s' s'' : Session} {id : Nat}

/-! ## Effects that are no task's own -/

/-- Nothing changes that has to do with time, with tasks or with monitors. -/
structure Besides (s s' : Session) : Prop where
  clock_eq : s'.clock = s.clock
  shutdown_eq : s'.shutdown = s.shutdown
  limits_eq : s'.limits = s.limits
  tasks_eq : s'.tasks = s.tasks
  monitors_eq : ∀ k, s'.monitor? k = s.monitor? k

/-- An effect that evictions, loads and what is hooked to them can have. -/
inductive Effect : Session → Session → Prop
  | besides {s s' : Session} : Besides s s' → Effect s s'
  | counted (s : Session) (monitor : Nat) : Effect s (s.updateMonitor monitor Monitor.ingested)
  | stopped {s : Session} {monitor : Nat} {w : Watch} {m : Monitor} : s.watch? monitor = some w →
      w.monitor.stop = .ok m →
      Effect s { s with watches := s.watches.set monitor { w with monitor := m } }
  | roused {s : Session} {id : Nat} {t : Task} : s.tasks.get? id = some t → s.isRoused t = true →
      Effect s (s.makeReady id)

/-- Any number of such effects. -/
abbrev Effects : Session → Session → Prop := Relation.ReflTransGen Effect

theorem Besides.effects (h : Besides s s') : Effects s s' := .single (.besides h)

theorem Besides.of_watches (hclock : s'.clock = s.clock) (hshutdown : s'.shutdown = s.shutdown)
    (hlimits : s'.limits = s.limits) (htasks : s'.tasks = s.tasks)
    (hwatches : s'.watches = s.watches) : Besides s s' :=
  ⟨hclock, hshutdown, hlimits, htasks, fun _ => monitor?_congr hwatches⟩

/-- Only what has nothing to do with time, with tasks or with monitors is changed. -/
theorem effects_of_eq (hclock : s'.clock = s.clock) (hshutdown : s'.shutdown = s.shutdown)
    (hlimits : s'.limits = s.limits) (htasks : s'.tasks = s.tasks)
    (hwatches : s'.watches = s.watches) : Effects s s' :=
  .single (.besides (.of_watches hclock hshutdown hlimits htasks hwatches))

theorem effects_tell (event : Event) (l : Listener) : Effects s (s.tell event l) := by
  cases l with
  | recorder id =>
    rw [tell]
    split
    · split
      · exact .refl
      · exact effects_of_eq rfl rfl rfl rfl rfl
    · exact .refl
  | trigger monitor =>
    cases event with
    | index event =>
      cases event with
      | ingested id => exact .single (.counted s monitor)
      | evicted ids => exact .refl
    | stopped => exact .refl
  | backfill flag =>
    have hhalted : Effects s (s.updateFill flag Backfill.halt) := by
      obtain ⟨backfills, hupdated⟩ := s.exists_updateFill flag Backfill.halt
      rw [hupdated]
      exact effects_of_eq rfl rfl rfl rfl rfl
    cases event with
    | index event =>
      cases event with
      | ingested id => exact .refl
      | evicted ids => exact hhalted
    | stopped => exact hhalted

theorem effects_tellAll (event : Event) (ls : List Listener) :
    Effects s (ls.foldl (fun s l => s.tell event l) s) := by
  induction ls generalizing s with
  | nil => exact .refl
  | cons l rest ih => exact (effects_tell event l).trans ih

/-- Whether a loop was called depends on the clock and on its monitor. -/
theorem isRoused_congr (hclock : s'.clock = s.clock) (hwatches : s'.watches = s.watches)
    (t : Task) : s'.isRoused t = s.isRoused t := by
  unfold isRoused isCalled watch?
  rw [hclock, hwatches]

theorem effects_rouseCalled : Effects s s.rouseCalled := by
  have hrouse (l : List (Nat × Task)) (hl : (l.map Prod.fst).Nodup) (s : Session)
      (hthere : ∀ e ∈ l, s.tasks.get? e.1 = some e.2 ∧ s.isRoused e.2 = true) :
      Effects s (l.foldl (fun s e => s.makeReady e.1) s) := by
    induction l generalizing s with
    | nil => exact .refl
    | cons e rest ih =>
      obtain ⟨he, hrest⟩ := List.nodup_cons.1 hl
      obtain ⟨ht, hroused⟩ := hthere e List.mem_cons_self
      refine .head (.roused ht hroused) (ih hrest _ fun e' he' => ?_)
      obtain ⟨ht', hroused'⟩ := hthere e' (List.mem_cons_of_mem _ he')
      have hne : e'.1 ≠ e.1 := fun heq => he (heq ▸ List.mem_map_of_mem he')
      rw [get?_makeReady, if_neg hne, isRoused_congr clock_makeReady watches_makeReady]
      exact ⟨ht', hroused'⟩
  refine hrouse _ (Table.nodup_filter s.tasks.nodup) s fun e he => ?_
  obtain ⟨he, hroused⟩ := List.mem_filter.1 he
  exact ⟨Table.get?_eq_some_iff.2 he, hroused⟩

theorem effects_announce (event : IndexEvent) : Effects s (s.announce event) :=
  (effects_tellAll _ _).trans effects_rouseCalled

theorem effects_setIndex (index : Index) : Effects s { s with index } :=
  effects_of_eq rfl rfl rfl rfl rfl

/-! ## Evicting, stopping and loading -/

theorem effects_evicted (result : Except Error (List RunId) × Index) :
    Effects s (s.evicted result).2 := by
  obtain ⟨outcome, index⟩ := result
  match outcome with
  | .error _ => exact effects_setIndex index
  | .ok [] => exact effects_setIndex index
  | .ok (_ :: _) => exact (effects_setIndex index).trans (effects_announce _)

theorem effects_evict (fraction : Float) : Effects s (s.evict fraction).2 := effects_evicted _

theorem effects_evictAny : Effects s s.evictAny.2 := by
  have h := effects_evicted (s := s) s.index.evictAny
  unfold evictAny
  generalize s.evicted s.index.evictAny = result at h ⊢
  match result, h with
  | (.ok [], _), h => exact h
  | (.ok (_ :: _), _), h => exact h
  | (.error _, _), h => exact h

theorem effects_check (settings : MonitorSettings) : Effects s (s.check settings).2 := by
  have hsampled : Effects s { s with samples := s.samples + 1 } :=
    effects_of_eq rfl rfl rfl rfl rfl
  have h := hsampled.trans (effects_evicted (settings.check s.heapBytes s.index))
  unfold check
  dsimp only at h ⊢
  generalize evicted _ _ = result at h ⊢
  match result, h with
  | (.ok _, _), h => exact h
  | (.error _, _), h => exact h

theorem effects_stopMonitor {monitor : Nat} {w : Watch} (hw : s.watch? monitor = some w)
    (h : s.stopMonitor monitor w = .ok s') : Effects s s' := by
  obtain ⟨m, hstop, h⟩ := Outcome.bind_eq_ok_iff.1 h
  obtain rfl := Except.ok.inj h
  exact .head (.stopped hw hstop) ((effects_tellAll _ _).trans effects_rouseCalled)

theorem effects_deliver (r : Run) (loaded : Loaded) : Effects s (s.deliver r loaded).2 := by
  unfold deliver
  generalize s.index.deliver r loaded = result
  obtain ⟨outcome, index⟩ := result
  match outcome with
  | .error _ => exact effects_setIndex index
  | .ok () => exact (effects_setIndex index).trans (effects_announce _)

theorem effects_hookClosed : HookClosed Effects where
  refl _ := .refl
  trans := Relation.ReflTransGen.trans
  evictAny _ := effects_evictAny
  stop := effects_stopMonitor
  check _ settings := effects_check settings
  logged _ _ _ _ := effects_of_eq rfl rfl rfl rfl rfl

theorem effects_completeLoad (r : Run) : Effects s (s.completeLoad r).2 := by
  obtain ⟨loading, loaded, hloading, hdeliver⟩ := effects_hookClosed.exists_loading s r
  rw [hdeliver]
  exact hloading.trans (effects_deliver r loaded)

/-! ## Turns -/

/-- An effect that the turn of a task can have. -/
inductive TurnEffect (id : Nat) : Session → Session → Prop
  | effect {s s' : Session} : Effect s s' → TurnEffect id s s'
  /-- The task changes its job and its stage, but begins no loop of a monitor. -/
  | own {s s' : Session} : s'.clock = s.clock → s'.shutdown = s.shutdown →
      (∀ k, s'.monitor? k = s.monitor? k) → s'.tasks.keys = s.tasks.keys →
      (∀ k ≠ id, s'.tasks.get? k = s.tasks.get? k) →
      (∀ monitor loop, s'.job? id = some (.watch monitor (some loop)) →
        s.job? id = some (.watch monitor (some loop))) → TurnEffect id s s'
  /-- It begins a loop. -/
  | begun {s : Session} {w : Watch} {monitor loop : Nat} {m : Monitor} :
      s.job? id = some (.watch monitor none) → s.watch? monitor = some w →
      w.monitor.start = .ok (loop, m) →
      TurnEffect id s ({ s with watches := s.watches.set monitor { w with monitor := m } }.setJob id
        (.watch monitor (some loop)))
  /-- Its loop goes on if it has a reason, and has its turn. -/
  | looped {s : Session} {w : Watch} {monitor loop : Nat} {result : LoopTurn} {m : Monitor} :
      s.job? id = some (.watch monitor (some loop)) → s.watch? monitor = some w →
      (rouseLoop w.monitor loop s.clock).turn loop s.clock = some (result, m) →
      TurnEffect id s { s with watches := s.watches.set monitor { w with monitor := m } }

/-- Any number of such effects. -/
abbrev TurnEffects (id : Nat) : Session → Session → Prop := Relation.ReflTransGen (TurnEffect id)

theorem Effects.turn (h : Effects s s') : TurnEffects id s s' :=
  Relation.ReflTransGen.mono (fun _ _ => TurnEffect.effect) _ _ h

/-- A task changes what it does or what it waits for. -/
theorem turn_updateTask {f : Task → Task}
    (hf : ∀ t monitor loop, (f t).job = .watch monitor (some loop) →
      t.job = .watch monitor (some loop)) : TurnEffects id s (s.updateTask id f) := by
  refine .single (.own (clock_updateTask s id f) (shutdown_updateTask s id f) (fun k => ?_)
    (keys_updateTask s id f) (fun k hk => ?_) fun monitor loop h => ?_)
  · exact monitor?_congr (watches_updateTask _ _ _)
  · rw [get?_updateTask, if_neg hk]
  · rw [job?, get?_updateTask, if_pos rfl, Option.map_map] at h
    obtain ⟨t, ht, hjob⟩ := Option.map_eq_some_iff.1 h
    rw [job?, ht, Option.map_some, hf t monitor loop hjob]

theorem turn_setStage (stage : Stage) : TurnEffects id s (s.setStage id stage) :=
  turn_updateTask fun _ _ _ hjob => hjob

theorem turn_finish (outcome : Except Error Unit) : TurnEffects id s (s.finish id outcome) :=
  turn_setStage _

theorem turn_makeReady : TurnEffects id s (s.makeReady id) :=
  .tail (turn_setStage .ready) (.effect (.besides (.of_watches rfl rfl rfl rfl rfl)))

theorem turn_waitUntil (due : Nat) : TurnEffects id s (s.waitUntil id due) :=
  .tail (turn_setStage (.timed due s.timers)) (.effect (.besides (.of_watches rfl rfl rfl rfl rfl)))

theorem turn_park (r : Run) : TurnEffects id s (s.park id r) :=
  .tail (turn_setStage (.loading r)) (.effect (.besides (.of_watches rfl rfl rfl rfl rfl)))

theorem turn_setJob {job : Job} (hjob : ∀ monitor loop, job ≠ .watch monitor (some loop)) :
    TurnEffects id s (s.setJob id job) :=
  turn_updateTask fun _ monitor loop h => absurd h (hjob monitor loop)

theorem turn_besides (h : Besides s s') : TurnEffects id s s' := h.effects.turn

theorem turn_setLimits (limits : List Nat) : TurnEffects id s { s with limits } :=
  .single (.own rfl rfl (fun _ => rfl) rfl (fun _ _ => rfl) fun _ _ h => h)

/-! ### Monitors -/

/-- The turn of a loop: it has none, it ends, or it takes a sample and sleeps. -/
theorem turnLoop_cases (id loop : Nat) {w : Watch} {monitor : Nat}
    (hw : s.watch? monitor = some w) :
    (rouseLoop w.monitor loop s.clock).turn loop s.clock = none ∧
        s.turnLoop id monitor loop = s ∨
      (∃ m, (rouseLoop w.monitor loop s.clock).turn loop s.clock = some (.ended, m) ∧
        s.turnLoop id monitor loop =
          { s with watches := s.watches.set monitor { w with monitor := m } }.finish id
            (.error (.monitor .stopped))) ∨
      ∃ m sampled, (rouseLoop w.monitor loop s.clock).turn loop s.clock = some (.sampled, m) ∧
        Effects { s with watches := s.watches.set monitor { w with monitor := m } } sampled ∧
        (s.turnLoop id monitor loop = sampled.waitUntil id (sampled.clock + m.settings.interval) ∨
          s.turnLoop id monitor loop =
            (sampled.waitUntil id (sampled.clock + m.settings.interval)).makeReady id) := by
  unfold turnLoop
  rw [hw]
  dsimp only
  split
  · next hnone => exact .inl ⟨hnone, rfl⟩
  · next m hended => exact .inr (.inl ⟨m, hended, rfl⟩)
  · next m hsampled =>
    refine .inr (.inr ⟨m, _, hsampled, effects_check m.settings, ?_⟩)
    split
    · exact .inr rfl
    · exact .inl rfl

theorem turn_turnLoop {monitor loop : Nat} (hjob : s.job? id = some (.watch monitor (some loop))) :
    TurnEffects id s (s.turnLoop id monitor loop) := by
  cases hw : s.watch? monitor with
  | none =>
    rw [turnLoop, hw]
  | some w =>
    obtain ⟨-, h⟩ | ⟨m, hturn, h⟩ | ⟨m, sampled, hturn, heffects, h⟩ :=
      turnLoop_cases id loop hw
    · rw [h]
    · rw [h]
      exact .head (.looped hjob hw hturn) (turn_finish _)
    · have hsampled : TurnEffects id s sampled := .head (.looped hjob hw hturn) heffects.turn
      have hwaits := hsampled.trans (turn_waitUntil (sampled.clock + m.settings.interval))
      rcases h with h | h
      · rw [h]
        exact hwaits
      · rw [h]
        exact hwaits.trans turn_makeReady

theorem job?_setJob {job : Job} (h : (s.job? id).isSome) :
    (s.setJob id job).job? id = some job := by
  rw [job?, Option.isSome_map] at h
  obtain ⟨t, ht⟩ := Option.isSome_iff_exists.1 h
  rw [job?, setJob, get?_updateTask, if_pos rfl, ht]
  rfl

theorem turn_turnStart {monitor : Nat} (hjob : s.job? id = some (.watch monitor none)) :
    TurnEffects id s (s.turnStart id monitor) := by
  unfold turnStart
  split
  · exact .refl
  · next w hw =>
    split
    · exact turn_finish _
    · next loop m hstart =>
      refine .head (.begun hjob hw hstart) (turn_turnLoop (job?_setJob ?_))
      have hthere : (s.job? id).isSome := by rw [hjob]; rfl
      exact hthere

/-! ### Polling -/

theorem turn_awaitTick (t : Ticker) : TurnEffects id s (s.awaitTick id t) := by
  unfold awaitTick
  split
  · exact turn_makeReady
  · exact turn_waitUntil _

theorem turn_offerRuns (interval maxRuns : Nat) (t : Ticker) (p : PollPass) (runs : List Run) :
    TurnEffects id s (s.offerRuns id interval maxRuns t p runs) := by
  induction runs generalizing p with
  | nil => exact (turn_setJob fun _ _ h => by cases h).trans (turn_awaitTick t)
  | cons r rest ih =>
    rw [offerRuns]
    split
    · exact ih _
    · exact ((effects_setIndex _).turn.trans (turn_setJob fun _ _ h => by cases h)).trans
        (turn_park r)

theorem turn_receiveRuns (interval maxRuns : Nat) (t : Ticker) :
    TurnEffects id s (s.receiveRuns id interval maxRuns t) := by
  unfold receiveRuns
  split
  · exact (turn_setJob fun _ _ h => by cases h).trans (turn_setStage _)
  · split
    · exact turn_offerRuns _ _ _ _ _
    · exact turn_offerRuns _ _ _ _ _

theorem turn_tickPoll (interval maxRuns : Nat) (t : Ticker) :
    TurnEffects id s (s.tickPoll id interval maxRuns t) := by
  unfold tickPoll
  split
  · exact turn_finish _
  · exact (turn_setLimits _).trans (turn_receiveRuns _ _ _)

theorem turn_tickRefresh (kind : LoopKind) (interval : Nat) (t : Ticker) :
    TurnEffects id s (s.tickRefresh id kind interval t) := by
  unfold tickRefresh
  split
  · exact turn_finish _
  · refine .trans (.trans (turn_besides ?_) (turn_setJob fun _ _ h => by cases h))
      (turn_awaitTick _)
    split <;> split <;> exact .of_watches rfl rfl rfl rfl rfl

theorem turn_turnJob {job : Job} (hjob : s.job? id = some job) :
    TurnEffects id s (s.turnJob id job) := by
  cases job with
  | watch monitor loop =>
    cases loop with
    | none => exact turn_turnStart hjob
    | some loop => exact turn_turnLoop hjob
  | ingest r =>
    rw [turnJob]
    split
    · exact turn_finish _
    · exact (effects_setIndex _).turn.trans (turn_park r)
  | poll interval maxRuns ticker pass =>
    cases ticker with
    | none =>
      rw [turnJob]
      split
      · exact turn_finish _
      · exact (turn_setJob fun _ _ h => by cases h).trans (turn_awaitTick _)
    | some t => exact turn_tickPoll interval maxRuns t
  | refresh kind interval ticker =>
    cases ticker with
    | none =>
      rw [turnJob]
      split
      · exact turn_finish _
      · exact turn_tickRefresh kind interval _
    | some t => exact turn_tickRefresh kind interval t

theorem turn_resume (job : Job) (outcome : Except Error Unit) :
    TurnEffects id s (s.resume id job outcome) := by
  unfold resume
  split
  · exact turn_offerRuns _ _ _ _ _
  · exact turn_finish _

theorem turn_turnLoad (job : Job) (r : Run) : TurnEffects id s (s.turnLoad id job r) := by
  unfold turnLoad
  split
  · exact turn_setStage _
  · exact (effects_completeLoad r).turn.trans (turn_resume _ _)

theorem turn_turnListing (job : Job) : TurnEffects id s (s.turnListing id job) := by
  unfold turnListing
  split
  · exact turn_receiveRuns _ _ _
  · exact .refl

/-- Whatever a task does in its turn, it has effects of these kinds only. -/
theorem effects_turn : TurnEffects id s (s.turn id) := by
  unfold turn
  split
  · exact .refl
  · next t ht =>
    split
    · exact turn_turnJob (job?_of_get? ht)
    · exact turn_turnLoad _ _
    · exact turn_turnLoad _ _
    · exact turn_turnListing _
    · exact .refl
    · exact .refl

/-! ## What is left as it was -/

/-- No time passes, and no loop is told to end. -/
structure Timeless (s s' : Session) : Prop where
  clock_eq : s'.clock = s.clock
  shutdown_eq : s'.shutdown = s.shutdown

/-- Nor is a task changed. -/
structure Leaves (task : Nat) (s s' : Session) : Prop extends Timeless s s' where
  task_eq : s'.tasks.get? task = s.tasks.get? task

/-- A task runs a loop of a monitor, which others can call. -/
def RunsLoop (s : Session) (task : Nat) : Prop :=
  ∃ monitor loop, s.job? task = some (.watch monitor (some loop))

variable {task : Nat}

theorem Timeless.trans (h : Timeless s s') (h' : Timeless s' s'') : Timeless s s'' :=
  ⟨h'.clock_eq.trans h.clock_eq, h'.shutdown_eq.trans h.shutdown_eq⟩

theorem Leaves.refl (s : Session) : Leaves task s s := ⟨⟨rfl, rfl⟩, rfl⟩

theorem Leaves.trans (h : Leaves task s s') (h' : Leaves task s' s'') : Leaves task s s'' :=
  ⟨h.toTimeless.trans h'.toTimeless, h'.task_eq.trans h.task_eq⟩

theorem Leaves.runsLoop_iff (h : Leaves task s s') : s'.RunsLoop task ↔ s.RunsLoop task := by
  rw [RunsLoop, RunsLoop, job?, job?, h.task_eq]

theorem Effect.timeless (h : Effect s s') : Timeless s s' := by
  cases h with
  | besides h => exact ⟨h.clock_eq, h.shutdown_eq⟩
  | counted monitor => exact ⟨clock_updateMonitor, shutdown_updateMonitor⟩
  | stopped hw hstop => exact ⟨rfl, rfl⟩
  | roused ht hroused => exact ⟨clock_makeReady, shutdown_makeReady⟩

theorem Effects.limits_eq (h : Effects s s') : s'.limits = s.limits := by
  induction h with
  | refl => rfl
  | tail _ hstep ih =>
    refine Eq.trans ?_ ih
    cases hstep with
    | besides h => exact h.limits_eq
    | counted monitor => exact limits_updateMonitor
    | stopped hw hstop => rfl
    | roused ht hroused => exact limits_updateTask _ _ _

/-- Only tasks that run loops of monitors are concerned by what is no task's own. -/
theorem Effect.leaves (h : Effect s s') (htask : ¬ s.RunsLoop task) : Leaves task s s' := by
  refine ⟨h.timeless, ?_⟩
  cases h with
  | besides h => rw [h.tasks_eq]
  | counted monitor => rw [tasks_updateMonitor]
  | stopped hw hstop => rfl
  | @roused id t ht hroused =>
    have hne : task ≠ id := by
      rintro rfl
      unfold isRoused at hroused
      split at hroused
      · next monitor loop _ _ hjob _ => exact htask ⟨monitor, loop, by rw [job?, ht, ← hjob]; rfl⟩
      · cases hroused
    rw [get?_makeReady, if_neg hne]

theorem Effects.leaves (h : Effects s s') (htask : ¬ s.RunsLoop task) : Leaves task s s' := by
  induction h with
  | refl => exact .refl s
  | tail _ hstep ih => exact ih.trans (hstep.leaves (mt ih.runsLoop_iff.1 htask))

theorem TurnEffect.timeless (h : TurnEffect id s s') : Timeless s s' := by
  cases h with
  | effect h => exact h.timeless
  | own hclock hshutdown _ _ _ _ => exact ⟨hclock, hshutdown⟩
  | begun _ _ _ => exact ⟨clock_updateTask _ id _, shutdown_updateTask _ id _⟩
  | looped _ _ _ => exact ⟨rfl, rfl⟩

/-- The turn of a task is no concern of the others. -/
theorem TurnEffect.leaves (h : TurnEffect id s s') (hne : task ≠ id) (htask : ¬ s.RunsLoop task) :
    Leaves task s s' := by
  refine ⟨h.timeless, ?_⟩
  cases h with
  | effect h => exact (h.leaves htask).task_eq
  | own _ _ _ _ htasks _ => exact htasks task hne
  | begun _ _ _ => rw [setJob, get?_updateTask, if_neg hne]
  | looped _ _ _ => rfl

theorem TurnEffects.timeless (h : TurnEffects id s s') : Timeless s s' := by
  induction h with
  | refl => exact ⟨rfl, rfl⟩
  | tail _ hstep ih => exact ih.trans hstep.timeless

theorem TurnEffects.leaves (h : TurnEffects id s s') (hne : task ≠ id)
    (htask : ¬ s.RunsLoop task) : Leaves task s s' := by
  induction h with
  | refl => exact .refl s
  | tail _ hstep ih => exact ih.trans (hstep.leaves hne (mt ih.runsLoop_iff.1 htask))

theorem timeless_turn : Timeless s (s.turn id) := effects_turn.timeless

theorem leaves_turn (hne : task ≠ id) (htask : ¬ s.RunsLoop task) : Leaves task s (s.turn id) :=
  effects_turn.leaves hne htask

end ResultSearch.Session
