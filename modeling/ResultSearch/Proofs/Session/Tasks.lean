import ResultSearch.Proofs.Table
import ResultSearch.Session.Scheduler

/-!
# Tasks, monitors and time in a session

Tasks and monitors are known by what they are after every operation on them.

* `get?_updateTask`, `get?_foldl_makeReady`, `get?_rouseCalled`: the tasks.
* `monitor?`, `monitor?_updateMonitor`: the monitors.
* `mem_dueTasks`, `get?_setClock`: the tasks when the clock is set.
-/

namespace ResultSearch

/-- What a task waits for when the clock is set. -/
def Stage.atTime (now : Nat) : Stage → Stage
  | .timed due number => if due ≤ now then .ready else .timed due number
  | stage => stage

namespace Session

variable {s : Session} {id : Nat}

/-! ## Tasks -/

/-- What a task is about. -/
def job? (s : Session) (id : Nat) : Option Job := (s.tasks.get? id).map Task.job

theorem job?_of_get? {t : Task} (h : s.tasks.get? id = some t) : s.job? id = some t.job := by
  rw [job?, h]
  rfl

theorem turn_eq_turnJob {job : Job} (h : s.tasks.get? id = some ⟨job, .ready⟩) :
    s.turn id = s.turnJob id job := by
  rw [turn, h]

section UpdateTask

variable (s) (id : Nat) (f : Task → Task)

theorem get?_updateTask (k : Nat) : (s.updateTask id f).tasks.get? k =
    if k = id then (s.tasks.get? id).map f else s.tasks.get? k := by
  unfold updateTask
  split
  · next t ht =>
    rw [ht]
    exact Table.get?_set
  · next hnone =>
    split
    · next hk => rw [hk, hnone]; rfl
    · rfl

theorem keys_updateTask : (s.updateTask id f).tasks.keys = s.tasks.keys := by
  unfold updateTask
  split
  · next t ht => exact Table.keys_set_of_get? ht
  · rfl

@[simp] theorem watches_updateTask : (s.updateTask id f).watches = s.watches := by
  unfold updateTask
  split <;> rfl

@[simp] theorem clock_updateTask : (s.updateTask id f).clock = s.clock := by
  unfold updateTask
  split <;> rfl

@[simp] theorem shutdown_updateTask : (s.updateTask id f).shutdown = s.shutdown := by
  unfold updateTask
  split <;> rfl

@[simp] theorem limits_updateTask : (s.updateTask id f).limits = s.limits := by
  unfold updateTask
  split <;> rfl

end UpdateTask

theorem get?_makeReady (k : Nat) : (s.makeReady id).tasks.get? k =
    if k = id then (s.tasks.get? id).map fun t => { t with stage := .ready }
    else s.tasks.get? k :=
  get?_updateTask s id _ k

@[simp] theorem watches_makeReady : (s.makeReady id).watches = s.watches :=
  watches_updateTask s id _

@[simp] theorem clock_makeReady : (s.makeReady id).clock = s.clock := clock_updateTask s id _

@[simp] theorem shutdown_makeReady : (s.makeReady id).shutdown = s.shutdown :=
  shutdown_updateTask s id _

@[simp] theorem watches_foldl_makeReady (ids : List Nat) :
    (ids.foldl makeReady s).watches = s.watches := by
  induction ids generalizing s with
  | nil => rfl
  | cons id rest ih => rw [List.foldl_cons, ih, watches_makeReady]

@[simp] theorem clock_foldl_makeReady (ids : List Nat) :
    (ids.foldl makeReady s).clock = s.clock := by
  induction ids generalizing s with
  | nil => rfl
  | cons id rest ih => rw [List.foldl_cons, ih, clock_makeReady]

@[simp] theorem shutdown_foldl_makeReady (ids : List Nat) :
    (ids.foldl makeReady s).shutdown = s.shutdown := by
  induction ids generalizing s with
  | nil => rfl
  | cons id rest ih => rw [List.foldl_cons, ih, shutdown_makeReady]

theorem keys_foldl_makeReady (ids : List Nat) :
    (ids.foldl makeReady s).tasks.keys = s.tasks.keys := by
  induction ids generalizing s with
  | nil => rfl
  | cons id rest ih => rw [List.foldl_cons, ih, makeReady, setStage, keys_updateTask]

/-- Making tasks ready one after the other makes each of them ready. -/
theorem get?_foldl_makeReady (ids : List Nat) (k : Nat) :
    (ids.foldl makeReady s).tasks.get? k =
      if k ∈ ids then (s.tasks.get? k).map fun t => { t with stage := .ready }
      else s.tasks.get? k := by
  induction ids generalizing s with
  | nil => rfl
  | cons id rest ih =>
    rw [List.foldl_cons, ih, get?_makeReady]
    by_cases hk : k = id
    · subst hk
      cases s.tasks.get? k <;> simp
    · simp [hk]

/-- The tasks whose loops were called become ready. -/
theorem get?_rouseCalled (k : Nat) : s.rouseCalled.tasks.get? k =
    (s.tasks.get? k).map fun t => if s.isRoused t then { t with stage := .ready } else t := by
  have hready : s.rouseCalled =
      ((s.tasks.entries.filter fun e => s.isRoused e.2).map Prod.fst).foldl makeReady s := by
    rw [List.foldl_map]
    rfl
  rw [hready, get?_foldl_makeReady]
  cases ht : s.tasks.get? k with
  | none => simp
  | some t =>
    have hmem : k ∈ (s.tasks.entries.filter fun e => s.isRoused e.2).map Prod.fst ↔
        s.isRoused t = true := by
      simp only [List.mem_map, List.mem_filter]
      constructor
      · rintro ⟨e, ⟨he, hroused⟩, rfl⟩
        obtain rfl := Option.some.inj (ht.symm.trans (Table.get?_eq_some_iff.2 he))
        exact hroused
      · exact fun hroused => ⟨(k, t), ⟨Table.get?_eq_some_iff.1 ht, hroused⟩, rfl⟩
    simp only [hmem]
    by_cases hroused : s.isRoused t = true <;> simp [hroused]

/-! ## When the clock is set -/

/-- The tasks whose time comes by `now`, those that began to wait first before the others. -/
def dueTasks (s : Session) (now : Nat) : List Nat :=
  ((s.timed.filter fun e => decide (e.1 ≤ now)).mergeSort fun a b => decide (a.2.1 ≤ b.2.1)).map
    fun e => e.2.2

theorem mem_dueTasks {now k : Nat} : k ∈ s.dueTasks now ↔
    ∃ t due number, s.tasks.get? k = some t ∧ t.stage = .timed due number ∧ due ≤ now := by
  simp only [dueTasks, List.mem_map, List.mem_mergeSort, List.mem_filter, decide_eq_true_eq, timed,
    List.mem_filterMap]
  constructor
  · rintro ⟨_, ⟨⟨⟨k', t⟩, he, hstage⟩, hdue⟩, rfl⟩
    dsimp only at hstage
    split at hstage
    · next due number htimed =>
      obtain rfl := Option.some.inj hstage
      exact ⟨t, due, number, Table.get?_eq_some_iff.2 he, htimed, hdue⟩
    · cases hstage
  · rintro ⟨t, due, number, ht, htimed, hdue⟩
    exact ⟨(due, number, k), ⟨⟨(k, t), Table.get?_eq_some_iff.1 ht, by simp [htimed]⟩, hdue⟩, rfl⟩

theorem setClock_eq (now : Nat) :
    s.setClock now = (s.dueTasks now).foldl makeReady { s with clock := now } := by
  rw [dueTasks, List.foldl_map]
  rfl

@[simp] theorem clock_setClock (now : Nat) : (s.setClock now).clock = now := by
  rw [setClock_eq, clock_foldl_makeReady]

@[simp] theorem shutdown_setClock (now : Nat) : (s.setClock now).shutdown = s.shutdown := by
  rw [setClock_eq, shutdown_foldl_makeReady]

@[simp] theorem watches_setClock (now : Nat) : (s.setClock now).watches = s.watches := by
  rw [setClock_eq, watches_foldl_makeReady]

theorem keys_setClock (now : Nat) : (s.setClock now).tasks.keys = s.tasks.keys := by
  rw [setClock_eq, keys_foldl_makeReady]

/-- When the clock is set, the tasks become ready whose time has come. -/
theorem get?_setClock (now k : Nat) : (s.setClock now).tasks.get? k =
    (s.tasks.get? k).map fun t => { t with stage := t.stage.atTime now } := by
  rw [setClock_eq, get?_foldl_makeReady]
  cases ht : s.tasks.get? k with
  | none => simp
  | some t =>
    split
    · next hk =>
      obtain ⟨t', due, number, ht', hstage, hdue⟩ := mem_dueTasks.1 hk
      obtain rfl := Option.some.inj (ht.symm.trans ht')
      simp [hstage, hdue, Stage.atTime]
    · next hk =>
      have hstage : t.stage.atTime now = t.stage := by
        unfold Stage.atTime
        split
        · next due number htimed =>
          exact (if_neg fun hdue => hk (mem_dueTasks.2 ⟨t, due, number, ht, htimed, hdue⟩)).trans
            htimed.symm
        · rfl
      rw [Option.map_some, hstage]

/-! ## Monitors -/

/-- The monitor with a number. -/
def monitor? (s : Session) (monitor : Nat) : Option Monitor :=
  (s.watch? monitor).map Watch.monitor

theorem monitor?_congr {s' : Session} {k : Nat} (h : s'.watches = s.watches) :
    s'.monitor? k = s.monitor? k := by
  rw [monitor?, monitor?, watch?, watch?, h]

theorem monitor?_set {monitor k : Nat} {w : Watch} :
    ({ s with watches := s.watches.set monitor w } : Session).monitor? k =
      if k = monitor then some w.monitor else s.monitor? k := by
  rw [monitor?, watch?, Table.get?_set]
  split <;> rfl

theorem monitor?_updateMonitor {monitor k : Nat} {f : Monitor → Monitor} :
    (s.updateMonitor monitor f).monitor? k =
      if k = monitor then (s.monitor? monitor).map f else s.monitor? k := by
  unfold updateMonitor
  split
  · next w hw =>
    have hmonitor : s.monitor? monitor = some w.monitor := by rw [monitor?, watch?, hw]; rfl
    rw [monitor?_set, hmonitor]
    rfl
  · next hnone =>
    have hmonitor : s.monitor? monitor = none := by rw [monitor?, watch?, hnone]; rfl
    split
    · next hk => rw [hk, hmonitor]; rfl
    · rfl

section UpdateMonitor

variable {monitor : Nat} {f : Monitor → Monitor}

@[simp] theorem clock_updateMonitor : (s.updateMonitor monitor f).clock = s.clock := by
  unfold updateMonitor
  split <;> rfl

@[simp] theorem shutdown_updateMonitor : (s.updateMonitor monitor f).shutdown = s.shutdown := by
  unfold updateMonitor
  split <;> rfl

@[simp] theorem limits_updateMonitor : (s.updateMonitor monitor f).limits = s.limits := by
  unfold updateMonitor
  split <;> rfl

@[simp] theorem tasks_updateMonitor : (s.updateMonitor monitor f).tasks = s.tasks := by
  unfold updateMonitor
  split <;> rfl

end UpdateMonitor

end Session

end ResultSearch
