import ResultSearch.Proofs.Outcome
import ResultSearch.Proofs.Table
import ResultSearch.Session.Filling
import ResultSearch.Session.Loading

/-!
# Who listens in a session, and what the flag of a backfill hears

Telling listeners of something never changes who listens. Of all that they are told a flag goes down
with evictions and with stops, and it stays down.

* `Session.Heard`: one session comes from another with the same listeners, and a flag was taken down
  or left as it was.
* `heard_announce`, `heard_evict`, `heard_evictAny`, `heard_check`, `heard_stopMonitor`,
  `heard_deliver`: one lemma for each of the operations.
* `sameOthers_beginFill`, `sameOthers_lowerFlag`: when a flag goes up and down, the other listeners
  stay, flags of other backfills among them.
* `Adds`, `Adds.beginFill`, `Adds.lowerFlag`: what a flag that was raised adds to those who listened
  before, and that nothing is left of it when it is taken down; `unheard_freshFlag`: a fresh flag did
  not listen before.
-/

namespace ResultSearch

/-- Whether an event takes the flag of a backfill down. -/
def Event.halts : Event → Bool
  | .index (.ingested _) => false
  | .index (.evicted _) => true
  | .stopped => true

/-- Whether evicting came to runs that are gone, so that the listeners are told. -/
def evictsSome : Except Error (List RunId) → Bool
  | .ok ids => !ids.isEmpty
  | .error _ => false

theorem Backfill.halt_halt (b : Backfill) : b.halt.halt = b.halt := rfl

/-- Whether a flag, if there is one, is among some listeners. -/
def flagIn (flag : Option Nat) (ls : List Listener) : Bool :=
  flag.any fun k => ls.contains (.backfill k)

theorem flagIn_cons (flag : Option Nat) (l : Listener) (ls : List Listener) :
    flagIn flag (l :: ls) = (flagIn flag [l] || flagIn flag ls) := by
  cases flag <;> simp [flagIn]

namespace Session

variable {s s' s'' : Session} {flag : Option Nat}

/-- Whether the flag of a backfill listens to the index. -/
def flagOnIndex (s : Session) (flag : Option Nat) : Bool := flagIn flag s.indexListeners

/-- Whether it listens to a monitor, if there is such a monitor. -/
def flagOnMonitor (s : Session) (flag : Option Nat) (monitor : Nat) : Option Bool :=
  (s.watch? monitor).map fun w => flagIn flag w.listeners

/-! ## Changing backfills -/

theorem backfill?_setFill (k : Nat) (b : Backfill) (x : Nat) :
    (s.setFill k b).backfill? x = if x = k then some b else s.backfill? x :=
  Table.get?_set

theorem backfill?_setFill_self (k : Nat) (b : Backfill) :
    (s.setFill k b).backfill? k = some b :=
  Table.get?_set_self _ _ _

theorem backfill?_updateFill (k : Nat) (f : Backfill → Backfill) (x : Nat) :
    (s.updateFill k f).backfill? x =
      if x = k then (s.backfill? x).map f else s.backfill? x := by
  unfold updateFill
  split
  · next b hb =>
    rw [backfill?_setFill]
    split
    · next hx => rw [hx, hb, Option.map_some]
    · rfl
  · next hnone =>
    split
    · next hx => rw [hx, hnone, Option.map_none]
    · rfl

theorem updateFill_frame (k : Nat) (f : Backfill → Backfill) :
    (s.updateFill k f).indexListeners = s.indexListeners ∧
      (s.updateFill k f).watches = s.watches := by
  obtain ⟨backfills, hupdated⟩ := s.exists_updateFill k f
  rw [hupdated]
  exact ⟨rfl, rfl⟩

/-! ## What operations leave as it is -/

/-- Both sessions have the same listeners, and the flag of a backfill was taken down if it was told of
something, and else left as it was. -/
structure Heard (told : Bool) (flag : Option Nat) (s s' : Session) : Prop where
  index : s'.indexListeners = s.indexListeners
  monitors : ∀ m, (s'.watch? m).map Watch.listeners = (s.watch? m).map Watch.listeners
  backfill : flag.bind s'.backfill? =
    if told then (flag.bind s.backfill?).map Backfill.halt else flag.bind s.backfill?

theorem Heard.refl (flag : Option Nat) (s : Session) : Heard false flag s s := ⟨rfl, fun _ => rfl, rfl⟩

theorem Heard.trans {told told' : Bool} (h : Heard told flag s s')
    (h' : Heard told' flag s' s'') : Heard (told || told') flag s s'' := by
  refine ⟨h'.index.trans h.index, fun m => (h'.monitors m).trans (h.monitors m), ?_⟩
  rw [h'.backfill, h.backfill]
  cases told <;> cases told' <;> simp [Function.comp_def, Backfill.halt_halt]

/-- What changes neither listeners nor filling. -/
theorem Heard.of_eq (hindex : s'.indexListeners = s.indexListeners)
    (hwatches : s'.watches = s.watches)
    (hbackfills : s'.backfills = s.backfills) : Heard false flag s s' :=
  have hsame : s'.backfill? = s.backfill? := by
    funext k
    rw [backfill?, backfill?, hbackfills]
  ⟨hindex, fun m => by rw [watch?, watch?, hwatches], congrArg flag.bind hsame⟩

theorem Heard.flagOnIndex_eq {told : Bool} (h : Heard told flag s s') :
    s'.flagOnIndex flag = s.flagOnIndex flag := by
  rw [flagOnIndex, flagOnIndex, h.index]

theorem flagOnMonitor_eq_map (s : Session) (flag : Option Nat) (monitor : Nat) :
    s.flagOnMonitor flag monitor =
      ((s.watch? monitor).map Watch.listeners).map (flagIn flag) := by
  rw [flagOnMonitor, Option.map_map]
  rfl

theorem Heard.flagOnMonitor_eq {told : Bool} (h : Heard told flag s s') (monitor : Nat) :
    s'.flagOnMonitor flag monitor = s.flagOnMonitor flag monitor := by
  rw [flagOnMonitor_eq_map, flagOnMonitor_eq_map, h.monitors]

/-! ## Telling -/

theorem watch?_set (watches : Table Nat Watch) (m k : Nat) (w : Watch) :
    ({ s with watches := watches.set m w } : Session).watch? k =
      if k = m then some w else watches.get? k :=
  Table.get?_set

theorem heard_setWatch {m : Nat} {w w' : Watch} (hw : s.watch? m = some w)
    (hlisteners : w'.listeners = w.listeners) :
    Heard false flag s { s with watches := s.watches.set m w' } := by
  refine ⟨rfl, fun k => ?_, rfl⟩
  rw [watch?_set]
  split
  · next hk => rw [hk, hw, Option.map_some, Option.map_some, hlisteners]
  · rfl

theorem heard_updateMonitor (m : Nat) (f : Monitor → Monitor) :
    Heard false flag s (s.updateMonitor m f) := by
  unfold updateMonitor
  split
  · next w hw => exact heard_setWatch hw rfl
  · exact .refl flag s

/-- A flag goes down alone. -/
theorem heard_halt (k : Nat) :
    Heard (flagIn flag [.backfill k]) flag s (s.updateFill k Backfill.halt) := by
  obtain ⟨hindex, hwatches⟩ := updateFill_frame (s := s) k Backfill.halt
  refine ⟨hindex, fun m => by rw [watch?, watch?, hwatches], ?_⟩
  cases flag with
  | none => cases flagIn none [.backfill k] <;> rfl
  | some x =>
    have htold : flagIn (some x) [.backfill k] = decide (x = k) := by simp [flagIn]
    rw [htold, Option.bind_some, Option.bind_some, backfill?_updateFill]
    by_cases hx : x = k
    · rw [if_pos hx, if_pos (decide_eq_true hx)]
    · rw [if_neg hx, if_neg (by simpa using hx)]

theorem heard_tell (event : Event) (l : Listener) :
    Heard (flagIn flag [l] && event.halts) flag s (s.tell event l) := by
  have hdeaf (l : Listener) (hl : l.flag? = none) : flagIn flag [l] = false := by
    cases flag <;> cases l <;> simp_all [flagIn, Listener.flag?]
  cases l with
  | recorder id =>
    rw [hdeaf _ rfl, Bool.false_and]
    simp only [tell]
    split
    · split
      · exact .refl flag s
      · exact .of_eq rfl rfl rfl
    · exact .refl flag s
  | trigger monitor =>
    rw [hdeaf _ rfl, Bool.false_and]
    simp only [tell]
    split
    · exact heard_updateMonitor monitor _
    · exact .refl flag s
  | backfill k =>
    cases event with
    | stopped =>
      rw [Event.halts, Bool.and_true]
      exact heard_halt k
    | index event =>
      cases event with
      | ingested run =>
        rw [Event.halts, Bool.and_false]
        exact .refl flag s
      | evicted runs =>
        rw [Event.halts, Bool.and_true]
        exact heard_halt k

theorem heard_tellAll (event : Event) (ls : List Listener) :
    Heard (flagIn flag ls && event.halts) flag s (ls.foldl (fun s l => s.tell event l) s) := by
  induction ls generalizing s with
  | nil =>
    have hdeaf : flagIn flag [] = false := by cases flag <;> rfl
    rw [hdeaf]
    exact .refl flag s
  | cons l rest ih =>
    rw [flagIn_cons, Bool.and_or_distrib_right]
    exact (heard_tell event l).trans ih

theorem heard_makeReady (id : Nat) : Heard false flag s (s.makeReady id) := by
  unfold makeReady setStage updateTask
  split <;> exact .of_eq rfl rfl rfl

theorem heard_rouseCalled : Heard false flag s s.rouseCalled := by
  unfold rouseCalled
  generalize s.tasks.entries.filter (fun e => s.isRoused e.2) = roused
  induction roused generalizing s with
  | nil => exact .refl flag s
  | cons e rest ih => exact (heard_makeReady e.1).trans ih

/-- A flag hears of what those who listen to the index are told if it is one of them. -/
theorem heard_announce (event : IndexEvent) :
    Heard (s.flagOnIndex flag && (Event.index event).halts) flag s (s.announce event) := by
  simpa [announce, flagOnIndex] using
    (heard_tellAll (.index event) s.indexListeners).trans heard_rouseCalled

/-! ## Evicting, stopping and loading -/

theorem heard_setIndex (index : Index) : Heard false flag s { s with index } :=
  .of_eq rfl rfl rfl

/-- An eviction is heard if runs are gone. -/
theorem heard_evicted (result : Except Error (List RunId) × Index) :
    Heard (s.flagOnIndex flag && evictsSome result.1) flag s (s.evicted result).2 := by
  obtain ⟨outcome, index⟩ := result
  match outcome with
  | .error _ => simpa [evicted, evictsSome] using heard_setIndex index
  | .ok [] => simpa [evicted, evictsSome] using heard_setIndex index
  | .ok (id :: rest) =>
    have hset : Heard false flag s { s with index } := heard_setIndex index
    have h := hset.trans (heard_announce (.evicted (id :: rest)))
    simpa [evicted, evictsSome, Event.halts, hset.flagOnIndex_eq] using h

theorem evicted_fst (result : Except Error (List RunId) × Index) :
    (s.evicted result).1 = result.1 := by
  obtain ⟨outcome, index⟩ := result
  match outcome with
  | .error _ => rfl
  | .ok [] => rfl
  | .ok (_ :: _) => rfl

theorem heard_evict (fraction : Float) :
    Heard (s.flagOnIndex flag && evictsSome (s.evict fraction).1) flag s (s.evict fraction).2 := by
  rw [evict, evicted_fst]
  exact heard_evicted _

theorem heard_evictAny :
    Heard (s.flagOnIndex flag && s.evictAny.1.toBool) flag s s.evictAny.2 := by
  have h : Heard (s.flagOnIndex flag && _) flag s _ := heard_evicted s.index.evictAny
  rw [← evicted_fst (s := s)] at h
  unfold evictAny
  generalize s.evicted s.index.evictAny = result at h ⊢
  match result, h with
  | (.ok [], _), h => exact h
  | (.ok (_ :: _), _), h => exact h
  | (.error _, _), h => exact h

theorem heard_check (settings : MonitorSettings) :
    Heard (s.flagOnIndex flag && (s.check settings).1 != 0) flag s (s.check settings).2 := by
  have hsampled : Heard false flag s { s with samples := s.samples + 1 } := .of_eq rfl rfl rfl
  have h := hsampled.trans (heard_evicted (settings.check s.heapBytes s.index))
  rw [hsampled.flagOnIndex_eq, Bool.false_or, ← evicted_fst] at h
  unfold check
  dsimp only at h ⊢
  generalize evicted _ _ = result at h ⊢
  match result, h with
  | (.ok [], _), h => exact h
  | (.ok (_ :: _), _), h => simpa [evictsSome] using h
  | (.error _, _), h => exact h

theorem heard_stopMonitor {monitor : Nat} {w : Watch} (hw : s.watch? monitor = some w)
    (h : s.stopMonitor monitor w = .ok s') :
    Heard (flagIn flag w.listeners) flag s s' := by
  obtain ⟨m, -, h⟩ := Outcome.bind_eq_ok_iff.1 h
  obtain rfl := Except.ok.inj h
  have hset : Heard false flag s
      { s with watches := s.watches.set monitor { w with monitor := m } } := heard_setWatch hw rfl
  have htold := (hset.trans (heard_tellAll .stopped w.listeners)).trans heard_rouseCalled
  simpa [Event.halts] using htold

/-- Whatever an ingestion comes to, no flag minds. -/
theorem heard_deliver (r : Run) (loaded : Loaded) :
    Heard false flag s (s.deliver r loaded).2 := by
  unfold deliver
  generalize s.index.deliver r loaded = result
  obtain ⟨outcome, index⟩ := result
  match outcome with
  | .error _ => exact heard_setIndex index
  | .ok () =>
    have hset : Heard false flag s { s with index } := heard_setIndex index
    simpa [Event.halts] using hset.trans (heard_announce (.ingested r.id))

variable {monitor k : Nat}

/-! ## A flag goes up and down -/

theorem heard_setFill (k : Nat) (b : Backfill) : Heard false none s (s.setFill k b) :=
  ⟨rfl, fun _ => rfl, rfl⟩

theorem heard_recordFill (outcome : Except Error Unit) :
    Heard false none s (s.recordFill k outcome) := by
  obtain ⟨hindex, hwatches⟩ := updateFill_frame (s := s) k fun b => b.record outcome
  exact ⟨hindex, fun m => by rw [recordFill, watch?, watch?, hwatches], rfl⟩

theorem backfill?_beginFill {w : Watch} (runs : List Run) :
    (s.beginFill k monitor w runs).backfill? k = some (.ofRuns runs) :=
  Table.get?_set_self _ _ _

theorem flagOnIndex_beginFill {w : Watch} (runs : List Run) :
    (s.beginFill k monitor w runs).flagOnIndex (some k) = true := by
  simp [beginFill, raiseFlag, spawn, flagOnIndex, flagIn]

theorem watch?_beginFill {w : Watch} (runs : List Run) (m : Nat) :
    (s.beginFill k monitor w runs).watch? m =
      if m = monitor then some { w with listeners := w.listeners ++ [.backfill k] }
      else s.watch? m :=
  Table.get?_set

theorem flagOnMonitor_beginFill {w : Watch} (runs : List Run) :
    (s.beginFill k monitor w runs).flagOnMonitor (some k) monitor = some true := by
  simp [flagOnMonitor, watch?_beginFill, flagIn]

theorem flagOnIndex_lowerFlag : (s.lowerFlag k monitor).flagOnIndex (some k) = false := by
  simp [lowerFlag, flagOnIndex, flagIn]

theorem watch?_lowerFlag (m : Nat) : (s.lowerFlag k monitor).watch? m =
    if m = monitor then (s.watch? monitor).map fun w =>
      { w with listeners := w.listeners.filter (· ≠ Listener.backfill k) }
    else s.watch? m := by
  unfold lowerFlag
  split
  · next w hw =>
    rw [hw]
    exact Table.get?_set
  · next hw =>
    rw [hw]
    split
    · next hm => exact hm ▸ hw
    · rfl

theorem flagOnMonitor_lowerFlag {listening : Bool}
    (h : s.flagOnMonitor flag monitor = some listening) :
    (s.lowerFlag k monitor).flagOnMonitor (some k) monitor = some false := by
  obtain ⟨w, hw, -⟩ := Option.map_eq_some_iff.1 h
  simp [flagOnMonitor, watch?_lowerFlag, hw, flagIn]

/-! ## The other listeners -/

/-- The listeners besides a flag, if there is one. -/
def besides (flag : Option Nat) (ls : List Listener) : List Listener :=
  ls.filter fun l => !flagIn flag [l]

/-- Both sessions have the same listeners besides a flag. -/
structure SameOthers (flag : Option Nat) (s s' : Session) : Prop where
  index : besides flag s'.indexListeners = besides flag s.indexListeners
  monitors : ∀ m, ((s'.watch? m).map fun w => besides flag w.listeners) =
    (s.watch? m).map fun w => besides flag w.listeners

theorem SameOthers.refl (flag : Option Nat) (s : Session) : SameOthers flag s s :=
  ⟨rfl, fun _ => rfl⟩

theorem SameOthers.trans (h : SameOthers flag s s') (h' : SameOthers flag s' s'') :
    SameOthers flag s s'' :=
  ⟨h'.index.trans h.index, fun m => (h'.monitors m).trans (h.monitors m)⟩

theorem Heard.sameOthers {told : Bool} (h : Heard told flag s s') (flag' : Option Nat) :
    SameOthers flag' s s' := by
  refine ⟨by rw [h.index], fun m => ?_⟩
  have hbesides := congrArg (Option.map (besides flag')) (h.monitors m)
  simpa only [Option.map_map, Function.comp_def] using hbesides

theorem besides_append_flag (k : Nat) (ls : List Listener) :
    besides (some k) (ls ++ [.backfill k]) = besides (some k) ls := by
  simp [besides, flagIn]

theorem besides_filter_flag (k : Nat) (ls : List Listener) :
    besides (some k) (ls.filter (· ≠ Listener.backfill k)) = besides (some k) ls := by
  simp only [besides, List.filter_filter]
  refine List.filter_congr fun l _ => ?_
  simp [flagIn, eq_comm]

theorem sameOthers_beginFill {w : Watch} (hw : s.watch? monitor = some w) (runs : List Run) :
    SameOthers (some k) s (s.beginFill k monitor w runs) := by
  refine ⟨besides_append_flag k _, fun m => ?_⟩
  rw [watch?_beginFill]
  split
  · next hm => rw [hm, hw, Option.map_some, Option.map_some, besides_append_flag]
  · rfl

theorem sameOthers_lowerFlag : SameOthers (some k) s (s.lowerFlag k monitor) := by
  refine ⟨besides_filter_flag k _, fun m => ?_⟩
  rw [watch?_lowerFlag]
  split
  · next hm => simp only [hm, Option.map_map, Function.comp_def, besides_filter_flag]
  · rfl

theorem sameOthers_returned (k : Nat) (b : Backfill) :
    SameOthers (some k) s ((s.setFill k b).lowerFlag k monitor) :=
  ((heard_setFill k b).sameOthers _).trans sameOthers_lowerFlag

/-! ## All listeners -/

/-- The listeners of one session are those of another one and a flag after them, if there is one, among
those of the index and of a monitor. -/
structure Adds (flag : Option Nat) (monitor : Nat) (s s' : Session) : Prop where
  onIndex : s'.indexListeners = s.indexListeners ++ flag.toList.map .backfill
  onMonitor : (s'.watch? monitor).map Watch.listeners =
    (s.watch? monitor).map fun w => w.listeners ++ flag.toList.map .backfill
  others : ∀ m ≠ monitor, (s'.watch? m).map Watch.listeners = (s.watch? m).map Watch.listeners

theorem Adds.refl (monitor : Nat) (s : Session) : Adds none monitor s s where
  onIndex := (List.append_nil _).symm
  onMonitor := by simp
  others _ _ := rfl

theorem Adds.of_heard {flag' : Option Nat} {told : Bool} (h : Adds flag monitor s s')
    (hheard : Heard told flag' s' s'') : Adds flag monitor s s'' where
  onIndex := hheard.index.trans h.onIndex
  onMonitor := (hheard.monitors monitor).trans h.onMonitor
  others m hm := (hheard.monitors m).trans (h.others m hm)

/-- A flag is not among those who listen to the index and to a monitor. -/
structure Unheard (k monitor : Nat) (s : Session) : Prop where
  index : .backfill k ∉ s.indexListeners
  monitor : ∀ w, s.watch? monitor = some w → .backfill k ∉ w.listeners

theorem unheard_freshFlag (s : Session) (monitor : Nat) : Unheard s.freshFlag monitor s := by
  have hfresh := s.freshFlag_not_mem
  simp only [flags, List.mem_append, List.mem_filterMap, not_or] at hfresh
  obtain ⟨-, hfresh⟩ := hfresh
  refine ⟨fun hmem => hfresh ⟨.backfill _, .inl hmem, rfl⟩, fun w hw hmem =>
    hfresh ⟨.backfill _, .inr ?_, rfl⟩⟩
  have hentry := Table.get?_eq_some_iff.1 hw
  exact List.mem_flatMap.2 ⟨w, List.mem_map_of_mem hentry, hmem⟩

theorem Unheard.of_adds (h : Unheard k monitor s') (hadds : Adds none monitor s s') :
    Unheard k monitor s := by
  refine ⟨fun hmem => h.index ?_, fun w hw hmem => ?_⟩
  · rw [hadds.onIndex]
    exact List.mem_append_left _ hmem
  · have hmonitor := hadds.onMonitor
    rw [hw, Option.map_some, Option.map_eq_some_iff] at hmonitor
    obtain ⟨w', hw', hlisteners⟩ := hmonitor
    refine h.monitor w' hw' ?_
    rw [hlisteners]
    exact List.mem_append_left _ hmem

theorem Adds.beginFill {w : Watch} (h : Adds none monitor s s') (hw : s'.watch? monitor = some w)
    (runs : List Run) : Adds (some k) monitor s (s'.beginFill k monitor w runs) where
  onIndex := by
    have hindex := h.onIndex.trans (List.append_nil _)
    exact congrArg (· ++ [Listener.backfill k]) hindex
  onMonitor := by
    have hmonitor := h.onMonitor
    rw [hw, eq_comm, Option.map_some, Option.map_eq_some_iff] at hmonitor
    obtain ⟨w₀, hw₀, hlisteners⟩ := hmonitor
    have hlisteners : w₀.listeners = w.listeners := (List.append_nil _).symm.trans hlisteners
    rw [watch?_beginFill, if_pos rfl, hw₀, Option.map_some, Option.map_some, hlisteners]
    rfl
  others m hm := by
    rw [watch?_beginFill, if_neg hm]
    exact h.others m hm

theorem filter_append_flag {ls : List Listener} (h : .backfill k ∉ ls) :
    (ls ++ [Listener.backfill k]).filter (fun l => l ≠ Listener.backfill k) = ls := by
  have hall : ∀ l ∈ ls, decide (l ≠ Listener.backfill k) = true := fun l hl =>
    decide_eq_true (ne_of_mem_of_not_mem hl h)
  rw [List.filter_append, List.filter_eq_self.2 hall]
  simp

theorem Adds.lowerFlag (h : Adds (some k) monitor s s') (hk : Unheard k monitor s) :
    Adds none monitor s (s'.lowerFlag k monitor) where
  onIndex := by
    have hindex : s'.indexListeners = s.indexListeners ++ [.backfill k] := h.onIndex
    have hlowered := filter_append_flag hk.index
    rw [← hindex] at hlowered
    exact hlowered.trans (List.append_nil _).symm
  onMonitor := by
    rw [watch?_lowerFlag, if_pos rfl, Option.map_map]
    have hlowered := congrArg
      (Option.map fun ls => ls.filter fun l => l ≠ Listener.backfill k) h.onMonitor
    rw [Option.map_map, Option.map_map] at hlowered
    refine hlowered.trans (Option.map_congr fun w hw => ?_)
    exact (filter_append_flag (hk.monitor w hw)).trans (List.append_nil _).symm
  others m hm := by
    rw [watch?_lowerFlag, if_neg hm]
    exact h.others m hm

end Session

end ResultSearch
