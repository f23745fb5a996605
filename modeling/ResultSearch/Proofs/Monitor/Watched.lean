import ResultSearch.Proofs.Monitor.Loops

/-!
# Monitors under any interleaving

A monitor is started and stopped at any time, its loops are roused and take their turns in any order,
runs are ingested in between, and others work on the index meanwhile.

* `Watched`, `step`, `play`: a monitor, its index and what its loops have done, step by step.
* `Change`, `change_of_step`: what a step can do.
* `Sound`, `Sound.of_step`, `play_sound`: what every step keeps and so every play has.
* `expired_of_steps`: what is over takes no sample any more.
* `loops_of_play`: when starts and stops fail, and that a loop that is over does no more than end.
-/

namespace ResultSearch

/-! ## Monitors at work -/

/-- A monitor at work on an index, with what its loops have done: the samples of the heap with what
each evicted, and the loops that have returned with what they returned. -/
structure Watched where
  monitor : Monitor
  index : Index
  samples : List (Nat × Except Error (List RunId))
  returned : List (Nat × MonitorError)
  /-- How many starts succeeded. -/
  starts : Nat
  /-- How many stops succeeded. -/
  stops : Nat

/-- What happens between two waits. Loops go by their ids. -/
inductive WatchedStep where
  | start
  | stop
  | ingested
  | rouse (loop now : Nat) (reason : Reason)
  | turn (loop now heapBytes : Nat)
  | setInterval (interval : Nat)
  | setMaxHeapBytes (maxHeapBytes : Nat)
  | setFraction (fraction : Float)
  /-- Others work on the index. -/
  | replace (index : Index)

namespace Watched

/-- One step, if the loop that it is about is there for it. What fails changes nothing. -/
def step (w : Watched) : WatchedStep → Option Watched
  | .start =>
    match w.monitor.start with
    | .error _ => some w
    | .ok (_, monitor) => some { w with monitor, starts := w.starts + 1 }
  | .stop =>
    match w.monitor.stop with
    | .error _ => some w
    | .ok monitor => some { w with monitor, stops := w.stops + 1 }
  | .ingested => some { w with monitor := w.monitor.ingested }
  | .rouse loop now reason => (w.monitor.rouse loop now reason).map fun monitor => { w with monitor }
  | .turn loop now heapBytes =>
    match w.monitor.turn loop now with
    | none => none
    | some (.ended, monitor) => some { w with
        monitor, returned := w.returned ++ [(loop, .stopped)] }
    | some (.sampled, monitor) =>
      let (evicted, index) := monitor.settings.check heapBytes w.index
      some { w with monitor, index, samples := w.samples ++ [(loop, evicted)] }
  | .setInterval interval =>
    match w.monitor.setInterval interval with
    | .error _ => some w
    | .ok monitor => some { w with monitor }
  | .setMaxHeapBytes maxHeapBytes =>
    some { w with monitor := w.monitor.setMaxHeapBytes maxHeapBytes }
  | .setFraction fraction =>
    match w.monitor.setFraction fraction with
    | .error _ => some w
    | .ok monitor => some { w with monitor }
  | .replace index => some { w with index }

/-- A new monitor on an index after some steps, if each can be taken where it comes. -/
def play (settings : MonitorSettings) (index : Index) (steps : List WatchedStep) :
    Option Watched :=
  match Monitor.create settings with
  | .error _ => none
  | .ok monitor => steps.foldlM step ⟨monitor, index, [], [], 0, 0⟩

open Monitor

variable {w w' : Watched} {s : WatchedStep}

/-- More steps go on from where the first ones have led. -/
theorem play_append {settings : MonitorSettings} {index : Index} {steps later : List WatchedStep} :
    play settings index (steps ++ later) =
      (play settings index steps).bind fun w => later.foldlM step w := by
  unfold play
  split
  · rfl
  · exact List.foldlM_append

/-! ## What a step can do -/

/-- What one step can do: start or stop the monitor, count a run, rouse a loop, change the settings,
end a loop, let the current loop take a sample, or let others work on the index. -/
inductive Change (w : Watched) : Watched → Prop
  | started {id : Nat} {m : Monitor} : w.monitor.start = .ok (id, m) →
      Change w { w with monitor := m, starts := w.starts + 1 }
  | stopped {m : Monitor} : w.monitor.stop = .ok m →
      Change w { w with monitor := m, stops := w.stops + 1 }
  | ingested : Change w { w with monitor := w.monitor.ingested }
  | roused {loop now : Nat} {reason : Reason} {m : Monitor} :
      w.monitor.rouse loop now reason = some m → Change w { w with monitor := m }
  | set (settings : MonitorSettings) : Change w { w with monitor := { w.monitor with settings } }
  | ended {loop now : Nat} {m : Monitor} : w.monitor.turn loop now = some (.ended, m) →
      Change w { w with monitor := m, returned := w.returned ++ [(loop, .stopped)] }
  | sampled {loop now : Nat} {m : Monitor} (evicted : Except Error (List RunId)) (index : Index) :
      w.monitor.turn loop now = some (.sampled, m) →
      Change w { w with monitor := m, index, samples := w.samples ++ [(loop, evicted)] }
  | replaced (index : Index) : Change w { w with index }

theorem change_of_step (h : w.step s = some w') : Change w w' := by
  have hkept : Change w w := .replaced w.index
  cases s with
  | start =>
    rw [step] at h
    split at h
    · exact Option.some.inj h ▸ hkept
    · next hstart => exact Option.some.inj h ▸ .started hstart
  | stop =>
    rw [step] at h
    split at h
    · exact Option.some.inj h ▸ hkept
    · next hstop => exact Option.some.inj h ▸ .stopped hstop
  | ingested => exact Option.some.inj h ▸ .ingested
  | rouse loop now reason =>
    obtain ⟨m, hm, rfl⟩ := Option.map_eq_some_iff.1 h
    exact .roused hm
  | turn loop now heapBytes =>
    rw [step] at h
    split at h
    · cases h
    · next hturn => exact Option.some.inj h ▸ .ended hturn
    · next hturn => exact Option.some.inj h ▸ .sampled _ _ hturn
  | setInterval interval =>
    rw [step] at h
    split at h
    · exact Option.some.inj h ▸ hkept
    · next hset =>
      obtain ⟨settings, rfl⟩ := settings_of_setInterval hset
      exact Option.some.inj h ▸ .set settings
  | setMaxHeapBytes maxHeapBytes => exact Option.some.inj h ▸ .set _
  | setFraction fraction =>
    rw [step] at h
    split at h
    · exact Option.some.inj h ▸ hkept
    · next hset =>
      obtain ⟨settings, rfl⟩ := settings_of_setFraction hset
      exact Option.some.inj h ▸ .set settings
  | replace index => exact Option.some.inj h ▸ .replaced index

theorem Change.loopChange (h : Change w w') (hm : Generations w.monitor) :
    LoopChange w.monitor w'.monitor := by
  cases h with
  | started hstart => exact loopChange_start hstart
  | stopped hstop => exact loopChange_stop hstop
  | ingested => exact .same sameLoops_ingested
  | roused hrouse => exact .same (sameLoops_rouse hrouse)
  | set settings => exact .same ⟨rfl, rfl, rfl, rfl⟩
  | ended hturn => exact loopChange_turn hm hturn
  | sampled _ _ hturn => exact loopChange_turn hm hturn
  | replaced => exact .same (.refl _)

theorem Change.dismissed (h : Change w w') (hm : Generations w.monitor)
    (hd : Dismissed w.monitor) : Dismissed w'.monitor := by
  cases h with
  | started hstart => exact hd.start hstart
  | stopped hstop => exact hd.stop hstop
  | ingested => exact hd.ingested
  | roused hrouse => exact hd.rouse hrouse
  | set settings => exact hd
  | ended hturn => exact hd.turn hm hturn
  | sampled _ _ hturn => exact hd.turn hm hturn
  | replaced => exact hd

/-- Every successful stop ends one successful start, and one start at most goes on. -/
def Balanced (w : Watched) : Prop := w.starts = w.stops + if w.monitor.running then 1 else 0

theorem Change.balanced (h : Change w w') (hb : Balanced w) : Balanced w' := by
  unfold Balanced at hb ⊢
  cases h with
  | started hstart =>
    unfold Monitor.start at hstart
    split at hstart
    · cases hstart
    · next hrunning =>
      obtain ⟨-, rfl⟩ := Prod.mk.inj (Except.ok.inj hstart)
      simpa [hrunning] using hb
  | stopped hstop =>
    unfold Monitor.stop at hstop
    split at hstop
    · next hrunning =>
      obtain rfl := Except.ok.inj hstop
      simpa [hrunning] using hb
    · cases hstop
  | ingested => exact (sameLoops_ingested (m := w.monitor)).running_eq ▸ hb
  | roused hrouse => exact (sameLoops_rouse hrouse).running_eq ▸ hb
  | set settings => exact hb
  | ended hturn | sampled _ _ hturn =>
    rw [(state_eq_of_turn hturn).1]
    exact hb
  | replaced => exact hb

/-! ## What every step keeps -/

/-- Generations are apart, stale loops are told, and starts and stops alternate. -/
structure Sound (w : Watched) : Prop where
  generations : Generations w.monitor
  dismissed : Dismissed w.monitor
  balanced : Balanced w

namespace Sound

theorem of_step (hw : Sound w) (h : w.step s = some w') : Sound w' where
  generations := hw.generations.of_change ((change_of_step h).loopChange hw.generations)
  dismissed := (change_of_step h).dismissed hw.generations hw.dismissed
  balanced := (change_of_step h).balanced hw.balanced

theorem of_steps (hw : Sound w) {steps : List WatchedStep} (h : steps.foldlM step w = some w') :
    Sound w' :=
  Outcome.of_foldlM h hw fun _ _ _ _ hw hs => hw.of_step hs

end Sound

theorem play_sound {settings : MonitorSettings} {index : Index} {steps : List WatchedStep}
    (h : play settings index steps = some w) : Sound w := by
  unfold play at h
  split at h
  · cases h
  · next monitor hcreate =>
    obtain ⟨hgenerations, hdismissed⟩ := generations_of_create hcreate
    obtain ⟨-, -, hcreate⟩ := Outcome.bind_eq_ok_iff.1 hcreate
    obtain rfl := Except.ok.inj hcreate
    have hnew : Sound ⟨⟨settings, false, 0, [], 0, [], false, 0⟩, index, [], [], 0, 0⟩ :=
      ⟨hgenerations, hdismissed, rfl⟩
    exact hnew.of_steps h

/-! ## Loops that are over -/

variable {id now heapBytes : Nat}

/-- In its turn a loop that is over returns, and leaves the index alone. -/
theorem step_turn_of_expired (hw : Sound w) (he : Expired w.monitor id)
    (h : w.step (.turn id now heapBytes) = some w') :
    w'.index = w.index ∧ w'.samples = w.samples ∧
      w'.returned = w.returned ++ [(id, .stopped)] ∧ ∀ l ∈ w'.monitor.loops, l.id ≠ id := by
  rw [step] at h
  split at h
  · cases h
  · next m hturn =>
    obtain rfl := Option.some.inj h
    refine ⟨rfl, rfl, rfl, fun l hl => ?_⟩
    obtain ⟨k, -, -, hturn⟩ := turn_eq_some_iff.1 hturn
    split at hturn
    · cases hturn
    · obtain ⟨-, rfl⟩ := Prod.mk.inj hturn
      exact of_decide_eq_true (List.mem_filter.1 hl).2
  · next m hturn => exact absurd rfl (he.ne_of_sampled hw.generations hturn)

/-- Whatever happens, a loop that is over takes no sample any more. -/
theorem samples_of_expired (hw : Sound w) (he : Expired w.monitor id) (h : Change w w') :
    w'.samples.filter (fun s => s.1 = id) = w.samples.filter (fun s => s.1 = id) := by
  cases h with
  | started | stopped | ingested | roused | set | ended | replaced => rfl
  | sampled evicted index hturn =>
    have hne := he.ne_of_sampled hw.generations hturn
    rw [List.filter_append, List.filter_singleton, decide_eq_false hne]
    exact List.append_nil _

/-- What is over stays over, and takes no more samples. -/
theorem expired_of_steps (hw : Sound w) (he : Expired w.monitor id) {steps : List WatchedStep}
    (h : steps.foldlM step w = some w') : Expired w'.monitor id ∧
      w'.samples.filter (fun s => s.1 = id) = w.samples.filter (fun s => s.1 = id) := by
  have hrun := Outcome.of_foldlM (P := fun v => Sound v ∧ Expired v.monitor id ∧
    v.samples.filter (fun s => s.1 = id) = w.samples.filter (fun s => s.1 = id)) h ⟨hw, he, rfl⟩
  refine (hrun fun v s v' _ ⟨hv, hexpired, hsamples⟩ hs => ?_).2
  have hchange := change_of_step hs
  exact ⟨hv.of_step hs, hexpired.of_change (hchange.loopChange hv.generations),
    (samples_of_expired hv hexpired hchange).trans hsamples⟩

/-- A loop that is awake has its turn. It takes a sample if it is the current one. -/
theorem exists_turn (hw : Sound w) {l : MonitorLoop} (hl : l ∈ w.monitor.loops)
    (hawake : l.phase = .awake) (now heapBytes : Nat) :
    ∃ w', w.step (.turn l.id now heapBytes) = some w' ∧
      (w.monitor.isCurrent l = true → ∃ evicted, w'.samples = w.samples ++ [(l.id, evicted)]) := by
  have hloop : w.monitor.loop? l.id = some l :=
    hw.generations.loop?_eq_some_iff.2 ⟨hl, rfl⟩
  by_cases hcurrent : w.monitor.isCurrent l = true
  · have hturn : w.monitor.turn l.id now = some (.sampled, w.monitor.sleep l.id now) :=
      turn_eq_some_iff.2 ⟨l, hloop, hawake, if_pos hcurrent⟩
    rw [step, hturn]
    exact ⟨_, rfl, fun _ => ⟨_, rfl⟩⟩
  · have hturn : w.monitor.turn l.id now = some (.ended, w.monitor.withoutLoop l.id) :=
      turn_eq_some_iff.2 ⟨l, hloop, hawake, if_neg hcurrent⟩
    rw [step, hturn]
    exact ⟨_, rfl, fun htrue => absurd htrue hcurrent⟩

/-- A loop that has a reason to go on is roused and has its turn. It takes a sample if it is the
current one. -/
theorem exists_rouse_turn (hw : Sound w) {l : MonitorLoop} (hl : l ∈ w.monitor.loops)
    {reason : Reason} (hreason : l.hasReason now reason = true) (heapBytes : Nat) :
    ∃ w', [.rouse l.id now reason, .turn l.id now heapBytes].foldlM step w = some w' ∧
      (w.monitor.isCurrent l = true → ∃ evicted, w'.samples = w.samples ++ [(l.id, evicted)]) := by
  have hloop : w.monitor.loop? l.id = some l :=
    hw.generations.loop?_eq_some_iff.2 ⟨hl, rfl⟩
  obtain ⟨m, hrouse⟩ : ∃ m, w.monitor.rouse l.id now reason = some m :=
    ⟨_, rouse_eq_some_iff.2 ⟨l, hloop, hreason, rfl⟩⟩
  have hstep : w.step (.rouse l.id now reason) = some { w with monitor := m } := by
    rw [step, hrouse]
    rfl
  have hsame := sameLoops_rouse hrouse
  obtain ⟨k, hk, hkid, hkgeneration⟩ :
      ∃ k ∈ m.loops, k.id = l.id ∧ k.generation = l.generation := by
    have hmem := mem_outline hl
    rw [← hsame.outline_eq] at hmem
    obtain ⟨k, hk, heq⟩ := List.mem_map.1 hmem
    exact ⟨k, hk, congrArg Prod.fst heq, congrArg Prod.snd heq⟩
  obtain ⟨w', hw', hsample⟩ :=
    exists_turn (hw.of_step hstep) hk (awake_of_rouse hrouse k hk hkid) now heapBytes
  have hcurrent : m.isCurrent k = w.monitor.isCurrent l := by
    rw [isCurrent, isCurrent, hsame.running_eq, hsame.generation_eq, hkgeneration]
  rw [hkid] at hw' hsample
  refine ⟨w', ?_, fun h => hsample (hcurrent.trans h)⟩
  rw [List.foldlM_cons, hstep]
  show (step _ _).bind _ = _
  rw [hw']
  rfl

/-- A loop that is over goes on at any time, if it has to be roused first. -/
theorem exists_turn_of_expired (hw : Sound w) (he : Expired w.monitor id) {l : MonitorLoop}
    (hl : l ∈ w.monitor.loops) (hid : l.id = id) (now heapBytes : Nat) :
    (∃ w', w.step (.turn id now heapBytes) = some w') ∨
      ∃ w', [.rouse id now .dismissal, .turn id now heapBytes].foldlM step w = some w' := by
  subst hid
  by_cases hphase : l.phase = .awake
  · obtain ⟨w', hw', -⟩ := exists_turn hw hl hphase now heapBytes
    exact .inl ⟨w', hw'⟩
  · have hstale : l.generation ≠ w.monitor.generation :=
      Nat.ne_of_lt (he.generation_lt _ (mem_outline hl) rfl)
    have hreason : l.hasReason now .dismissal = true := by
      unfold MonitorLoop.hasReason
      split
      · next hawake => exact absurd hawake hphase
      · exact hw.dismissed l hl hstale hphase
    obtain ⟨w', hw', -⟩ := exists_rouse_turn hw hl hreason heapBytes
    exact .inr ⟨w', hw'⟩

/-- Whatever happens to a monitor: a start fails just if it runs, and a stop just if it does not. Its
loops have generations of their own, none above the current one, and it runs just if one of them has
the current one. Successful starts and stops alternate. A loop whose generation is over takes no more
samples and evicts nothing; it can go on at any time, and then returns. -/
theorem loops_of_play {settings : MonitorSettings} {index : Index} {steps : List WatchedStep}
    (h : play settings index steps = some w) :
    (w.monitor.start = .error .running ↔ w.monitor.running = true) ∧
      (w.monitor.stop = .error .stopped ↔ w.monitor.running = false) ∧
      (w.monitor.loops.map MonitorLoop.generation).Nodup ∧
      (∀ l ∈ w.monitor.loops, l.generation ≤ w.monitor.generation) ∧
      (w.monitor.running = true ↔ ∃ l ∈ w.monitor.loops, l.generation = w.monitor.generation) ∧
      (w.starts = w.stops + if w.monitor.running then 1 else 0) ∧
      ∀ l ∈ w.monitor.loops, l.generation ≠ w.monitor.generation →
        ∀ (later : List WatchedStep) (w' : Watched), later.foldlM step w = some w' →
          w'.samples.filter (fun s => s.1 = l.id) = w.samples.filter (fun s => s.1 = l.id) ∧
          (∀ now heapBytes w'', w'.step (.turn l.id now heapBytes) = some w'' →
            w''.index = w'.index ∧ w''.samples = w'.samples ∧
              w''.returned = w'.returned ++ [(l.id, .stopped)] ∧
              ∀ k ∈ w''.monitor.loops, k.id ≠ l.id) ∧
          ((∃ k ∈ w'.monitor.loops, k.id = l.id) → ∀ now heapBytes,
            (∃ w'', w'.step (.turn l.id now heapBytes) = some w'') ∨
              ∃ w'', [.rouse l.id now .dismissal, .turn l.id now heapBytes].foldlM step w' =
                some w'') := by
  have hw := play_sound h
  have hgenerations : w.monitor.outline.map Prod.snd =
      w.monitor.loops.map MonitorLoop.generation := by
    rw [outline, List.map_map]
    rfl
  refine ⟨?_, ?_, ?_, fun l hl => hw.generations.generation_le _ (mem_outline hl), ?_,
    hw.balanced, ?_⟩
  · unfold Monitor.start
    by_cases hrunning : w.monitor.running = true <;> simp [hrunning]
  · unfold Monitor.stop
    by_cases hrunning : w.monitor.running = true <;> simp [hrunning]
  · exact hgenerations ▸ hw.generations.generations_nodup
  · rw [hw.generations.running_iff, outline]
    simp only [List.mem_map, exists_exists_and_eq_and]
  · intro l hl hstale later w' hlater
    have hexpired : Expired w.monitor l.id := hw.generations.expired_of_stale hl hstale
    obtain ⟨hexpired', hsamples⟩ := expired_of_steps hw hexpired hlater
    have hw' := hw.of_steps hlater
    refine ⟨hsamples, fun now heapBytes w'' hturn => ?_, fun hthere now heapBytes => ?_⟩
    · exact step_turn_of_expired hw' hexpired' hturn
    · obtain ⟨k, hk, hid⟩ := hthere
      exact exists_turn_of_expired hw' hexpired' hk hid now heapBytes

/-- A monitor is started again right after its stop, before its first loop has noticed. That loop is
roused and returns, although too much is on the heap and the monitor is running. -/
theorem loops_of_restart :
    let steps : List WatchedStep := [.start, .turn 0 0 50, .start, .stop, .stop, .start, .turn 1 0 50]
    ∃ w w', play ⟨1000, 100, 0.5, 0⟩ ⟨Hash.hashText, [.empty], Table.empty, []⟩ steps = some w ∧
      w.monitor.running = true ∧ w.monitor.loops.map MonitorLoop.generation = [0, 1] ∧
      w.starts = w.stops + 1 ∧
      [.rouse 0 0 .dismissal, .turn 0 0 200].foldlM step w = some w' ∧
      w'.samples.filter (fun s => s.1 = 0) = w.samples.filter (fun s => s.1 = 0) ∧
      w'.returned = w.returned ++ [(0, .stopped)] ∧ ∀ k ∈ w'.monitor.loops, k.id ≠ 0 := by
  intro steps
  obtain ⟨w, hw⟩ : ∃ w, play ⟨1000, 100, 0.5, 0⟩ ⟨Hash.hashText, [.empty], Table.empty, []⟩ steps =
      some w := Option.isSome_iff_exists.1 (by decide +kernel)
  have hmonitor : (play ⟨1000, 100, 0.5, 0⟩ ⟨Hash.hashText, [.empty], Table.empty, []⟩ steps).map
      (fun w => (w.monitor.running, w.monitor.generation, w.monitor.loops)) =
        some (true, 1, [⟨0, 0, .asleep 1000, false, true⟩, ⟨1, 1, .asleep 1000, false, false⟩]) := by
    decide +kernel
  rw [hw, Option.map_some, Option.some_inj] at hmonitor
  simp only [Prod.mk.injEq] at hmonitor
  obtain ⟨hrunning, hgeneration, hloops⟩ := hmonitor
  obtain ⟨-, -, -, -, -, hbalanced, hstale⟩ := loops_of_play hw
  rw [hrunning] at hbalanced
  have hl : ⟨0, 0, .asleep 1000, false, true⟩ ∈ w.monitor.loops := hloops ▸ List.mem_cons_self
  have hexpired := hstale _ hl (by rw [hgeneration]; decide)
  have hasleep : w.step (.turn 0 0 200) = none := by
    simp [step, turn, loop?, hloops]
  obtain ⟨w', hturn⟩ | ⟨w', hw'⟩ := (hexpired [] w rfl).2.2 ⟨_, hl, rfl⟩ 0 200
  · cases hasleep.symm.trans hturn
  · obtain ⟨roused, hrouse, hrest⟩ := Option.bind_eq_some_iff.1 hw'
    obtain ⟨next, hturn, hnext⟩ := Option.bind_eq_some_iff.1 hrest
    obtain rfl := Option.some.inj hnext
    have hroused : [.rouse 0 0 .dismissal].foldlM step w = some roused := by
      rw [List.foldlM_cons, hrouse]
      rfl
    obtain ⟨hsamples, hended, -⟩ := hexpired _ roused hroused
    obtain ⟨-, hsamples', hreturned, hgone⟩ := hended 0 200 next hturn
    have hstep : w.step (.rouse 0 0 .dismissal) = some roused := hrouse
    obtain ⟨m, -, rfl⟩ := Option.map_eq_some_iff.1 hstep
    exact ⟨w, next, hw, hrunning, by rw [hloops]; rfl, hbalanced, hw', hsamples' ▸ hsamples,
      hreturned, hgone⟩

end Watched

end ResultSearch
