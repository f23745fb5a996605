import ResultSearch.Proofs.Monitor.Watched

/-!
# Wake-up calls

After so many ingested runs a call goes to the loop that has been waiting longest. While the monitor
runs, that may be a loop of an earlier generation that was told to end and has yet to notice. If it
goes on for its dismissal, it hands the call on; if it goes on for the call, the call is lost, and the
current loop sleeps on as if nothing had been ingested.

* `Attentive`, `attentive_of_play`: who waits, who is called, and when a call is kept.
* `Waits`: the monitor runs and its current loop sleeps.
* `WatchedStep.Spares`: a step in which no loop but the current one takes a call.
* `call_reaches_current`: the current loop is called unless another loop takes the call.
* `sampled_of_called`: a current loop that was called takes a sample at once.
* `call_taken_by_dismissed`: a call that was taken by another loop.
-/

namespace ResultSearch

namespace Monitor

variable {m m' : Monitor} {id now : Nat}

/-! ## Who waits -/

/-- The loops that wait for a call are those that sleep and were not called, each once. A loop that
was called sleeps, and a call is kept only while none waits. -/
structure Attentive (m : Monitor) : Prop where
  nodup : m.waiting.Nodup
  exists_loop : ∀ id ∈ m.waiting, id ∈ m.loops.map MonitorLoop.id
  mem_iff : ∀ l ∈ m.loops, l.id ∈ m.waiting ↔ l.phase ≠ .awake ∧ l.called = false
  asleep_of_called : ∀ l ∈ m.loops, l.called = true → l.phase ≠ .awake
  kept : m.callKept = true → m.waiting = []

theorem map_id_updateLoop {f : MonitorLoop → MonitorLoop} (hf : ∀ l, (f l).id = l.id) :
    (m.updateLoop id f).loops.map MonitorLoop.id = m.loops.map MonitorLoop.id := by
  rw [updateLoop, List.map_map]
  refine List.map_congr_left fun l _ => ?_
  by_cases hl : l.id = id
  · simp [hl, hf l]
  · simp [hl]

/-- What holds of the other loops as they are, and of the loop as it becomes, holds of all. -/
theorem forall_updateLoop {f : MonitorLoop → MonitorLoop} {P : MonitorLoop → Prop}
    (h : ∀ l ∈ m.loops, l.id ≠ id → P l) (hf : ∀ l ∈ m.loops, l.id = id → P (f l)) :
    ∀ l ∈ (m.updateLoop id f).loops, P l := by
  intro k hk
  obtain ⟨l, hl, rfl⟩ := List.mem_map.1 hk
  by_cases hid : l.id = id
  · rw [if_pos hid]
    exact hf l hl hid
  · rw [if_neg hid]
    exact h l hl hid

namespace Attentive

theorem call (h : Attentive m) : Attentive m.call := by
  unfold Monitor.call
  split
  · next hwaiting => exact ⟨h.nodup, h.exists_loop, h.mem_iff, h.asleep_of_called, fun _ => hwaiting⟩
  · next id rest hwaiting =>
    obtain ⟨hid, hrest⟩ := List.nodup_cons.1 (hwaiting ▸ h.nodup)
    refine ⟨hrest, fun x hx => ?_, ?_, ?_, fun hkept => ?_⟩
    · rw [map_id_updateLoop fun l => by rfl]
      exact h.exists_loop x (hwaiting ▸ List.mem_cons_of_mem _ hx)
    · refine forall_updateLoop (fun l hl hne => ?_) fun l _ hlid => ?_
      · rw [← h.mem_iff l hl, hwaiting, List.mem_cons, or_iff_right hne]
        rfl
      · exact ⟨fun hmem => absurd (hlid ▸ hmem) hid, fun hcalled => nomatch hcalled.2⟩
    · refine forall_updateLoop (fun l hl _ => h.asleep_of_called l hl) fun l hl hlid _ => ?_
      exact ((h.mem_iff l hl).1 (hwaiting ▸ hlid ▸ List.mem_cons_self)).1
    · have hnil := h.kept hkept
      rw [hwaiting] at hnil
      cases hnil

theorem ingested (h : Attentive m) : Attentive m.ingested := by
  unfold Monitor.ingested
  dsimp only
  split
  · refine call ?_
    exact ⟨h.nodup, h.exists_loop, h.mem_iff, h.asleep_of_called, h.kept⟩
  · exact ⟨h.nodup, h.exists_loop, h.mem_iff, h.asleep_of_called, h.kept⟩

theorem awaken (h : Attentive m) (id : Nat) (reason : Reason) :
    Attentive (m.awaken id reason) := by
  refine ⟨h.nodup.filter _, fun x hx => ?_, ?_, ?_, fun hkept => ?_⟩
  · rw [Monitor.awaken, map_id_updateLoop fun l => by rfl]
    exact h.exists_loop x (List.mem_of_mem_filter hx)
  · refine forall_updateLoop (fun l hl hne => ?_) fun l _ hlid => ?_
    · rw [← h.mem_iff l hl]
      exact List.mem_filter.trans (and_iff_left (decide_eq_true hne))
    · refine ⟨fun hmem => ?_, fun hphase => absurd rfl hphase.1⟩
      exact absurd hlid (of_decide_eq_true (List.mem_filter.1 hmem).2)
  · exact forall_updateLoop (fun l hl _ => h.asleep_of_called l hl) fun l _ _ hcalled =>
      nomatch hcalled
  · have hnil := h.kept hkept
    show List.filter _ m.waiting = []
    rw [hnil]
    rfl

theorem rouse (h : Attentive m) {reason : Reason} (hrouse : m.rouse id now reason = some m') :
    Attentive m' := by
  obtain ⟨l, -, -, rfl⟩ := rouse_eq_some_iff.1 hrouse
  split
  · exact (h.awaken id reason).call
  · exact h.awaken id reason

/-- A loop that is awake neither waits nor was called. -/
theorem of_awake (h : Attentive m) {l : MonitorLoop} (hl : l ∈ m.loops) (hawake : l.phase = .awake) :
    l.id ∉ m.waiting ∧ l.called = false := by
  refine ⟨fun hmem => absurd hawake ((h.mem_iff l hl).1 hmem).1, ?_⟩
  exact Bool.eq_false_iff.2 fun hcalled => h.asleep_of_called l hl hcalled hawake

theorem sleep (h : Attentive m) {l : MonitorLoop} (hl : l ∈ m.loops)
    (hawake : ∀ k ∈ m.loops, k.id = l.id → k.phase = .awake) (now : Nat) :
    Attentive (m.sleep l.id now) := by
  obtain ⟨hid, -⟩ := h.of_awake hl (hawake l hl rfl)
  unfold Monitor.sleep
  dsimp only
  split
  · next hkept =>
    have hnil := h.kept hkept
    refine ⟨h.nodup, fun x hx => ?_, ?_, ?_, fun hfalse => nomatch hfalse⟩
    · rw [map_id_updateLoop fun l => by rfl]
      exact h.exists_loop x hx
    · refine forall_updateLoop (fun k hk _ => h.mem_iff k hk) fun k _ hkid => ?_
      exact ⟨fun hmem => absurd (hkid ▸ hmem) hid, fun hcalled => nomatch hcalled.2⟩
    · exact forall_updateLoop (fun k hk _ => h.asleep_of_called k hk) fun k _ _ _ hphase =>
        nomatch hphase
  · next hkept =>
    refine ⟨?_, fun x hx => ?_, ?_, ?_, fun htrue => absurd htrue hkept⟩
    · exact List.nodup_append_comm.1 (List.nodup_cons.2 ⟨hid, h.nodup⟩)
    · rw [map_id_updateLoop fun l => by rfl]
      rcases List.mem_append.1 hx with hx | hx
      · exact h.exists_loop x hx
      · rw [List.mem_singleton.1 hx]
        exact List.mem_map_of_mem hl
    · refine forall_updateLoop (fun k hk hne => ?_) fun k hk hkid => ?_
      · rw [← h.mem_iff k hk]
        exact List.mem_append.trans (or_iff_left fun hmem => hne (List.mem_singleton.1 hmem))
      · refine iff_of_true ?_ ⟨fun hphase => (nomatch hphase), ?_⟩
        · exact List.mem_append_right _ (List.mem_singleton.2 hkid)
        · exact (h.of_awake hk (hawake k hk hkid)).2
    · exact forall_updateLoop (fun k hk _ => h.asleep_of_called k hk) fun k _ _ _ hphase =>
        nomatch hphase

theorem withoutLoop (h : Attentive m) (hawake : ∀ l ∈ m.loops, l.id = id → l.phase = .awake) :
    Attentive (m.withoutLoop id) := by
  refine ⟨h.nodup, fun x hx => ?_, fun l hl => h.mem_iff l (List.mem_of_mem_filter hl),
    fun l hl => h.asleep_of_called l (List.mem_of_mem_filter hl), h.kept⟩
  obtain ⟨l, hl, rfl⟩ := List.mem_map.1 (h.exists_loop x hx)
  have hne : l.id ≠ id := fun hid => (h.of_awake hl (hawake l hl hid)).1 hx
  exact List.mem_map_of_mem (List.mem_filter.2 ⟨hl, decide_eq_true hne⟩)

theorem turn (h : Attentive m) (hm : Generations m) {result : LoopTurn}
    (hturn : m.turn id now = some (result, m')) : Attentive m' := by
  obtain ⟨l, hl, hawake, hturn⟩ := turn_eq_some_iff.1 hturn
  obtain ⟨hmem, rfl⟩ := hm.loop?_eq_some_iff.1 hl
  have hall : ∀ k ∈ m.loops, k.id = l.id → k.phase = .awake := by
    intro k hk hid
    rwa [hm.eq_of_id_eq hk hmem hid]
  split at hturn <;> obtain ⟨-, rfl⟩ := Prod.mk.inj hturn
  · exact h.sleep hmem hall now
  · exact h.withoutLoop hall

theorem start (h : Attentive m) (hm : Generations m) (hstart : m.start = .ok (id, m')) :
    Attentive m' := by
  unfold Monitor.start at hstart
  split at hstart
  · cases hstart
  · obtain ⟨-, rfl⟩ := Prod.mk.inj (Except.ok.inj hstart)
    -- The new loop has an id that no loop had, so that it cannot be among those that wait.
    have hnew : m.launched ∉ m.waiting := by
      intro hmem
      obtain ⟨l, hl, hid⟩ := List.mem_map.1 (h.exists_loop _ hmem)
      exact absurd hid (Nat.ne_of_lt (hm.id_lt _ (mem_outline hl)))
    refine ⟨h.nodup, fun x hx => ?_, fun l hl => ?_, fun l hl => ?_, h.kept⟩
    · rw [List.map_append]
      exact List.mem_append_left _ (h.exists_loop x hx)
    · rcases List.mem_append.1 hl with hl | hl
      · exact h.mem_iff l hl
      · rw [List.mem_singleton.1 hl]
        exact iff_of_false hnew fun hphase => absurd rfl hphase.1
    · rcases List.mem_append.1 hl with hl | hl
      · exact h.asleep_of_called l hl
      · rw [List.mem_singleton.1 hl]
        exact fun hcalled => nomatch hcalled

theorem stop (h : Attentive m) (hstop : m.stop = .ok m') : Attentive m' := by
  unfold Monitor.stop at hstop
  split at hstop
  · obtain rfl := Except.ok.inj hstop
    refine ⟨h.nodup, fun x hx => ?_, fun k hk => ?_, fun k hk => ?_, h.kept⟩
    · obtain ⟨l, hl, rfl⟩ := List.mem_map.1 (h.exists_loop x hx)
      refine List.mem_map.2 ⟨_, List.mem_map_of_mem hl, ?_⟩
      split <;> rfl
    · obtain ⟨l, hl, rfl⟩ := List.mem_map.1 hk
      have hl := h.mem_iff l hl
      split <;> exact hl
    · obtain ⟨l, hl, rfl⟩ := List.mem_map.1 hk
      have hl := h.asleep_of_called l hl
      split <;> exact hl
  · cases hstop

end Attentive

/-! ## Calls under way -/

/-- The monitor runs, and its current loop has this id and sleeps. -/
structure Waits (m : Monitor) (id : Nat) : Prop where
  running : m.running = true
  asleep : ∃ l ∈ m.loops, l.id = id ∧ l.generation = m.generation ∧ l.phase ≠ .awake

/-- The next ingested run makes a call. -/
def Due (m : Monitor) : Prop :=
  m.settings.maxIngestedRuns ≠ 0 ∧ (m.ingestedRuns + 1) % m.settings.maxIngestedRuns = 0

instance : Decidable m.Due := inferInstanceAs (Decidable (_ ∧ _))

/-- While the current loop sleeps some loop is called. -/
def Pending (m : Monitor) (id : Nat) : Prop := Waits m id ∧ ∃ l ∈ m.loops, l.called = true

theorem exists_mem_call {l : MonitorLoop} (hl : l ∈ m.loops) : ∃ k ∈ m.call.loops,
    k.id = l.id ∧ k.generation = l.generation ∧ k.phase = l.phase ∧
      (l.called = true → k.called = true) := by
  unfold call
  split
  · exact ⟨l, hl, rfl, rfl, rfl, id⟩
  · refine ⟨_, List.mem_map_of_mem hl, ?_⟩
    dsimp only
    split
    · exact ⟨rfl, rfl, rfl, fun _ => rfl⟩
    · exact ⟨rfl, rfl, rfl, id⟩

theorem mem_updateLoop_of_ne {l : MonitorLoop} (hl : l ∈ m.loops) (hne : l.id ≠ id)
    {f : MonitorLoop → MonitorLoop} : l ∈ (m.updateLoop id f).loops :=
  List.mem_map.2 ⟨l, hl, if_neg hne⟩

/-- A call finds some loop as long as the current one sleeps: if that one was called before, it still
is, and if not, it waits. -/
theorem Waits.pending_call (h : Waits m id) (ha : Attentive m) : Pending m.call id := by
  obtain ⟨l, hl, hid, hgeneration, hasleep⟩ := h.asleep
  obtain ⟨k, hk, hkid, hkgeneration, hkphase, hkcalled⟩ := exists_mem_call hl
  have hsame : SameLoops m m.call := (SameLoops.refl m).call
  have hwaits : Waits m.call id := by
    refine ⟨hsame.running_eq.trans h.running, k, hk, hkid.trans hid, ?_, hkphase ▸ hasleep⟩
    rw [hkgeneration, hgeneration, hsame.generation_eq]
  refine ⟨hwaits, ?_⟩
  by_cases hcalled : l.called = true
  · exact ⟨k, hk, hkcalled hcalled⟩
  · have hwaiting := (ha.mem_iff l hl).2 ⟨hasleep, Bool.eq_false_iff.2 hcalled⟩
    unfold call
    split
    · next hnil => exact absurd (hnil ▸ hwaiting) List.not_mem_nil
    · next first rest hcons =>
      obtain ⟨j, hj, hjid⟩ := List.mem_map.1 (ha.exists_loop first (hcons ▸ List.mem_cons_self))
      exact ⟨_, List.mem_map_of_mem hj, by rw [if_pos hjid]⟩

/-- A turn leaves the loops that sleep. -/
theorem mem_loops_turn (hm : Generations m) {loop : Nat} {result : LoopTurn}
    (hturn : m.turn loop now = some (result, m')) {l : MonitorLoop} (hl : l ∈ m.loops)
    (hasleep : l.phase ≠ .awake) : l ∈ m'.loops := by
  obtain ⟨k, hk, hawake, hturn⟩ := turn_eq_some_iff.1 hturn
  obtain ⟨hmem, hkid⟩ := hm.loop?_eq_some_iff.1 hk
  have hne : l.id ≠ loop := by
    intro hid
    rw [hm.eq_of_id_eq hl hmem (hid.trans hkid.symm)] at hasleep
    exact hasleep hawake
  split at hturn <;> obtain ⟨-, rfl⟩ := Prod.mk.inj hturn
  · unfold sleep
    dsimp only
    split <;> exact mem_updateLoop_of_ne hl hne
  · exact List.mem_filter.2 ⟨hl, decide_eq_true hne⟩

theorem Waits.pending_ingested (h : Waits m id) (ha : Attentive m) (hdue : m.Due) :
    Pending m.ingested id := by
  have hingested : m.ingested = call { m with ingestedRuns := m.ingestedRuns + 1 } := if_pos hdue
  rw [hingested]
  refine Waits.pending_call ?_ ?_
  · exact ⟨h.running, h.asleep⟩
  · exact ⟨ha.nodup, ha.exists_loop, ha.mem_iff, ha.asleep_of_called, ha.kept⟩

namespace Pending

theorem ingested (h : Pending m id) (ha : Attentive m) : Pending m.ingested id := by
  by_cases hdue : m.Due
  · exact h.1.pending_ingested ha hdue
  · have hingested : m.ingested = { m with ingestedRuns := m.ingestedRuns + 1 } := if_neg hdue
    rw [hingested]
    exact ⟨⟨h.1.running, h.1.asleep⟩, h.2⟩

theorem turn (h : Pending m id) (hm : Generations m) (ha : Attentive m) {loop : Nat}
    {result : LoopTurn} (hturn : m.turn loop now = some (result, m')) : Pending m' id := by
  obtain ⟨⟨hrunning, l, hl, hid, hgeneration, hasleep⟩, k, hk, hcalled⟩ := h
  refine ⟨⟨(state_eq_of_turn hturn).1.trans hrunning, l, mem_loops_turn hm hturn hl hasleep, hid,
    hgeneration.trans (state_eq_of_turn hturn).2.symm, hasleep⟩, k, ?_, hcalled⟩
  exact mem_loops_turn hm hturn hk (ha.asleep_of_called k hk hcalled)

/-- Another loop that goes on, and not for a call, hands on the call that it has. -/
theorem rouse (h : Pending m id) (hm : Generations m) (ha : Attentive m) {loop : Nat}
    {reason : Reason} (hne : loop ≠ id) (hreason : reason ≠ .call)
    (hrouse : m.rouse loop now reason = some m') : Pending m' id := by
  obtain ⟨⟨hrunning, l, hl, hid, hgeneration, hasleep⟩, k, hk, hcalled⟩ := h
  obtain ⟨j, hj, -, rfl⟩ := rouse_eq_some_iff.1 hrouse
  obtain ⟨hmem, hjid⟩ := hm.loop?_eq_some_iff.1 hj
  have hwaits : Waits (m.awaken loop reason) id :=
    ⟨hrunning, l, mem_updateLoop_of_ne hl (hid.symm ▸ hne.symm), hid, hgeneration, hasleep⟩
  split
  · exact hwaits.pending_call (ha.awaken loop reason)
  · next hnone =>
    refine ⟨hwaits, k, mem_updateLoop_of_ne hk fun hkid => hnone ?_, hcalled⟩
    obtain rfl := hm.eq_of_id_eq hk hmem (hkid.trans hjid.symm)
    rw [hcalled, decide_eq_true hreason]
    rfl

/-- The loop that is called is the current one, or one whose generation is over. -/
theorem called_or_stale (h : Pending m id) (hm : Generations m) :
    ∃ l ∈ m.loops, l.id = id ∧ l.generation = m.generation ∧ l.phase ≠ .awake ∧
      (l.called = true ∨ ∃ k ∈ m.loops, k.generation ≠ m.generation ∧ k.called = true) := by
  obtain ⟨⟨-, l, hl, hid, hgeneration, hasleep⟩, k, hk, hcalled⟩ := h
  refine ⟨l, hl, hid, hgeneration, hasleep, ?_⟩
  by_cases hcurrent : k.generation = m.generation
  · obtain rfl := hm.eq_of_generation_eq hk hl (hcurrent.trans hgeneration.symm)
    exact .inl hcalled
  · exact .inr ⟨k, hk, hcurrent, hcalled⟩

end Pending

end Monitor

namespace Watched

open Monitor

variable {w w' : Watched} {s : WatchedStep} {id : Nat}

/-! ## Who waits at any time -/

theorem Change.attentive (h : Change w w') (hm : Generations w.monitor)
    (ha : Attentive w.monitor) : Attentive w'.monitor := by
  cases h with
  | started hstart => exact ha.start hm hstart
  | stopped hstop => exact ha.stop hstop
  | ingested => exact ha.ingested
  | roused hrouse => exact ha.rouse hrouse
  | set settings => exact ⟨ha.nodup, ha.exists_loop, ha.mem_iff, ha.asleep_of_called, ha.kept⟩
  | ended hturn | sampled _ _ hturn => exact ha.turn hm hturn
  | replaced => exact ha

theorem attentive_of_play {settings : MonitorSettings} {index : Index} {steps : List WatchedStep}
    (h : play settings index steps = some w) : Attentive w.monitor := by
  unfold play at h
  split at h
  · cases h
  · next monitor hcreate =>
    have hsound : Sound ⟨monitor, index, [], [], 0, 0⟩ := by
      have hstart : play settings index [] = some ⟨monitor, index, [], [], 0, 0⟩ := by
        rw [play, hcreate]
        rfl
      exact play_sound hstart
    have hattentive : Attentive monitor := by
      obtain ⟨-, -, hcreate⟩ := Outcome.bind_eq_ok_iff.1 hcreate
      obtain rfl := Except.ok.inj hcreate
      refine ⟨List.nodup_nil, fun x hx => absurd hx List.not_mem_nil, fun l hl => ?_, fun l hl => ?_,
        fun _ => rfl⟩
      · exact absurd hl List.not_mem_nil
      · exact absurd hl List.not_mem_nil
    have hrun := Outcome.of_foldlM (P := fun v => Sound v ∧ Attentive v.monitor) h
      ⟨hsound, hattentive⟩
    refine (hrun fun v s v' _ ⟨hv, ha⟩ hs => ⟨hv.of_step hs, ?_⟩).2
    exact (change_of_step hs).attentive hv.generations ha

end Watched

/-! ## The call for the current loop -/

/-- The monitor is not stopped, the loop with the id does not go on, and no other loop goes on for a
call. -/
def WatchedStep.Spares (id : Nat) : WatchedStep → Prop
  | .stop => False
  | .rouse loop _ reason => loop ≠ id ∧ reason ≠ .call
  | _ => True

namespace Watched

open Monitor

variable {w w' : Watched} {s : WatchedStep} {id : Nat}

/-- While no loop takes it, a call stays under way. -/
theorem pending_of_step (hw : Sound w) (ha : Attentive w.monitor) (hp : Pending w.monitor id)
    (hs : s.Spares id) (h : w.step s = some w') : Pending w'.monitor id := by
  cases s with
  | start =>
    rw [step, start_of_running hp.1.running] at h
    exact Option.some.inj h ▸ hp
  | stop => exact hs.elim
  | ingested => exact Option.some.inj h ▸ hp.ingested ha
  | rouse loop now reason =>
    obtain ⟨m, hm, rfl⟩ := Option.map_eq_some_iff.1 h
    exact hp.rouse hw.generations ha hs.1 hs.2 hm
  | turn loop now heapBytes =>
    rw [step] at h
    split at h
    · cases h
    · next hturn => exact Option.some.inj h ▸ hp.turn hw.generations ha hturn
    · next hturn => exact Option.some.inj h ▸ hp.turn hw.generations ha hturn
  | setInterval interval =>
    rw [step] at h
    split at h
    · exact Option.some.inj h ▸ hp
    · next hset =>
      obtain ⟨settings, rfl⟩ := settings_of_setInterval hset
      exact Option.some.inj h ▸ ⟨⟨hp.1.running, hp.1.asleep⟩, hp.2⟩
  | setMaxHeapBytes maxHeapBytes => exact Option.some.inj h ▸ ⟨⟨hp.1.running, hp.1.asleep⟩, hp.2⟩
  | setFraction fraction =>
    rw [step] at h
    split at h
    · exact Option.some.inj h ▸ hp
    · next hset =>
      obtain ⟨settings, rfl⟩ := settings_of_setFraction hset
      exact Option.some.inj h ▸ ⟨⟨hp.1.running, hp.1.asleep⟩, hp.2⟩
  | replace index => exact Option.some.inj h ▸ hp

/-- The current loop, once called, can go on for the call at any time, and takes a sample. -/
theorem sampled_of_called (hw : Sound w) (ha : Attentive w.monitor) {l : MonitorLoop}
    (hl : l ∈ w.monitor.loops) (hcurrent : w.monitor.isCurrent l = true) (hcalled : l.called = true)
    (now heapBytes : Nat) : ∃ w', [.rouse l.id now .call, .turn l.id now heapBytes].foldlM step w =
      some w' ∧ ∃ evicted, w'.samples = w.samples ++ [(l.id, evicted)] := by
  have hreason : l.hasReason now .call = true := by
    unfold MonitorLoop.hasReason
    split
    · next hawake => exact absurd hawake (ha.asleep_of_called l hl hcalled)
    · exact hcalled
  obtain ⟨w', hw', hsample⟩ := exists_rouse_turn hw hl hreason heapBytes
  exact ⟨w', hw', hsample hcurrent⟩

/-- A call for a monitor that runs while its current loop sleeps: as long as the monitor is not
stopped, that loop does not go on and no other loop takes a call, the loop is called and can take a
sample at once, or another loop is called, whose generation is over and which hands the call on. -/
theorem call_reaches_current {settings : MonitorSettings} {index : Index}
    {steps later : List WatchedStep} (h : play settings index steps = some w) {l : MonitorLoop}
    (hl : l ∈ w.monitor.loops) (hcurrent : w.monitor.isCurrent l = true)
    (hasleep : l.phase ≠ .awake) (hdue : w.monitor.Due) (hlater : ∀ s ∈ later, s.Spares l.id)
    (hw' : (.ingested :: later).foldlM step w = some w') :
    ∃ k ∈ w'.monitor.loops, k.id = l.id ∧ w'.monitor.isCurrent k = true ∧ k.phase ≠ .awake ∧
      ((k.called = true ∧ ∀ now heapBytes, ∃ w'',
          [.rouse l.id now .call, .turn l.id now heapBytes].foldlM step w' = some w'' ∧
            ∃ evicted, w''.samples = w'.samples ++ [(l.id, evicted)]) ∨
        ∃ j ∈ w'.monitor.loops, j.generation ≠ w'.monitor.generation ∧ j.called = true) := by
  have hw := play_sound h
  have ha := attentive_of_play h
  obtain ⟨hrunning, hgeneration⟩ := Bool.and_eq_true_iff.1 hcurrent
  have hwaits : Waits w.monitor l.id :=
    ⟨hrunning, l, hl, rfl, of_decide_eq_true hgeneration, hasleep⟩
  have hstep : w.step .ingested = some { w with monitor := w.monitor.ingested } := rfl
  rw [List.foldlM_cons, hstep] at hw'
  have hrun := Outcome.of_foldlM
    (P := fun v => Sound v ∧ Attentive v.monitor ∧ Pending v.monitor l.id) hw'
    ⟨hw.of_step hstep, ha.ingested, hwaits.pending_ingested ha hdue⟩
  obtain ⟨hw', ha', hpending⟩ := hrun fun v s v' hs ⟨hv, hattentive, hpending⟩ h =>
    ⟨hv.of_step h, (change_of_step h).attentive hv.generations hattentive,
      pending_of_step hv hattentive hpending (hlater s hs) h⟩
  obtain ⟨k, hk, hid, hkgeneration, hkasleep, hcalled⟩ :=
    hpending.called_or_stale hw'.generations
  have hkcurrent : w'.monitor.isCurrent k = true := by
    rw [isCurrent, hpending.1.running, hkgeneration, decide_eq_true rfl]
    rfl
  refine ⟨k, hk, hid, hkcurrent, hkasleep, hcalled.imp_left fun hcalled => ⟨hcalled, ?_⟩⟩
  rw [← hid]
  exact sampled_of_called hw' ha' hk hkcurrent hcalled

/-- After a restart a call goes to the first loop, which waits longest. It goes on for its dismissal
and hands the call on. -/
theorem call_reaches_restarted :
    let settings : MonitorSettings := ⟨3600000, 100, 0.5, 1⟩
    let index : Index := ⟨Hash.hashText, [.empty], Table.empty, []⟩
    let steps : List WatchedStep := [.start, .turn 0 0 0, .stop, .start, .turn 1 0 0]
    let later : List WatchedStep := [.rouse 0 0 .dismissal, .turn 0 0 0]
    ∃ w w' w'', play settings index steps = some w ∧
      (.ingested :: later).foldlM step w = some w' ∧ w'.monitor.running = true ∧
      [.rouse 1 0 .call, .turn 1 0 0].foldlM step w' = some w'' ∧
      ∃ evicted, w''.samples = w'.samples ++ [(1, evicted)] := by
  intro settings index steps later
  obtain ⟨w, hw⟩ : ∃ w, play settings index steps = some w :=
    Option.isSome_iff_exists.1 (by decide +kernel)
  have hbefore : (play settings index steps).map Watched.monitor =
      some ⟨settings, true, 1, [⟨0, 0, .asleep 3600000, false, true⟩,
        ⟨1, 1, .asleep 3600000, false, false⟩], 2, [0, 1], false, 0⟩ := by decide +kernel
  have hafter : (play settings index (steps ++ .ingested :: later)).map Watched.monitor =
      some ⟨settings, true, 1, [⟨1, 1, .asleep 3600000, true, false⟩], 2, [], false, 1⟩ := by
    decide +kernel
  obtain ⟨w', hplay, hmonitor⟩ := Option.map_eq_some_iff.1 hafter
  rw [hw, Option.map_some, Option.some_inj] at hbefore
  rw [play_append, hw, Option.bind_some] at hplay
  have hlater : ∀ s ∈ later, s.Spares 1 := by simp [later, WatchedStep.Spares]
  obtain ⟨k, hk, hid, -, -, ⟨-, hsample⟩ | ⟨j, hj, hstale, -⟩⟩ :=
    call_reaches_current hw (l := ⟨1, 1, .asleep 3600000, false, false⟩) (by rw [hbefore]; decide)
      (by rw [hbefore]; decide) (by decide) (by rw [hbefore]; decide) hlater hplay
  · obtain ⟨w'', hw'', hevicted⟩ := hsample 0 0
    exact ⟨w, w', w'', hw, hplay, by rw [hmonitor], hw'', hevicted⟩
  · rw [hmonitor] at hj hstale
    exact absurd (congrArg MonitorLoop.generation (List.mem_singleton.1 hj)) hstale

/-- After a restart a call goes to the first loop, which waits longest. It goes on for the call and
ends, and nothing is left of the call: the monitor runs, but its current loop sleeps, was not called
and has taken no sample since. -/
theorem call_taken_by_dismissed :
    let settings : MonitorSettings := ⟨3600000, 100, 0.5, 1⟩
    let index : Index := ⟨Hash.hashText, [.empty], Table.empty, []⟩
    let steps : List WatchedStep := [.start, .turn 0 0 0, .stop, .start, .turn 1 0 0]
    let later : List WatchedStep := [.ingested, .rouse 0 0 .call, .turn 0 0 0]
    ∃ w w' l, play settings index steps = some w ∧ play settings index (steps ++ later) = some w' ∧
      l ∈ w.monitor.loops ∧ w.monitor.isCurrent l = true ∧ l.phase ≠ .awake ∧ w.monitor.Due ∧
      w'.monitor.running = true ∧ w'.monitor.loops = [l] ∧ l.called = false ∧
      w'.monitor.callKept = false ∧
      w.samples.map Prod.fst = [0, 1] ∧ w'.samples.map Prod.fst = [0, 1] := by
  intro settings index steps later
  obtain ⟨w, hw⟩ : ∃ w, play settings index steps = some w :=
    Option.isSome_iff_exists.1 (by decide +kernel)
  obtain ⟨w', hw'⟩ : ∃ w', play settings index (steps ++ later) = some w' :=
    Option.isSome_iff_exists.1 (by decide +kernel)
  have hbefore : (play settings index steps).map (fun w => (w.monitor, w.samples.map Prod.fst)) =
      some (⟨settings, true, 1, [⟨0, 0, .asleep 3600000, false, true⟩,
        ⟨1, 1, .asleep 3600000, false, false⟩], 2, [0, 1], false, 0⟩, [0, 1]) := by decide +kernel
  have hafter : (play settings index (steps ++ later)).map
      (fun w => (w.monitor, w.samples.map Prod.fst)) =
        some (⟨settings, true, 1, [⟨1, 1, .asleep 3600000, false, false⟩], 2, [1], false, 1⟩,
          [0, 1]) := by decide +kernel
  rw [hw, Option.map_some, Option.some_inj, Prod.mk.injEq] at hbefore
  rw [hw', Option.map_some, Option.some_inj, Prod.mk.injEq] at hafter
  refine ⟨w, w', ⟨1, 1, .asleep 3600000, false, false⟩, hw, hw', ?_⟩
  rw [hbefore.1, hbefore.2, hafter.1, hafter.2]
  decide

end Watched

end ResultSearch
