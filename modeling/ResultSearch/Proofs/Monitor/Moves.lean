import ResultSearch.Proofs.Monitor.Calls
import ResultSearch.Session.Scheduler

/-!
# What happens to a monitor

However a monitor is used, one thing happens to it after the other: it is started or stopped, a run
is counted, its settings are changed, or one of its loops has its turn. A loop that sleeps is left
alone by all of that, until it has its own turn: then it sleeps again if it is the current one, and
ends if it is not.

* `Move`, `Move.loopChange`: one such thing, as a change of the loops.
* `Since`: whether a monitor that was not running has been started since, unless it was stopped.
* `Sleeps`, `Sleeps.of_move`: a loop that sleeps is left alone.
* `exists_sampled_of_start`, `Sleeps.sampled`, `Sleeps.exists_ended`: its own turns.
-/

namespace ResultSearch

namespace Session

/-- A loop goes on for one of the reasons that it has, if it has one. -/
theorem rouseLoop_cases (m : Monitor) (loop now : Nat) :
    rouseLoop m loop now = m ∧ (∀ reason, m.rouse loop now reason = none) ∨
      ∃ reason, m.rouse loop now reason = some (rouseLoop m loop now) := by
  unfold rouseLoop
  cases hcall : m.rouse loop now .call with
  | some roused => exact .inr ⟨.call, hcall⟩
  | none =>
    cases hdismissal : m.rouse loop now .dismissal with
    | some roused => exact .inr ⟨.dismissal, hdismissal⟩
    | none =>
      cases htimer : m.rouse loop now .timer with
      | some roused => exact .inr ⟨.timer, htimer⟩
      | none =>
        refine .inl ⟨rfl, fun reason => ?_⟩
        cases reason with
        | call => exact hcall
        | dismissal => exact hdismissal
        | timer => exact htimer

end Session

namespace Monitor

open Session (rouseLoop rouseLoop_cases)

variable {m m' m'' : Monitor} {loop generation now : Nat} {turns : Nat → Prop}

/-- One thing that can happen to a monitor; `turns` says which loops may have their turn. -/
inductive Move (turns : Nat → Prop) (m : Monitor) : Monitor → Prop
  | none : Move turns m m
  | counted : Move turns m m.ingested
  | set (settings : MonitorSettings) : Move turns m { m with settings }
  | started {loop : Nat} {m' : Monitor} : m.start = .ok (loop, m') → Move turns m m'
  | stopped {m' : Monitor} : m.stop = .ok m' → Move turns m m'
  | turned {loop now : Nat} {result : LoopTurn} {m' : Monitor} : turns loop →
      (rouseLoop m loop now).turn loop now = some (result, m') → Move turns m m'

theorem Move.mono {turns' : Nat → Prop} (h : Move turns m m')
    (hturns : ∀ loop, turns loop → turns' loop) : Move turns' m m' := by
  cases h with
  | none => exact .none
  | counted => exact .counted
  | set settings => exact .set settings
  | started h => exact .started h
  | stopped h => exact .stopped h
  | turned hloop h => exact .turned (hturns _ hloop) h

/-! ## As a change of the loops -/

theorem sameLoops_rouseLoop : SameLoops m (rouseLoop m loop now) := by
  obtain ⟨h, -⟩ | ⟨reason, h⟩ := rouseLoop_cases m loop now
  · rw [h]
    exact .refl m
  · exact sameLoops_rouse h

theorem SameLoops.trans (h : SameLoops m m') (h' : SameLoops m' m'') : SameLoops m m'' :=
  ⟨h'.running_eq.trans h.running_eq, h'.generation_eq.trans h.generation_eq,
    h'.launched_eq.trans h.launched_eq, h'.outline_eq.trans h.outline_eq⟩

theorem LoopChange.of_same (h : SameLoops m m') (h' : LoopChange m' m'') : LoopChange m m'' := by
  obtain ⟨hrunning, hgeneration, hlaunched, houtline⟩ := id h
  cases h' with
  | same h' => exact .same (h.trans h')
  | started h₁ h₂ h₃ h₄ h₅ =>
    rw [hrunning] at h₁
    rw [hgeneration] at h₃ h₅
    rw [hlaunched] at h₄ h₅
    rw [houtline] at h₅
    exact .started h₁ h₂ h₃ h₄ h₅
  | stopped h₁ h₂ h₃ h₄ =>
    exact .stopped h₁ (hgeneration ▸ h₂) (h₃.trans hlaunched) (h₄.trans houtline)
  | ended id h₁ h₂ h₃ h₄ h₅ =>
    rw [houtline, hrunning, hgeneration] at h₁
    exact .ended id h₁ (h₂.trans hrunning) (h₃.trans hgeneration) (h₄.trans hlaunched)
      (houtline ▸ h₅)

theorem Move.loopChange (h : Move turns m m') (hm : Generations m) : LoopChange m m' := by
  cases h with
  | none => exact .same (.refl m)
  | counted => exact .same sameLoops_ingested
  | set settings => exact .same ⟨rfl, rfl, rfl, rfl⟩
  | started h => exact loopChange_start h
  | stopped h => exact loopChange_stop h
  | turned _ h =>
    exact .of_same sameLoops_rouseLoop
      (loopChange_turn (hm.of_change (.same sameLoops_rouseLoop)) h)

theorem Dismissed.rouseLoop (h : Dismissed m) : Dismissed (Session.rouseLoop m loop now) := by
  obtain ⟨heq, -⟩ | ⟨reason, hrouse⟩ := rouseLoop_cases m loop now
  · rwa [heq]
  · exact h.rouse hrouse

theorem Move.dismissed (h : Move turns m m') (hm : Generations m) (hd : Dismissed m) :
    Dismissed m' := by
  cases h with
  | none => exact hd
  | counted => exact hd.ingested
  | set settings => exact hd
  | started h => exact hd.start h
  | stopped h => exact hd.stop h
  | turned _ h => exact hd.rouseLoop.turn (hm.of_change (.same sameLoops_rouseLoop)) h

/-! ## Starts and stops -/

theorem LoopChange.generation_le (h : LoopChange m m') : m.generation ≤ m'.generation := by
  cases h with
  | same h => exact Nat.le_of_eq h.generation_eq.symm
  | started _ _ h _ _ => exact Nat.le_of_eq h.symm
  | stopped _ h _ _ => exact h ▸ Nat.le_succ _
  | ended _ _ _ h _ _ => exact Nat.le_of_eq h.symm

theorem LoopChange.launched_le (h : LoopChange m m') : m.launched ≤ m'.launched := by
  cases h with
  | same h => exact Nat.le_of_eq h.launched_eq.symm
  | started _ _ _ h _ => exact h ▸ Nat.le_succ _
  | stopped _ _ h _ => exact Nat.le_of_eq h.symm
  | ended _ _ _ _ h _ => exact Nat.le_of_eq h.symm

/-- A loop that begins takes the id that follows. -/
theorem launched_of_start (h : m.start = .ok (loop, m')) :
    loop = m.launched ∧ m'.launched = m.launched + 1 ∧ m'.running = true := by
  unfold start at h
  split at h
  · cases h
  · obtain ⟨rfl, rfl⟩ := Prod.mk.inj (Except.ok.inj h)
    exact ⟨rfl, rfl, rfl⟩

theorem generation_of_stop (h : m.stop = .ok m') : m'.generation = m.generation + 1 := by
  unfold stop at h
  split at h
  · rw [← Except.ok.inj h]
  · cases h

/-- A monitor that runs goes on to as long as it is not stopped. -/
theorem LoopChange.running (h : LoopChange m m') (hrunning : m.running = true)
    (hgeneration : m'.generation = m.generation) : m'.running = true := by
  cases h with
  | same h => exact h.running_eq.trans hrunning
  | started _ h _ _ _ => exact h
  | stopped _ h _ _ => omega
  | ended _ _ h _ _ _ => exact h.trans hrunning

/-- Since the monitor was not running, in a generation and after some loops, it was stopped, or it
runs just if a loop has begun. -/
structure Since (generation launched : Nat) (m : Monitor) : Prop where
  generation_le : generation ≤ m.generation
  launched_le : launched ≤ m.launched
  running_iff : m.generation = generation → (m.running = true ↔ launched < m.launched)

theorem since_of_not_running (h : m.running = false) : Since m.generation m.launched m :=
  ⟨Nat.le_refl _, Nat.le_refl _, fun _ => by simp [h]⟩

theorem Since.of_change {launched : Nat} (h : Since generation launched m)
    (hchange : LoopChange m m') : Since generation launched m' := by
  have hle := hchange.generation_le
  refine ⟨Nat.le_trans h.generation_le hle, Nat.le_trans h.launched_le hchange.launched_le,
    fun hgeneration => ?_⟩
  have hbefore : m.generation = generation := by
    have := h.generation_le
    omega
  have hiff := h.running_iff hbefore
  cases hchange with
  | same hsame => rwa [hsame.running_eq, hsame.launched_eq]
  | started _ hrunning _ hlaunched _ =>
    have := h.launched_le
    simp only [hrunning, hlaunched, true_iff]
    omega
  | stopped _ hnext _ _ => omega
  | ended _ _ hrunning _ hlaunched _ => rwa [hrunning, hlaunched]

/-! ## Loops that sleep -/

/-- A loop of a generation sleeps. -/
def Sleeps (m : Monitor) (loop generation : Nat) : Prop :=
  ∃ l ∈ m.loops, l.id = loop ∧ l.generation = generation ∧ l.phase ≠ .awake

namespace Sleeps

theorem call (h : Sleeps m loop generation) : Sleeps m.call loop generation := by
  obtain ⟨l, hl, hid, hgeneration, hasleep⟩ := h
  obtain ⟨k, hk, hkid, hkgeneration, hkphase, -⟩ := exists_mem_call hl
  exact ⟨k, hk, hkid.trans hid, hkgeneration.trans hgeneration, hkphase ▸ hasleep⟩

theorem ingested (h : Sleeps m loop generation) : Sleeps m.ingested loop generation := by
  unfold Monitor.ingested
  dsimp only
  split
  · exact call h
  · exact h

theorem stop (h : Sleeps m loop generation) (hstop : m.stop = .ok m') :
    Sleeps m' loop generation := by
  obtain ⟨l, hl, hid, hgeneration, hasleep⟩ := h
  unfold Monitor.stop at hstop
  split at hstop
  · obtain rfl := Except.ok.inj hstop
    refine ⟨_, List.mem_map_of_mem hl, ?_⟩
    split <;> exact ⟨hid, hgeneration, hasleep⟩
  · cases hstop

theorem start (h : Sleeps m loop generation) {new : Nat} (hstart : m.start = .ok (new, m')) :
    Sleeps m' loop generation := by
  obtain ⟨l, hl, hsleeps⟩ := h
  unfold Monitor.start at hstart
  split at hstart
  · cases hstart
  · obtain ⟨-, rfl⟩ := Prod.mk.inj (Except.ok.inj hstart)
    exact ⟨l, List.mem_append_left _ hl, hsleeps⟩

theorem rouse (h : Sleeps m loop generation) {other : Nat} (hne : other ≠ loop) {reason : Reason}
    (hrouse : m.rouse other now reason = some m') : Sleeps m' loop generation := by
  obtain ⟨l, hl, hid, hsleeps⟩ := h
  obtain ⟨j, -, -, rfl⟩ := rouse_eq_some_iff.1 hrouse
  have hawaken : Sleeps (m.awaken other reason) loop generation :=
    ⟨l, mem_updateLoop_of_ne hl (hid.symm ▸ hne.symm), hid, hsleeps⟩
  split
  · exact hawaken.call
  · exact hawaken

/-- A loop that sleeps is left alone until it has its own turn. -/
theorem of_move (h : Sleeps m loop generation) (hm : Generations m) (hmove : Move turns m m')
    (hne : ¬ turns loop) : Sleeps m' loop generation := by
  cases hmove with
  | none => exact h
  | counted => exact h.ingested
  | set settings => exact h
  | started hstart => exact h.start hstart
  | stopped hstop => exact h.stop hstop
  | @turned other now _ _ hother hturn =>
    have hrest : Sleeps (rouseLoop m other now) loop generation := by
      obtain ⟨heq, -⟩ | ⟨reason, hrouse⟩ := rouseLoop_cases m other now
      · rwa [heq]
      · exact h.rouse (fun heq => hne (heq ▸ hother)) hrouse
    obtain ⟨l, hl, hid, hgeneration, hasleep⟩ := hrest
    exact ⟨l, mem_loops_turn (hm.of_change (.same sameLoops_rouseLoop)) hturn hl hasleep, hid,
      hgeneration, hasleep⟩

end Sleeps

/-! ## The turns of a loop -/

theorem Generations.eq_of_fst_eq (hm : Generations m) {p q : Nat × Nat} (hp : p ∈ m.outline)
    (hq : q ∈ m.outline) (h : p.1 = q.1) : p = q :=
  List.inj_on_of_nodup_map hm.ids_nodup hp hq h

theorem sleeps_sleep {l : MonitorLoop} (hl : l ∈ m.loops) :
    Sleeps (m.sleep l.id now) l.id l.generation := by
  unfold sleep
  dsimp only
  split
  all_goals
    refine ⟨_, List.mem_map_of_mem hl, ?_⟩
    rw [if_pos rfl]
    exact ⟨rfl, rfl, fun h => LoopPhase.noConfusion h⟩

/-- A loop that begins takes a sample and sleeps. -/
theorem exists_sampled_of_start (hm : Generations m) (h : m.start = .ok (loop, m')) (now : Nat) :
    ∃ m'', (rouseLoop m' loop now).turn loop now = some (.sampled, m'') ∧ SameLoops m' m'' ∧
      Sleeps m'' loop m.generation := by
  have hm' := hm.of_change (loopChange_start h)
  unfold start at h
  split at h
  · cases h
  · obtain ⟨rfl, rfl⟩ := Prod.mk.inj (Except.ok.inj h)
    generalize hm'' :
      ({ m with running := true, launched := m.launched + 1, loops := _ } : Monitor) = m' at hm' ⊢
    have hl : m'.loop? m.launched = some ⟨m.launched, m.generation, .awake, false, false⟩ := by
      refine hm'.loop?_eq_some_iff.2 ⟨?_, rfl⟩
      rw [← hm'']
      exact List.mem_append_right _ List.mem_cons_self
    have hrouse : rouseLoop m' m.launched now = m' := by
      obtain ⟨heq, -⟩ | ⟨reason, hrouse⟩ := rouseLoop_cases m' m.launched now
      · exact heq
      · obtain ⟨l, hl', hreason, -⟩ := rouse_eq_some_iff.1 hrouse
        obtain rfl := Option.some.inj (hl.symm.trans hl')
        cases hreason
    have hcurrent : m'.isCurrent ⟨m.launched, m.generation, .awake, false, false⟩ = true := by
      rw [← hm'']
      exact decide_eq_true rfl
    refine ⟨m'.sleep m.launched now, ?_, sameLoops_sleep,
      sleeps_sleep (hm'.loop?_eq_some_iff.1 hl).1⟩
    rw [hrouse]
    exact turn_eq_some_iff.2 ⟨_, hl, rfl, if_pos hcurrent⟩

/-- The current loop takes a sample in its turn and sleeps again. -/
theorem Sleeps.sampled (h : Sleeps m loop generation) (hm : Generations m)
    (hrunning : m.running = true) (hcurrent : m.generation = generation) {result : LoopTurn}
    (hturn : (rouseLoop m loop now).turn loop now = some (result, m')) :
    result = .sampled ∧ SameLoops m m' ∧ Sleeps m' loop generation := by
  obtain ⟨l, hl, hid, hgeneration, -⟩ := h
  have hsame : SameLoops m (rouseLoop m loop now) := sameLoops_rouseLoop
  obtain ⟨k, hk, -, hresult⟩ := turn_eq_some_iff.1 hturn
  obtain ⟨hmem, rfl⟩ := (hm.of_change (.same hsame)).loop?_eq_some_iff.1 hk
  have heq := hm.eq_of_fst_eq (mem_outline hl) (hsame.outline_eq ▸ mem_outline hmem) hid
  have hkgeneration : k.generation = generation := (Prod.mk.inj heq).2.symm.trans hgeneration
  have hsampled : (rouseLoop m k.id now).isCurrent k = true := by
    rw [isCurrent, hsame.running_eq, hsame.generation_eq, hrunning, hkgeneration, hcurrent]
    exact decide_eq_true rfl
  rw [if_pos hsampled] at hresult
  obtain ⟨rfl, rfl⟩ := Prod.mk.inj hresult
  exact ⟨rfl, hsame.trans sameLoops_sleep, hkgeneration ▸ sleeps_sleep hmem⟩

/-- A loop that is over and sleeps was told so. -/
theorem Sleeps.exists_dismissed (h : Sleeps m loop generation) (hm : Generations m)
    (hd : Dismissed m) (hstale : generation ≠ m.generation) (now : Nat) :
    ∃ l, m.loop? loop = some l ∧ l.generation = generation ∧ l.hasReason now .dismissal = true := by
  obtain ⟨l, hl, hid, rfl, hasleep⟩ := h
  refine ⟨l, hm.loop?_eq_some_iff.2 ⟨hl, hid⟩, rfl, ?_⟩
  unfold MonitorLoop.hasReason
  split
  · next hawake => exact absurd hawake hasleep
  · exact hd l hl hstale hasleep

/-- A loop that is over ends in its turn. -/
theorem Sleeps.exists_ended (h : Sleeps m loop generation) (hm : Generations m) (hd : Dismissed m)
    (hstale : generation ≠ m.generation) (now : Nat) :
    ∃ m', (rouseLoop m loop now).turn loop now = some (.ended, m') := by
  obtain ⟨l, hl, rfl, hreason⟩ := h.exists_dismissed hm hd hstale now
  obtain ⟨hmem, rfl⟩ := hm.loop?_eq_some_iff.1 hl
  have hsame : SameLoops m (rouseLoop m l.id now) := sameLoops_rouseLoop
  have hawake : ∀ k ∈ (rouseLoop m l.id now).loops, k.id = l.id → k.phase = .awake := by
    obtain ⟨-, hnone⟩ | ⟨reason, hrouse⟩ := rouseLoop_cases m l.id now
    · cases (hnone .dismissal).symm.trans (rouse_eq_some_iff.2 ⟨l, hl, hreason, rfl⟩)
    · exact awake_of_rouse hrouse
  have hthere : (l.id, l.generation) ∈ (rouseLoop m l.id now).outline :=
    hsame.outline_eq ▸ mem_outline hmem
  obtain ⟨k, hk, heq⟩ := List.mem_map.1 hthere
  obtain ⟨hkid, hkgeneration⟩ := Prod.mk.inj heq
  have hcurrent : ¬ (rouseLoop m l.id now).isCurrent k = true := by
    rw [isCurrent, hsame.generation_eq, hkgeneration, decide_eq_false hstale, Bool.and_false]
    exact Bool.false_ne_true
  exact ⟨_, turn_eq_some_iff.2 ⟨k, (hm.of_change (.same hsame)).loop?_eq_some_iff.2 ⟨hk, hkid⟩,
    hawake k hk hkid, if_neg hcurrent⟩⟩

end Monitor

end ResultSearch
