import Mathlib.Data.List.Nodup
import ResultSearch.Monitor.Loop
import ResultSearch.Proofs.Outcome

/-!
# The loops of a monitor

Which loops there are, and of which generations, changes only where a loop begins or ends and with a
stop. The current loop is one of them at most; the others were told that they are over, or will find
out in their turn.

* `outline`, `SameLoops`: what leaves the loops.
* `LoopChange`, `Generations`, `Generations.of_change`: ids and generations stay apart.
* `Expired`, `Expired.of_change`: what is over stays over.
* `Dismissed`: a sleeping loop that is over was told so.
-/

namespace ResultSearch

namespace Monitor

variable {m m' m'' : Monitor} {id : Nat}

/-! ## What leaves the loops -/

/-- The ids of the loops with their generations. -/
def outline (m : Monitor) : List (Nat × Nat) := m.loops.map fun l => (l.id, l.generation)

/-- No loop has begun or ended, and the monitor was neither started nor stopped. -/
structure SameLoops (m m' : Monitor) : Prop where
  running_eq : m'.running = m.running
  generation_eq : m'.generation = m.generation
  launched_eq : m'.launched = m.launched
  outline_eq : m'.outline = m.outline

theorem SameLoops.refl (m : Monitor) : SameLoops m m := ⟨rfl, rfl, rfl, rfl⟩

namespace SameLoops

theorem updateLoop (h : SameLoops m m') {f : MonitorLoop → MonitorLoop}
    (hf : ∀ l, (f l).id = l.id ∧ (f l).generation = l.generation) :
    SameLoops m (m'.updateLoop id f) where
  running_eq := h.running_eq
  generation_eq := h.generation_eq
  launched_eq := h.launched_eq
  outline_eq := by
    rw [← h.outline_eq, outline, Monitor.updateLoop, List.map_map]
    refine List.map_congr_left fun l _ => ?_
    by_cases hl : l.id = id
    · simp [hl, hf l]
    · simp [hl]

theorem call (h : SameLoops m m') : SameLoops m m'.call := by
  unfold Monitor.call
  split
  · exact ⟨h.running_eq, h.generation_eq, h.launched_eq, h.outline_eq⟩
  · refine updateLoop ?_ fun l => ?_
    · exact ⟨h.running_eq, h.generation_eq, h.launched_eq, h.outline_eq⟩
    · exact ⟨rfl, rfl⟩

end SameLoops

theorem sameLoops_ingested : SameLoops m m.ingested := by
  unfold ingested
  dsimp only
  split
  · exact SameLoops.call ⟨rfl, rfl, rfl, rfl⟩
  · exact ⟨rfl, rfl, rfl, rfl⟩

/-- The monitor with a loop awake for some reason. -/
def awaken (m : Monitor) (id : Nat) (reason : Reason) : Monitor :=
  { m with waiting := m.waiting.filter (· ≠ id) }.updateLoop id fun l => { l with
    phase := .awake
    called := false
    dismissed := l.dismissed && decide (reason ≠ Reason.dismissal) }

/-- A loop that goes on for another reason hands on the call that it has. -/
theorem rouse_eq_some_iff {now : Nat} {reason : Reason} :
    m.rouse id now reason = some m' ↔ ∃ l, m.loop? id = some l ∧ l.hasReason now reason = true ∧
      (if l.called && decide (reason ≠ Reason.call) then (m.awaken id reason).call
        else m.awaken id reason) = m' := by
  rw [rouse, Option.bind_eq_bind, Option.bind_eq_some_iff]
  refine exists_congr fun l => and_congr_right fun _ => ?_
  by_cases h : l.hasReason now reason = true
  · rw [if_pos h]
    exact Option.some_inj.trans (and_iff_right h).symm
  · rw [if_neg h]
    exact ⟨fun hnone => (nomatch hnone), fun hreason => absurd hreason.1 h⟩

theorem sameLoops_rouse {now : Nat} {reason : Reason} (h : m.rouse id now reason = some m') :
    SameLoops m m' := by
  obtain ⟨l, -, -, rfl⟩ := rouse_eq_some_iff.1 h
  have hawaken : SameLoops m (m.awaken id reason) := by
    refine SameLoops.updateLoop ?_ fun l => ?_
    · exact ⟨rfl, rfl, rfl, rfl⟩
    · exact ⟨rfl, rfl⟩
  split
  · exact hawaken.call
  · exact hawaken

theorem sameLoops_sleep {now : Nat} : SameLoops m (m.sleep id now) := by
  unfold sleep
  dsimp only
  split
  all_goals
    refine SameLoops.updateLoop ?_ fun l => ?_
    · exact ⟨rfl, rfl, rfl, rfl⟩
    · exact ⟨rfl, rfl⟩

/-- The monitor after a loop has ended. -/
def withoutLoop (m : Monitor) (id : Nat) : Monitor :=
  { m with loops := m.loops.filter fun l => l.id ≠ id }

/-- In its turn the current loop sleeps again, and any other one ends. -/
theorem turn_eq_some_iff {now : Nat} {result : LoopTurn} :
    m.turn id now = some (result, m') ↔ ∃ l, m.loop? id = some l ∧ l.phase = .awake ∧
      (if m.isCurrent l then (.sampled, m.sleep id now) else (.ended, m.withoutLoop id)) =
        (result, m') := by
  rw [turn, Option.bind_eq_bind, Option.bind_eq_some_iff]
  refine exists_congr fun l => and_congr_right fun _ => ?_
  by_cases h : l.phase = .awake
  · rw [if_pos h, and_iff_right h]
    by_cases hcurrent : m.isCurrent l = true
    · rw [if_pos hcurrent, if_pos hcurrent]
      exact Option.some_inj
    · rw [if_neg hcurrent, if_neg hcurrent]
      exact Option.some_inj
  · rw [if_neg h]
    exact ⟨fun hnone => (nomatch hnone), fun hphase => absurd hphase.1 h⟩

theorem settings_of_setInterval {interval : Nat} (h : m.setInterval interval = .ok m') :
    ∃ settings, m' = { m with settings } := by
  obtain ⟨-, -, h⟩ := Outcome.bind_eq_ok_iff.1 h
  exact ⟨_, (Except.ok.inj h).symm⟩

theorem settings_of_setFraction {fraction : Float} (h : m.setFraction fraction = .ok m') :
    ∃ settings, m' = { m with settings } := by
  obtain ⟨-, -, h⟩ := Outcome.bind_eq_ok_iff.1 h
  exact ⟨_, (Except.ok.inj h).symm⟩

/-! ## Generations -/

/-- How the loops of a monitor can change in one step: not at all, with a start, with a stop, or with
the end of a loop that is not current. -/
inductive LoopChange (m m' : Monitor) : Prop
  | same : SameLoops m m' → LoopChange m m'
  | started : m.running = false → m'.running = true → m'.generation = m.generation →
      m'.launched = m.launched + 1 → m'.outline = m.outline ++ [(m.launched, m.generation)] →
      LoopChange m m'
  | stopped : m'.running = false → m'.generation = m.generation + 1 →
      m'.launched = m.launched → m'.outline = m.outline → LoopChange m m'
  | ended (id : Nat) : (∀ p ∈ m.outline, p.1 = id → m.running = true → p.2 ≠ m.generation) →
      m'.running = m.running → m'.generation = m.generation → m'.launched = m.launched →
      m'.outline = m.outline.filter (fun p => p.1 ≠ id) → LoopChange m m'

/-- The loops have ids of their own and generations of their own, none above the current one, and the
monitor is running just if there is a loop of the current generation. -/
structure Generations (m : Monitor) : Prop where
  id_lt : ∀ p ∈ m.outline, p.1 < m.launched
  ids_nodup : (m.outline.map Prod.fst).Nodup
  generations_nodup : (m.outline.map Prod.snd).Nodup
  generation_le : ∀ p ∈ m.outline, p.2 ≤ m.generation
  running_iff : m.running = true ↔ ∃ p ∈ m.outline, p.2 = m.generation

namespace Generations

/-- However the loops change, ids and generations stay apart. -/
theorem of_change (hm : Generations m) (h : LoopChange m m') : Generations m' := by
  cases h with
  | same h =>
    obtain ⟨hrunning, hgeneration, hlaunched, houtline⟩ := h
    constructor <;> rw [houtline]
    · exact hlaunched ▸ hm.id_lt
    · exact hm.ids_nodup
    · exact hm.generations_nodup
    · exact hgeneration ▸ hm.generation_le
    · rw [hrunning, hgeneration]
      exact hm.running_iff
  | started hstopped hrunning hgeneration hlaunched houtline =>
    have hcurrent : ∀ p ∈ m.outline, p.2 ≠ m.generation := by
      intro p hp heq
      have hrunning := hm.running_iff.2 ⟨p, hp, heq⟩
      rw [hstopped] at hrunning
      cases hrunning
    constructor <;> rw [houtline]
    · intro p hp
      rw [hlaunched]
      rcases List.mem_append.1 hp with hp | hp
      · exact Nat.lt_succ_of_lt (hm.id_lt p hp)
      · rw [List.mem_singleton.1 hp]
        exact Nat.lt_succ_self _
    · rw [List.map_append, List.nodup_append_comm]
      refine List.nodup_cons.2 ⟨fun hmem => ?_, hm.ids_nodup⟩
      obtain ⟨p, hp, heq⟩ := List.mem_map.1 hmem
      exact Nat.ne_of_lt (hm.id_lt p hp) heq
    · rw [List.map_append, List.nodup_append_comm]
      refine List.nodup_cons.2 ⟨fun hmem => ?_, hm.generations_nodup⟩
      obtain ⟨p, hp, heq⟩ := List.mem_map.1 hmem
      exact hcurrent p hp heq
    · intro p hp
      rw [hgeneration]
      rcases List.mem_append.1 hp with hp | hp
      · exact hm.generation_le p hp
      · exact Nat.le_of_eq (congrArg Prod.snd (List.mem_singleton.1 hp))
    · rw [hgeneration]
      exact ⟨fun _ => ⟨_, List.mem_append_right _ List.mem_cons_self, rfl⟩, fun _ => hrunning⟩
  | stopped hrunning hgeneration hlaunched houtline =>
    constructor <;> rw [houtline]
    · exact hlaunched ▸ hm.id_lt
    · exact hm.ids_nodup
    · exact hm.generations_nodup
    · rw [hgeneration]
      exact fun p hp => Nat.le_succ_of_le (hm.generation_le p hp)
    · rw [hrunning, hgeneration]
      refine ⟨fun hfalse => Bool.noConfusion hfalse, fun ⟨p, hp, heq⟩ => ?_⟩
      exact absurd (hm.generation_le p hp) (heq ▸ Nat.not_succ_le_self _)
  | ended id hother hrunning hgeneration hlaunched houtline =>
    constructor <;> rw [houtline]
    · exact fun p hp => hlaunched ▸ hm.id_lt p (List.mem_of_mem_filter hp)
    · exact hm.ids_nodup.sublist (List.filter_sublist.map _)
    · exact hm.generations_nodup.sublist (List.filter_sublist.map _)
    · exact fun p hp => hgeneration ▸ hm.generation_le p (List.mem_of_mem_filter hp)
    · rw [hrunning, hgeneration]
      constructor
      · intro h
        obtain ⟨p, hp, heq⟩ := hm.running_iff.1 h
        have hne : p.1 ≠ id := fun hid => hother p hp hid h heq
        exact ⟨p, List.mem_filter.2 ⟨hp, decide_eq_true hne⟩, heq⟩
      · rintro ⟨p, hp, heq⟩
        exact hm.running_iff.2 ⟨p, List.mem_of_mem_filter hp, heq⟩

/-- Two loops with one id are one loop. -/
theorem eq_of_id_eq (hm : Generations m) {l l' : MonitorLoop} (hl : l ∈ m.loops)
    (hl' : l' ∈ m.loops) (hid : l.id = l'.id) : l = l' := by
  have hids : (m.loops.map MonitorLoop.id).Nodup := by
    have h := hm.ids_nodup
    rwa [outline, List.map_map] at h
  exact List.inj_on_of_nodup_map hids hl hl' hid

/-- Two loops of one generation are one loop. -/
theorem eq_of_generation_eq (hm : Generations m) {l l' : MonitorLoop} (hl : l ∈ m.loops)
    (hl' : l' ∈ m.loops) (hgeneration : l.generation = l'.generation) : l = l' := by
  have hgenerations : (m.loops.map MonitorLoop.generation).Nodup := by
    have h := hm.generations_nodup
    rwa [outline, List.map_map] at h
  exact List.inj_on_of_nodup_map hgenerations hl hl' hgeneration

theorem loop?_eq_some_iff (hm : Generations m) {l : MonitorLoop} :
    m.loop? id = some l ↔ l ∈ m.loops ∧ l.id = id := by
  constructor
  · intro h
    exact ⟨List.mem_of_find?_eq_some h, by simpa using List.find?_some h⟩
  · rintro ⟨hl, rfl⟩
    cases hfind : m.loop? l.id with
    | none => exact absurd (decide_eq_true rfl) (List.find?_eq_none.1 hfind l hl)
    | some l' =>
      have hid : l'.id = l.id := by simpa using List.find?_some hfind
      rw [hm.eq_of_id_eq (List.mem_of_find?_eq_some hfind) hl hid]

end Generations

/-- A turn neither starts nor stops the monitor. -/
theorem state_eq_of_turn {now : Nat} {result : LoopTurn}
    (h : m.turn id now = some (result, m')) :
    m'.running = m.running ∧ m'.generation = m.generation := by
  obtain ⟨l, -, -, h⟩ := turn_eq_some_iff.1 h
  split at h <;> obtain ⟨-, rfl⟩ := Prod.mk.inj h
  · exact ⟨sameLoops_sleep.running_eq, sameLoops_sleep.generation_eq⟩
  · exact ⟨rfl, rfl⟩

theorem mem_outline {l : MonitorLoop} (h : l ∈ m.loops) : (l.id, l.generation) ∈ m.outline :=
  List.mem_map_of_mem h

theorem loopChange_start (h : m.start = .ok (id, m')) : LoopChange m m' := by
  unfold start at h
  split at h
  · cases h
  · next hrunning =>
    obtain ⟨-, rfl⟩ := Prod.mk.inj (Except.ok.inj h)
    exact .started (Bool.eq_false_iff.2 hrunning) rfl rfl rfl List.map_append

theorem loopChange_stop (h : m.stop = .ok m') : LoopChange m m' := by
  unfold stop at h
  split at h
  · obtain rfl := Except.ok.inj h
    refine .stopped rfl rfl rfl ?_
    rw [outline, List.map_map]
    refine List.map_congr_left fun l _ => ?_
    by_cases hl : l.generation = m.generation <;> simp [hl]
  · cases h

theorem loopChange_turn (hm : Generations m) {now : Nat} {result : LoopTurn}
    (h : m.turn id now = some (result, m')) : LoopChange m m' := by
  obtain ⟨l, hl, -, h⟩ := turn_eq_some_iff.1 h
  split at h
  · obtain ⟨-, rfl⟩ := Prod.mk.inj h
    exact .same sameLoops_sleep
  · next hcurrent =>
    obtain ⟨-, rfl⟩ := Prod.mk.inj h
    refine .ended id ?_ rfl rfl rfl ?_
    · rintro p hp hid hrunning hgeneration
      obtain ⟨k, hk, rfl⟩ := List.mem_map.1 hp
      obtain ⟨hmem, hlid⟩ := hm.loop?_eq_some_iff.1 hl
      obtain rfl := hm.eq_of_id_eq hk hmem (hid.trans hlid.symm)
      exact hcurrent (by simpa [isCurrent, hrunning] using hgeneration)
    · rw [outline, outline, List.filter_map]
      rfl

/-! ## Loops that are over -/

/-- The loop with an id is not current and will not be: it has ended, or its generation is over. -/
structure Expired (m : Monitor) (id : Nat) : Prop where
  lt_launched : id < m.launched
  generation_lt : ∀ p ∈ m.outline, p.1 = id → p.2 < m.generation

theorem Expired.of_change (h : Expired m id) (hchange : LoopChange m m') : Expired m' id := by
  cases hchange with
  | same hsame =>
    refine ⟨hsame.launched_eq ▸ h.lt_launched, ?_⟩
    rw [hsame.outline_eq, hsame.generation_eq]
    exact h.generation_lt
  | started _ _ hgeneration hlaunched houtline =>
    refine ⟨hlaunched ▸ Nat.lt_succ_of_lt h.lt_launched, fun p hp hid => ?_⟩
    rw [houtline] at hp
    rw [hgeneration]
    rcases List.mem_append.1 hp with hp | hp
    · exact h.generation_lt p hp hid
    · have hlaunched : p.1 = m.launched := congrArg Prod.fst (List.mem_singleton.1 hp)
      exact absurd (hid.symm.trans hlaunched) (Nat.ne_of_lt h.lt_launched)
  | stopped _ hgeneration hlaunched houtline =>
    refine ⟨hlaunched ▸ h.lt_launched, fun p hp hid => ?_⟩
    rw [houtline] at hp
    rw [hgeneration]
    exact Nat.lt_succ_of_lt (h.generation_lt p hp hid)
  | ended _ _ _ hgeneration hlaunched houtline =>
    refine ⟨hlaunched ▸ h.lt_launched, fun p hp hid => ?_⟩
    rw [houtline] at hp
    rw [hgeneration]
    exact h.generation_lt p (List.mem_of_mem_filter hp) hid

/-- Only the current loop takes a sample in its turn. -/
theorem Expired.ne_of_sampled (h : Expired m id) (hm : Generations m) {loop now : Nat}
    (hturn : m.turn loop now = some (.sampled, m')) : loop ≠ id := by
  rintro rfl
  obtain ⟨l, hl, -, hturn⟩ := turn_eq_some_iff.1 hturn
  obtain ⟨hmem, hid⟩ := hm.loop?_eq_some_iff.1 hl
  split at hturn
  · next hcurrent =>
    have hgeneration : l.generation = m.generation :=
      of_decide_eq_true (Bool.and_eq_true_iff.1 hcurrent).2
    exact absurd (h.generation_lt _ (mem_outline hmem) hid) (hgeneration ▸ Nat.lt_irrefl _)
  · cases hturn

theorem Generations.expired_of_stale (hm : Generations m) {l : MonitorLoop} (hl : l ∈ m.loops)
    (hstale : l.generation ≠ m.generation) : Expired m l.id := by
  refine ⟨hm.id_lt _ (mem_outline hl), fun p hp hid => ?_⟩
  obtain ⟨k, hk, rfl⟩ := List.mem_map.1 hp
  obtain rfl := hm.eq_of_id_eq hk hl hid
  exact Nat.lt_of_le_of_ne (hm.generation_le _ hp) hstale

theorem mem_loops_call {l : MonitorLoop} (h : l ∈ m.call.loops) :
    ∃ k ∈ m.loops, l = k ∨ l = { k with called := true } := by
  unfold call at h
  split at h
  · exact ⟨l, h, .inl rfl⟩
  · obtain ⟨k, hk, rfl⟩ := List.mem_map.1 h
    refine ⟨k, hk, ?_⟩
    split
    · exact .inr rfl
    · exact .inl rfl

theorem awake_of_rouse {now : Nat} {reason : Reason} (h : m.rouse id now reason = some m') :
    ∀ l ∈ m'.loops, l.id = id → l.phase = .awake := by
  have hawaken : ∀ l ∈ (m.awaken id reason).loops, l.id = id → l.phase = .awake := by
    intro l hl hid
    obtain ⟨k, -, rfl⟩ := List.mem_map.1 hl
    by_cases hk : k.id = id
    · rw [if_pos hk]
    · rw [if_neg hk] at hid
      exact absurd hid hk
  obtain ⟨l, -, -, rfl⟩ := rouse_eq_some_iff.1 h
  split
  · intro k hk hid
    obtain ⟨j, hj, rfl | rfl⟩ := mem_loops_call hk
    · exact hawaken k hj hid
    · exact hawaken j hj hid
  · exact hawaken

/-- Every loop that is not current and sleeps was told so. -/
def Dismissed (m : Monitor) : Prop :=
  ∀ l ∈ m.loops, l.generation ≠ m.generation → l.phase ≠ .awake → l.dismissed = true

namespace Dismissed

/-- Changing a loop dismisses it no less if it wakes it, if it leaves it as it is in what counts, or
if it is the current one. -/
theorem updateLoop (h : Dismissed m) {f : MonitorLoop → MonitorLoop}
    (hf : ∀ l ∈ m.loops, l.id = id → (f l).phase = .awake ∨ (f l).generation = m.generation ∨
      (f l).generation = l.generation ∧ (f l).phase = l.phase ∧ (f l).dismissed = l.dismissed) :
    Dismissed (m.updateLoop id f) := by
  intro k hk hgeneration hphase
  obtain ⟨l, hl, rfl⟩ := List.mem_map.1 hk
  by_cases hid : l.id = id
  · rw [if_pos hid] at hgeneration hphase ⊢
    rcases hf l hl hid with hawake | hcurrent | ⟨hg, hp, hd⟩
    · exact absurd hawake hphase
    · exact absurd hcurrent hgeneration
    · exact hd.trans (h l hl (hg ▸ hgeneration) (hp ▸ hphase))
  · rw [if_neg hid] at hgeneration hphase ⊢
    exact h l hl hgeneration hphase

theorem call (h : Dismissed m) : Dismissed m.call := by
  unfold Monitor.call
  split
  · exact h
  · refine updateLoop ?_ fun l _ _ => ?_
    · exact h
    · exact .inr (.inr ⟨rfl, rfl, rfl⟩)

theorem ingested (h : Dismissed m) : Dismissed m.ingested := by
  unfold Monitor.ingested
  dsimp only
  split
  · refine call ?_
    exact h
  · exact h

theorem rouse (h : Dismissed m) {now : Nat} {reason : Reason}
    (hrouse : m.rouse id now reason = some m') : Dismissed m' := by
  obtain ⟨l, -, -, rfl⟩ := rouse_eq_some_iff.1 hrouse
  have hawaken : Dismissed (m.awaken id reason) := by
    refine updateLoop ?_ fun l _ _ => ?_
    · exact h
    · exact .inl rfl
  split
  · exact hawaken.call
  · exact hawaken

theorem sleep (h : Dismissed m) (hcurrent : ∀ l ∈ m.loops, l.id = id → l.generation = m.generation)
    (now : Nat) : Dismissed (m.sleep id now) := by
  unfold Monitor.sleep
  dsimp only
  split
  all_goals
    refine updateLoop ?_ fun l hl hid => ?_
    · exact h
    · exact .inr (.inl (hcurrent l hl hid))

theorem turn (h : Dismissed m) (hm : Generations m) {now : Nat} {result : LoopTurn}
    (hturn : m.turn id now = some (result, m')) : Dismissed m' := by
  obtain ⟨l, hl, -, hturn⟩ := turn_eq_some_iff.1 hturn
  split at hturn
  · next hcurrent =>
    obtain ⟨-, rfl⟩ := Prod.mk.inj hturn
    obtain ⟨hmem, hlid⟩ := hm.loop?_eq_some_iff.1 hl
    refine h.sleep (fun k hk hid => ?_) now
    obtain rfl := hm.eq_of_id_eq hk hmem (hid.trans hlid.symm)
    exact of_decide_eq_true ((Bool.and_eq_true_iff.1 hcurrent).2)
  · obtain ⟨-, rfl⟩ := Prod.mk.inj hturn
    exact fun k hk => h k (List.mem_of_mem_filter hk)

theorem start (h : Dismissed m) (hstart : m.start = .ok (id, m')) : Dismissed m' := by
  unfold Monitor.start at hstart
  split at hstart
  · cases hstart
  · obtain ⟨-, rfl⟩ := Prod.mk.inj (Except.ok.inj hstart)
    intro l hl hgeneration hphase
    rcases List.mem_append.1 hl with hl | hl
    · exact h l hl hgeneration hphase
    · rw [List.mem_singleton.1 hl] at hphase
      exact absurd rfl hphase

/-- A stop tells the loop that was current. -/
theorem stop (h : Dismissed m) (hstop : m.stop = .ok m') : Dismissed m' := by
  unfold Monitor.stop at hstop
  split at hstop
  · obtain rfl := Except.ok.inj hstop
    intro k hk _ hphase
    obtain ⟨l, hl, rfl⟩ := List.mem_map.1 hk
    by_cases hcurrent : l.generation = m.generation
    · rw [if_pos hcurrent]
    · rw [if_neg hcurrent] at hphase ⊢
      exact h l hl hcurrent hphase
  · cases hstop

end Dismissed

/-- A new monitor has no loops. -/
theorem generations_of_create {settings : MonitorSettings} (h : create settings = .ok m) :
    Generations m ∧ Dismissed m := by
  obtain ⟨-, -, h⟩ := Outcome.bind_eq_ok_iff.1 h
  obtain rfl := Except.ok.inj h
  refine ⟨?_, fun l hl => absurd hl List.not_mem_nil⟩
  constructor
  · exact fun p hp => absurd hp List.not_mem_nil
  · exact List.nodup_nil
  · exact List.nodup_nil
  · exact fun p hp => absurd hp List.not_mem_nil
  · exact ⟨fun hfalse => Bool.noConfusion hfalse, fun ⟨p, hp, _⟩ => absurd hp List.not_mem_nil⟩

end Monitor

end ResultSearch
