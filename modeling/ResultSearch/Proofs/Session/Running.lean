import ResultSearch.Proofs.Session.Halting
import ResultSearch.Proofs.Session.Hooks
import ResultSearch.Session.Script

/-!
# Filling in a session that runs

The tasks of a session have their turns while the report of a run is loaded. Whatever they do, the
flag of a backfill stays where it is and goes down at most.

* `Session.Overheard`: what the flag of a backfill may have heard of.
* `overheard_settle`: the turns of all tasks.
* `play_of_fill`: filling the index of a session is filling step by step, with turns of the tasks in
  between.
-/

namespace ResultSearch

namespace Session

variable {s s' s'' : Session} {flag : Option Nat}

/-! ## The turns of tasks -/

/-- Both sessions have the same listeners, and the flag of a backfill is as it was or went down. -/
def Overheard (flag : Option Nat) (s s' : Session) : Prop := ∃ told, Heard told flag s s'

theorem Heard.overheard {told : Bool} (h : Heard told flag s s') : Overheard flag s s' := ⟨told, h⟩

theorem Overheard.refl (flag : Option Nat) (s : Session) : Overheard flag s s :=
  (Heard.refl flag s).overheard

theorem Overheard.trans (h : Overheard flag s s') (h' : Overheard flag s' s'') : Overheard flag s s'' := by
  obtain ⟨told, h⟩ := h
  obtain ⟨told', h'⟩ := h'
  exact (h.trans h').overheard

theorem Overheard.of_eq (hindex : s'.indexListeners = s.indexListeners)
    (hwatches : s'.watches = s.watches) (hbackfills : s'.backfills = s.backfills) :
    Overheard flag s s' :=
  (Heard.of_eq hindex hwatches hbackfills).overheard

variable (id : Nat)

theorem overheard_updateTask (f : Task → Task) : Overheard flag s (s.updateTask id f) := by
  unfold updateTask
  split
  · exact .of_eq rfl rfl rfl
  · exact .refl flag s

theorem overheard_setJob (job : Job) : Overheard flag s (s.setJob id job) := overheard_updateTask id _

theorem overheard_finish (outcome : Except Error Unit) : Overheard flag s (s.finish id outcome) :=
  overheard_updateTask id _

theorem overheard_makeReady : Overheard flag s (s.makeReady id) := (heard_makeReady id).overheard

theorem overheard_waitUntil (due : Nat) : Overheard flag s (s.waitUntil id due) :=
  (overheard_updateTask id _).trans (.of_eq rfl rfl rfl)

theorem overheard_park (r : Run) : Overheard flag s (s.park id r) :=
  (overheard_updateTask id _).trans (.of_eq rfl rfl rfl)

theorem overheard_setWatch {m : Nat} {w : Watch} (hw : s.watch? m = some w) (monitor : Monitor) :
    Overheard flag s { s with watches := s.watches.set m { w with monitor } } := by
  have hlisteners : ({ w with monitor } : Watch).listeners = w.listeners := rfl
  exact (heard_setWatch hw hlisteners).overheard

theorem overheard_check (settings : MonitorSettings) : Overheard flag s (s.check settings).2 :=
  (heard_check settings).overheard

theorem overheard_turnLoop (monitor loop : Nat) : Overheard flag s (s.turnLoop id monitor loop) := by
  unfold turnLoop
  split
  · exact .refl flag s
  · next w hw =>
    dsimp only
    split
    · exact .refl flag s
    · next m _ => exact (overheard_setWatch hw m).trans (overheard_finish id _)
    · next m _ =>
      have hsampled : Overheard flag s _ :=
        (overheard_setWatch hw m).trans (overheard_check m.settings)
      split
      · exact (hsampled.trans (overheard_waitUntil id _)).trans (overheard_makeReady id)
      · exact hsampled.trans (overheard_waitUntil id _)

theorem overheard_turnStart (monitor : Nat) : Overheard flag s (s.turnStart id monitor) := by
  unfold turnStart
  split
  · exact .refl flag s
  · next w hw =>
    split
    · exact overheard_finish id _
    · next loop m _ =>
      exact ((overheard_setWatch hw m).trans (overheard_setJob id _)).trans
        (overheard_turnLoop id monitor loop)

theorem overheard_awaitTick (t : Ticker) : Overheard flag s (s.awaitTick id t) := by
  unfold awaitTick
  split
  · exact overheard_makeReady id
  · exact overheard_waitUntil id _

theorem overheard_offerRuns (interval maxRuns : Nat) (t : Ticker) (p : PollPass)
    (runs : List Run) : Overheard flag s (s.offerRuns id interval maxRuns t p runs) := by
  induction runs generalizing p with
  | nil => exact (overheard_setJob id _).trans (overheard_awaitTick id t)
  | cons r rest ih =>
    rw [offerRuns]
    split
    · exact ih _
    · exact ((heard_setIndex _).overheard.trans (overheard_setJob id _)).trans (overheard_park id r)

theorem overheard_receiveRuns (interval maxRuns : Nat) (t : Ticker) :
    Overheard flag s (s.receiveRuns id interval maxRuns t) := by
  unfold receiveRuns
  split
  · exact (overheard_setJob id _).trans (overheard_updateTask id _)
  · split
    · exact overheard_offerRuns id _ _ _ _ _
    · exact overheard_offerRuns id _ _ _ _ _

theorem overheard_tickPoll (interval maxRuns : Nat) (t : Ticker) :
    Overheard flag s (s.tickPoll id interval maxRuns t) := by
  unfold tickPoll
  split
  · exact overheard_finish id _
  · have hasked : Overheard flag s (s.askRuns maxRuns) := .of_eq rfl rfl rfl
    exact hasked.trans (overheard_receiveRuns id _ _ _)

theorem overheard_tickRefresh (kind : LoopKind) (interval : Nat) (t : Ticker) :
    Overheard flag s (s.tickRefresh id kind interval t) := by
  unfold tickRefresh
  split
  · exact overheard_finish id _
  · refine (Overheard.trans ?_ (overheard_setJob id _)).trans (overheard_awaitTick id _)
    split
    · split <;> exact .of_eq rfl rfl rfl
    · split <;> exact .of_eq rfl rfl rfl

theorem overheard_turnJob (job : Job) : Overheard flag s (s.turnJob id job) := by
  cases job with
  | watch monitor loop =>
    cases loop with
    | none => exact overheard_turnStart id monitor
    | some loop => exact overheard_turnLoop id monitor loop
  | ingest r =>
    rw [turnJob]
    split
    · exact overheard_finish id _
    · exact (heard_setIndex _).overheard.trans (overheard_park id r)
  | poll interval maxRuns ticker pass =>
    cases ticker with
    | none =>
      rw [turnJob]
      split
      · exact overheard_finish id _
      · exact (overheard_setJob id _).trans (overheard_awaitTick id _)
    | some t => exact overheard_tickPoll id interval maxRuns t
  | refresh kind interval ticker =>
    cases ticker with
    | none =>
      rw [turnJob]
      split
      · exact overheard_finish id _
      · exact overheard_tickRefresh id kind interval _
    | some t => exact overheard_tickRefresh id kind interval t

/-! ## Loads -/

theorem overheard_hookClosed (flag : Option Nat) : HookClosed (Overheard flag) where
  refl := .refl flag
  trans := .trans
  evictAny _ := heard_evictAny.overheard
  stop hw hstop := (heard_stopMonitor hw hstop).overheard
  check _ := overheard_check
  logged _ _ _ _ := .of_eq rfl rfl rfl

theorem overheard_completeLoad (r : Run) : Overheard flag s (s.completeLoad r).2 := by
  obtain ⟨loading, loaded, hloading, hdeliver⟩ := (overheard_hookClosed flag).exists_loading s r
  rw [hdeliver]
  exact hloading.trans (heard_deliver r loaded).overheard

theorem overheard_resume (job : Job) (outcome : Except Error Unit) :
    Overheard flag s (s.resume id job outcome) := by
  unfold resume
  split
  · exact overheard_offerRuns id _ _ _ _ _
  · exact overheard_finish id outcome

theorem overheard_turn : Overheard flag s (s.turn id) := by
  have hload (job : Job) (r : Run) : Overheard flag s (s.turnLoad id job r) := by
    unfold turnLoad
    split
    · exact overheard_updateTask id _
    · exact (overheard_completeLoad r).trans (overheard_resume id job _)
  unfold turn
  split
  · exact .refl flag s
  · split
    · exact overheard_turnJob id _
    · exact hload _ _
    · exact hload _ _
    · unfold turnListing
      split
      · exact overheard_receiveRuns id _ _ _
      · exact .refl flag s
    · exact .refl flag s
    · exact .refl flag s

theorem overheard_drain (fuel : Nat) : Overheard flag s (drain fuel s) := by
  induction fuel generalizing s with
  | zero => exact .refl flag s
  | succ fuel ih =>
    rw [drain]
    split
    · exact .refl flag s
    · next id rest _ =>
      have hqueue : Overheard flag s { s with queue := rest } := .of_eq rfl rfl rfl
      exact (hqueue.trans (overheard_turn id)).trans ih

/-- Whatever the tasks do in their turns, the flag of a backfill stays in its places and goes down
at most. -/
theorem overheard_settle : Overheard flag s s.settle := by
  have hqueue : Overheard flag s { s with queue := s.parked ++ s.queue, parked := [] } :=
    .of_eq rfl rfl rfl
  exact hqueue.trans (overheard_drain patience)

end Session

namespace Filling

open Session

variable {f f' : Filling} {fs : FillStep}

/-! ## Filling -/

/-- Some steps lead from one point of filling to another. -/
def Leads (f f' : Filling) : Prop := ∃ steps : List FillStep, steps.foldlM step f = some f'

namespace Leads

theorem refl (f : Filling) : Leads f f := ⟨[], rfl⟩

theorem head {f'' : Filling} (h : f.step fs = some f') (h' : Leads f' f'') : Leads f f'' := by
  obtain ⟨steps, hsteps⟩ := h'
  refine ⟨fs :: steps, ?_⟩
  rw [List.foldlM_cons, h]
  exact hsteps

theorem trans {f'' : Filling} (h : Leads f f') (h' : Leads f' f'') : Leads f f'' := by
  obtain ⟨steps, hsteps⟩ := h
  obtain ⟨later, hlater⟩ := h'
  refine ⟨steps ++ later, ?_⟩
  rw [List.foldlM_append, hsteps]
  exact hlater

theorem sound (h : Leads f f') (hf : Sound f) : Sound f' := by
  obtain ⟨steps, hsteps⟩ := h
  exact hf.of_steps hsteps

theorem constant (h : Leads f f') : f'.answer = f.answer ∧ f'.monitor = f.monitor := by
  obtain ⟨steps, hsteps⟩ := h
  exact constant_of_steps hsteps

end Leads

/-- What its flag may have heard of is a step of others while filling is under way. -/
theorem exists_others {session : Session} (hf : Sound f) (hphase : f.phase.isUnderWay = true)
    (h : Overheard f.flag f.session session) :
    ∃ told, f.step (.others told session) = some (f.outside told session) := by
  obtain ⟨told, h⟩ := h
  have hlistens : f.session.flagListens f.flag f.monitor = true := by
    rw [flagListens, hf.flags.2.1, hphase, Bool.true_or]
  exact ⟨told, if_pos ⟨h.flagKept f.monitor, fun _ => hlistens⟩⟩

/-- The turns that the tasks have while a run is loaded, and the end of its load. -/
theorem leads_completeLoad {run : Run} {k : Nat} (hf : Sound f) (hphase : f.phase = .loading run)
    (hk : f.flag = some k) :
    ∃ f', Leads f f' ∧ f'.phase = .picking ∧ f'.flag = some k ∧ f'.begun = f.begun ∧
      f'.session = (f.session.settle.completeLoad run).2.recordFill k
        (f.session.settle.completeLoad run).1 := by
  obtain ⟨loading, loaded, hloading, hdeliver⟩ :=
    (overheard_hookClosed f.flag).exists_loading f.session.settle run
  obtain ⟨told, hothers⟩ := exists_others hf (by rw [hphase]; rfl)
    (overheard_settle.trans hloading)
  have hfinish := step_finish (f := f.outside told loading) hphase hk loaded
  rw [hdeliver]
  exact ⟨_, .head hothers (.head hfinish (.refl _)), rfl, hk, rfl, rfl⟩

theorem summary_of_nextFill {s s' : Session} {k : Nat} {summary : BackfillSummary}
    (h : s.nextFill k = some (.finished summary, s')) :
    (s'.backfill? k).map Backfill.summary = some summary := by
  obtain ⟨b, -, h⟩ := Option.bind_eq_some_iff.1 h
  split at h
  · obtain ⟨hsummary, rfl⟩ := Prod.mk.inj (Option.some.inj h)
    rw [backfill?_setFill_self]
    exact congrArg some (FillMove.finished.inj hsummary)
  · dsimp only at h
    split at h
    · cases h
    · cases h

/-- From where the next run is looked for, filling comes to its end as the session runs. -/
theorem leads_fillRuns {fuel k : Nat} (hf : Sound f) (hphase : f.phase = .picking)
    (hk : f.flag = some k) (hfuel : f.fetched.length < f.begun.length + fuel) :
    ∃ f' summary, Leads f f' ∧ f'.phase = .returned (.ok summary) ∧
      f'.session = (fillRuns k fuel f.session).lowerFlag k f.monitor ∧
      ((fillRuns k fuel f.session).backfill? k).map Backfill.summary = some summary := by
  induction fuel generalizing f with
  | zero =>
    have hle := hf.begun_prefix.1.length_le
    rw [(Run.latestStartFirst_perm _).length_eq] at hle
    omega
  | succ fuel ih =>
    -- What comes after one more run was begun.
    have hrest {f₁ : Filling} (h : Leads f f₁) (hphase₁ : f₁.phase = .picking)
        (hk₁ : f₁.flag = some k) (hbegun : f₁.begun.length = f.begun.length + 1) :
        ∃ f' summary, Leads f f' ∧ f'.phase = .returned (.ok summary) ∧
          f'.session = (fillRuns k fuel f₁.session).lowerFlag k f.monitor ∧
          ((fillRuns k fuel f₁.session).backfill? k).map Backfill.summary = some summary := by
      obtain ⟨hanswer, hmonitor⟩ := h.constant
      have hfetched : f₁.fetched = f.fetched := congrArg (fun a => a.toOption.getD []) hanswer
      obtain ⟨f', summary, hleads, hend⟩ :=
        ih (h.sound hf) hphase₁ hk₁ (by rw [hfetched]; omega)
      exact ⟨f', summary, h.trans hleads, hmonitor ▸ hend⟩
    obtain ⟨b, hb⟩ := hf.exists_underWay (by rw [hphase]; rfl) hk
    obtain ⟨move, session, hmove, -⟩ := hb.exists_move
    have hstep := step_next hphase hk hmove
    rw [fillRuns, hmove]
    cases move with
    | finished summary =>
      exact ⟨_, summary, .head hstep (.refl _), rfl, rfl, summary_of_nextFill hmove⟩
    | refused run e => exact hrest (.head hstep (.refl _)) rfl hk List.length_append
    | begun run =>
      have hf₁ := hf.of_change (change_of_step hstep)
      obtain ⟨f₂, hleads, hphase₂, hk₂, hbegun, hsession⟩ := leads_completeLoad hf₁ rfl hk
      have hlength : f₂.begun.length = f.begun.length + 1 := by simp [hbegun, moved]
      have hend := hrest (.head hstep hleads) hphase₂ hk₂ hlength
      rw [hsession] at hend
      exact hend

/-- Filling the index of a session comes to what some steps of filling come to, after which the
tasks have their turns. -/
theorem play_of_fill {s : Session} {monitor : Nat} {w : Watch} (hw : s.watch? monitor = some w)
    (budget : Nat) :
    ∃ steps f, play s monitor (s.fetchRuns budget).1 steps = some f ∧
      ((∃ e, f.phase = .returned (.error e) ∧ s.fill budget monitor w = (.failed e, f.session)) ∨
        ∃ summary, f.phase = .returned (.ok summary) ∧ s.fill budget monitor w =
          (.filled summary f.session.settle.watchOutcomes, f.session.settle)) := by
  have hfetch : (s.fetchRuns budget).2 = s.askRuns budget := rfl
  unfold fill
  generalize s.fetchRuns budget = fetched at hfetch ⊢
  obtain ⟨answer, s₁⟩ := fetched
  have hfetch : s₁ = s.askRuns budget := hfetch
  have hheard : Heard false none s s₁ := hfetch ▸ .of_eq rfl rfl rfl
  have hw₁ : s₁.watch? monitor = some w := hfetch ▸ hw
  have hsound : Sound (ofSession s monitor answer) := sound_ofSession answer (by rw [hw]; rfl)
  have hothers : (ofSession s monitor answer).step (.others false s₁) =
      some (ofSession s₁ monitor answer) :=
    if_pos ⟨hheard.flagKept monitor, fun h => absurd h Bool.false_ne_true⟩
  cases answer with
  | error e =>
    have hfailed : (ofSession s₁ monitor (.error e)).step .fetch =
        some { ofSession s₁ monitor (.error e) with phase := .returned (.error e) } := rfl
    obtain ⟨steps, hsteps⟩ := Leads.head hothers (.head hfailed (.refl _))
    exact ⟨steps, _, hsteps, .inl ⟨e, rfl, rfl⟩⟩
  | ok runs =>
    have hfetched : (ofSession s₁ monitor (.ok runs)).step .fetch =
        some { ofSession s₁ monitor (.ok runs) with
          session := s₁.beginFill s₁.freshFlag monitor w runs
          flag := some s₁.freshFlag, phase := .picking } := by
      rw [step, ofSession]
      dsimp only
      rw [hw₁]
      rfl
    have hbegun := Leads.head hothers (.head hfetched (.refl _))
    have hfuel : runs.length < 0 + (runs.length + 1) := by omega
    obtain ⟨f, summary, hleads, hphase, hsession, hsummary⟩ :=
      leads_fillRuns (hbegun.sound hsound) rfl rfl hfuel
    obtain ⟨steps, hsteps⟩ := hbegun.trans hleads
    refine ⟨steps, f, hsteps, .inr ⟨summary, hphase, ?_⟩⟩
    dsimp only at hsession hsummary ⊢
    rw [hsummary, hsession]
    rfl

end Filling

end ResultSearch
