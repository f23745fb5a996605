import ResultSearch.Proofs.Session.Turns

/-!
# The turns of a loop that polls

What a loop that polls for runs is after its turn, and whether it asked for the listing in it: each
poll asks for the listing once, when it starts.

* `Polls`: a loop in the midst of a poll, which waits for the listing or for the load of a report.
* `turnsTo_first`, `turnsTo_tick`, `turnsTo_end`, `turnsTo_poll`: the four kinds of turns.
* `Offered`: the loop after a turn in the midst of a poll.
-/

namespace ResultSearch

/-- Whether a task waits for the load of a report. -/
def Stage.isLoad : Stage → Bool
  | .loading _ => true
  | .gated _ => true
  | _ => false

/-- Whether a task is in the midst of a poll: it has yet to receive the listing, or to offer all of
its runs. -/
def Task.isPolling (t : Task) : Bool :=
  match t.job, t.stage with
  | .poll _ _ _ (some _), _ => true
  | .poll _ _ _ none, .listing => true
  | _, _ => false

/-- A loop in the midst of a poll. -/
inductive Task.Polls (interval maxRuns : Nat) (ticker : Ticker) : Task → Prop
  | receives : Polls interval maxRuns ticker ⟨.poll interval maxRuns (some ticker) none, .listing⟩
  | loads (pass : PollPass × List Run) {stage : Stage} : stage.isLoad = true →
    Polls interval maxRuns ticker ⟨.poll interval maxRuns (some ticker) (some pass), stage⟩

namespace Task.Polls

variable {interval maxRuns : Nat} {ticker : Ticker} {t : Task}

theorem isPolling (h : Polls interval maxRuns ticker t) : t.isPolling = true := by
  cases h with
  | receives => rfl
  | loads pass hstage => rfl

theorem atTime (h : Polls interval maxRuns ticker t) (now : Nat) : t.stage.atTime now = t.stage := by
  cases h with
  | receives => rfl
  | @loads pass stage hstage =>
    cases stage with
    | loading r | gated r => rfl
    | ready | timed _ _ | listing | ended _ => cases hstage

theorem stage_ne_ready (h : Polls interval maxRuns ticker t) : t.stage ≠ .ready := by
  cases h with
  | receives => exact Stage.noConfusion
  | loads pass hstage =>
    rintro rfl
    cases hstage

end Task.Polls

namespace Session

variable {s s' : Session} {task : Nat}

/-- Whether what was done asked for the listing. -/
def asksListing (s s' : Session) : Bool := s.limits.length < s'.limits.length

theorem not_runsLoop_of_poll {interval maxRuns : Nat} {ticker : Option Ticker}
    {pass : Option (PollPass × List Run)}
    (h : s.job? task = some (.poll interval maxRuns ticker pass)) : ¬ s.RunsLoop task := by
  rintro ⟨monitor, loop, hwatch⟩
  cases h.symm.trans hwatch

/-- The loop waits for the next tick, if that is not due already. -/
def tickStage (t : Ticker) (now number : Nat) : Stage :=
  if t.due ≤ now then .ready else .timed t.due number

theorem isPolling_tickStage {interval maxRuns : Nat} {ticker : Option Ticker} (t : Ticker)
    (now number : Nat) :
    Task.isPolling ⟨.poll interval maxRuns ticker none, tickStage t now number⟩ = false := by
  unfold tickStage
  split <;> rfl

/-- A loop after a turn in the midst of a poll: the poll has ended and the loop waits for the next
tick, or the poll goes on. -/
inductive Offered (interval maxRuns : Nat) (ticker : Ticker) (now : Nat) : Task → Prop
  | ended (number : Nat) :
    Offered interval maxRuns ticker now
      ⟨.poll interval maxRuns (some ticker) none, tickStage ticker now number⟩
  | goesOn {t : Task} : t.Polls interval maxRuns ticker → Offered interval maxRuns ticker now t

/-- What a turn makes of the task that has it, and whether it asks for the listing. -/
structure TurnsTo (s : Session) (task : Nat) (asked : Bool) (t : Task) : Prop where
  task_eq : (s.turn task).tasks.get? task = some t
  asks_eq : s.asksListing (s.turn task) = asked

variable {interval maxRuns : Nat} {ticker : Ticker} {t : Task}

theorem asksListing_eq_false (h : s'.limits = s.limits) : s.asksListing s' = false := by
  simp [asksListing, h]

theorem asksListing_eq_true {limit : Nat} (h : s'.limits = s.limits ++ [limit]) :
    s.asksListing s' = true := by
  simp [asksListing, h]

theorem get?_setJob (ht : s.tasks.get? task = some t) (job : Job) :
    (s.setJob task job).tasks.get? task = some ⟨job, t.stage⟩ := by
  rw [setJob, get?_updateTask, if_pos rfl, ht]
  rfl

theorem get?_setStage (ht : s.tasks.get? task = some t) (stage : Stage) :
    (s.setStage task stage).tasks.get? task = some ⟨t.job, stage⟩ := by
  rw [setStage, get?_updateTask, if_pos rfl, ht]
  rfl

theorem get?_awaitTick (ht : s.tasks.get? task = some t) (ticker : Ticker) :
    (s.awaitTick task ticker).tasks.get? task =
      some ⟨t.job, tickStage ticker s.clock s.timers⟩ := by
  unfold awaitTick tickStage
  split
  · exact get?_setStage ht _
  · exact get?_setStage ht _

theorem limits_awaitTick (ticker : Ticker) : (s.awaitTick task ticker).limits = s.limits := by
  unfold awaitTick
  split <;> exact limits_updateTask s task _

theorem offered_offerRuns (interval maxRuns : Nat) (ticker : Ticker)
    (ht : s.tasks.get? task = some t) (pass : PollPass) (runs : List Run) :
    (s.offerRuns task interval maxRuns ticker pass runs).limits = s.limits ∧
    ∃ t', (s.offerRuns task interval maxRuns ticker pass runs).tasks.get? task = some t' ∧
      Offered interval maxRuns ticker s.clock t' := by
  induction runs generalizing pass with
  | nil =>
    refine ⟨(limits_awaitTick ticker).trans (limits_updateTask s task _), _,
      get?_awaitTick (get?_setJob ht _) ticker, ?_⟩
    rw [setJob, clock_updateTask]
    exact .ended _
  | cons r rest ih =>
    rw [offerRuns]
    split
    · exact ih _
    · next index _ =>
      have hthere : ({ s with index } : Session).tasks.get? task = some t := ht
      exact ⟨(limits_updateTask _ task _).trans (limits_updateTask _ task _), _,
        get?_setStage (get?_setJob hthere _) (.loading r), .goesOn (.loads _ rfl)⟩

theorem offered_receiveRuns (interval maxRuns : Nat) (ticker : Ticker)
    (ht : s.tasks.get? task = some t) :
    (s.receiveRuns task interval maxRuns ticker).limits = s.limits ∧
    ∃ t', (s.receiveRuns task interval maxRuns ticker).tasks.get? task = some t' ∧
      Offered interval maxRuns ticker s.clock t' := by
  unfold receiveRuns
  split
  · exact ⟨(limits_updateTask _ task _).trans (limits_updateTask s task _), _,
      get?_setStage (get?_setJob ht _) .listing, .goesOn .receives⟩
  · split
    · exact offered_offerRuns interval maxRuns ticker ht _ _
    · exact offered_offerRuns interval maxRuns ticker ht _ _

/-- The first turn: the loop waits one period. -/
theorem turnsTo_first {pass : Option (PollPass × List Run)} (hinterval : 0 < interval)
    (ht : s.tasks.get? task = some ⟨.poll interval maxRuns none pass, .ready⟩)
    (hticker : ticker = ⟨interval, s.clock + interval⟩) : ∃ number, s.TurnsTo task false
      ⟨.poll interval maxRuns (some ticker) none, tickStage ticker s.clock number⟩ := by
  have hturn : s.turn task =
      (s.setJob task (.poll interval maxRuns (some ticker) none)).awaitTick task ticker := by
    rw [turn_eq_turnJob ht, hticker]
    exact if_neg (Nat.ne_of_gt hinterval)
  have htask := get?_awaitTick (get?_setJob ht (.poll interval maxRuns (some ticker) none)) ticker
  rw [← hturn, setJob, clock_updateTask] at htask
  refine ⟨_, htask, asksListing_eq_false ?_⟩
  rw [hturn, limits_awaitTick, setJob, limits_updateTask]

/-- A tick after the loop was told to end. -/
theorem turnsTo_end {pass : Option (PollPass × List Run)}
    (hflag : s.shutdown.contains task = true)
    (ht : s.tasks.get? task = some ⟨.poll interval maxRuns (some ticker) pass, .ready⟩) :
    s.TurnsTo task false ⟨.poll interval maxRuns (some ticker) pass, .ended (.ok ())⟩ := by
  have hturn : s.turn task = s.finish task (.ok ()) := by
    rw [turn_eq_turnJob ht]
    exact if_pos hflag
  refine ⟨?_, asksListing_eq_false ?_⟩
  · rw [hturn]
    exact get?_setStage ht _
  · rw [hturn, finish, setStage, limits_updateTask]

/-- Any other tick: a poll starts. -/
theorem turnsTo_tick {pass : Option (PollPass × List Run)}
    (hflag : s.shutdown.contains task = false)
    (ht : s.tasks.get? task = some ⟨.poll interval maxRuns (some ticker) pass, .ready⟩) :
    ∃ t, Offered interval maxRuns (ticker.tick s.clock) s.clock t ∧ s.TurnsTo task true t := by
  have hturn : s.turn task =
      (s.askRuns maxRuns).receiveRuns task interval maxRuns (ticker.tick s.clock) := by
    rw [turn_eq_turnJob ht]
    exact if_neg (by rw [hflag]; exact Bool.false_ne_true)
  have hthere : (s.askRuns maxRuns).tasks.get? task = some _ := ht
  obtain ⟨hlimits, t, ht', hoffered⟩ :=
    offered_receiveRuns interval maxRuns (ticker.tick s.clock) hthere
  exact ⟨t, hoffered, by rw [hturn]; exact ht', asksListing_eq_true (by rw [hturn]; exact hlimits)⟩

/-- A turn in which a loop waits for a load, or goes on after it. -/
theorem turnsTo_load {pass : PollPass × List Run} {stage : Stage} (hstage : stage.isLoad = true)
    (ht : s.tasks.get? task = some ⟨.poll interval maxRuns (some ticker) (some pass), stage⟩) :
    ∃ t, Offered interval maxRuns ticker s.clock t ∧ s.TurnsTo task false t := by
  obtain ⟨r, hturn⟩ : ∃ r, s.turn task =
      s.turnLoad task (.poll interval maxRuns (some ticker) (some pass)) r := by
    rw [turn, ht]
    cases stage with
    | loading r => exact ⟨r, rfl⟩
    | gated r => exact ⟨r, rfl⟩
    | ready | timed _ _ | listing | ended _ => cases hstage
  unfold turnLoad at hturn
  split at hturn
  · have hgated : (Stage.gated r).isLoad = true := rfl
    refine ⟨_, .goesOn (.loads pass hgated), ?_, asksListing_eq_false ?_⟩
    · rw [hturn]
      exact get?_setStage ht _
    · rw [hturn, setStage, limits_updateTask]
  · have heffects := effects_completeLoad (s := s) r
    have hleaves := heffects.leaves (not_runsLoop_of_poll (job?_of_get? ht))
    obtain ⟨hlimits, t, ht', hoffered⟩ := offered_offerRuns interval maxRuns ticker
      (hleaves.task_eq.trans ht) (pass.1.record (s.completeLoad r).1) pass.2
    rw [hleaves.clock_eq] at hoffered
    exact ⟨t, hoffered, by rw [hturn]; exact ht',
      asksListing_eq_false (by rw [hturn]; exact hlimits.trans heffects.limits_eq)⟩

/-- A turn in the midst of a poll. -/
theorem turnsTo_poll (ht : s.tasks.get? task = some t) (hpolls : t.Polls interval maxRuns ticker) :
    ∃ t', Offered interval maxRuns ticker s.clock t' ∧ s.TurnsTo task false t' := by
  cases hpolls with
  | loads pass hstage => exact turnsTo_load hstage ht
  | receives =>
    have hturn : s.turn task = s.receiveRuns task interval maxRuns ticker := by
      rw [turn, ht]
      rfl
    obtain ⟨hlimits, t, ht', hoffered⟩ := offered_receiveRuns interval maxRuns ticker ht
    exact ⟨t, hoffered, by rw [hturn]; exact ht',
      asksListing_eq_false (by rw [hturn]; exact hlimits)⟩

end Session

end ResultSearch
