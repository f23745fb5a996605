import ResultSearch.Proofs.Session.Filling

/-!
# When filling halts and what it accounts for

Whatever happens while an index is filled, filling accounts for every run: the runs that it has
begun come first among those fetched, its summary counts what became of them, and once its flag was
told of something no further run is begun.

* `Sound`, `Sound.of_change`, `play_sound`: what every step keeps and so every play has.
* `notices_of_step`: what the flag is told.
* `begun_of_noticed`, `begun_of_steps`: after it was told nothing is begun.
* `Listening`, `listening_of_play`: who listens, as long as nobody else comes or goes.
* `exists_fetch`, `exists_next`, `exists_finish`: filling goes on.
* `fills_of_play`: the whole account.
-/

namespace ResultSearch

/-- A summary of runs and of what became of those that were tried. -/
structure BackfillSummary.Counts (summary : BackfillSummary) (runs : List Run)
    (outcomes : List (Except Error Unit)) : Prop where
  fetched : summary.fetched = runs.length
  ingested : summary.ingested = outcomes.countP fun o => o.toBool
  failed : summary.failed = outcomes.countP fun o => !o.toBool

namespace BackfillSummary

variable {summary : BackfillSummary} {runs : List Run} {outcomes : List (Except Error Unit)}

theorem Counts.add_eq (h : summary.Counts runs outcomes) :
    summary.ingested + summary.failed = outcomes.length := by
  rw [h.ingested, h.failed, List.length_eq_countP_add_countP fun o => o.toBool]
  simp

theorem counts_record {b : Backfill} (h : b.summary.Counts runs outcomes)
    (outcome : Except Error Unit) :
    (b.record outcome).summary.Counts runs (outcomes ++ [outcome]) := by
  obtain ⟨hfetched, hingested, hfailed⟩ := h
  cases outcome with
  | error e => constructor <;> simp [Backfill.record, Except.toBool, hfetched, hingested, hfailed]
  | ok _ => constructor <;> simp [Backfill.record, Except.toBool, hfetched, hingested, hfailed]

end BackfillSummary

namespace Filling

variable {f f' : Filling} {fs : FillStep}

/-! ## What every step keeps -/

/-- Nothing has been done. -/
structure Untouched (f : Filling) : Prop where
  flag : f.flag = none
  onMonitor : f.session.flagOnMonitor f.flag f.monitor = some false
  begun : f.begun = []
  outcomes : f.outcomes = []
  notices : f.notices = 0

theorem Untouched.onIndex (hf : Untouched f) : f.session.flagOnIndex f.flag = false := by
  rw [hf.flag]
  rfl

/-- Filling is under way. Runs are begun in their order, and its flag is up until it is told. -/
structure UnderWay (f : Filling) (k : Nat) (b : Backfill) : Prop where
  answer : f.answer = .ok f.fetched
  raised : f.flag = some k
  backfill : f.session.backfill? k = some b
  onIndex : f.session.flagOnIndex f.flag = true
  onMonitor : f.session.flagOnMonitor f.flag f.monitor = some true
  order : f.begun ++ b.pending = Run.latestStartFirst f.fetched
  flag : b.flag = decide (f.notices = 0)
  counts : b.summary.Counts f.fetched f.outcomes
  halted : b.summary.halted = false
  outcomes : f.outcomes.length + f.phase.inFlight = f.begun.length

/-- Filling is over. If runs are left, its flag was told of something. -/
structure Returned (f : Filling) (summary : BackfillSummary) : Prop where
  answer : f.answer = .ok f.fetched
  raised : f.flag.isSome = true
  onIndex : f.session.flagOnIndex f.flag = false
  onMonitor : f.session.flagOnMonitor f.flag f.monitor = some false
  left : ∃ rest, f.begun ++ rest = Run.latestStartFirst f.fetched ∧
    summary.halted = !rest.isEmpty ∧ (rest ≠ [] → 0 < f.notices)
  counts : summary.Counts f.fetched f.outcomes
  outcomes : f.outcomes.length = f.begun.length

/-- What there is to know of filling that has come this far. -/
def Account (f : Filling) : FillPhase → Prop
  | .fetching => Untouched f
  | .picking => ∃ k b, UnderWay f k b
  | .loading _ => ∃ k b, UnderWay f k b
  | .returned (.error e) => f.answer = .error e ∧ Untouched f
  | .returned (.ok summary) => Returned f summary

/-- Filling is as it has to be in its phase. -/
def Sound (f : Filling) : Prop := f.Account f.phase

theorem sound_ofSession {s : Session} {monitor : Nat} (answer : Except Error (List Run))
    (hmonitor : (s.watch? monitor).isSome = true) : Sound (ofSession s monitor answer) := by
  obtain ⟨w, hw⟩ := Option.isSome_iff_exists.1 hmonitor
  have honMonitor : s.flagOnMonitor none monitor = some false := by
    rw [Session.flagOnMonitor, hw]
    rfl
  exact Untouched.mk rfl honMonitor rfl rfl rfl

theorem Sound.account {phase : FillPhase} (hf : Sound f) (hphase : f.phase = phase) :
    f.Account phase := hphase ▸ hf

theorem fetched_eq {runs : List Run} (h : f.answer = .ok runs) : f.fetched = runs := by
  rw [fetched, h]
  rfl

theorem underWay_begin {runs : List Run} (hf : Untouched f)
    (hanswer : f.answer = .ok runs) (k : Nat) (w : Watch) :
    UnderWay { f with
      session := f.session.beginFill k f.monitor w runs, flag := some k, phase := .picking }
      k (.ofRuns runs) where
  answer := hanswer.trans (congrArg Except.ok (fetched_eq hanswer).symm)
  raised := rfl
  backfill := Session.backfill?_beginFill runs
  onIndex := Session.flagOnIndex_beginFill runs
  onMonitor := Session.flagOnMonitor_beginFill runs
  order := by simp [hf.begun, fetched, hanswer, Backfill.ofRuns, Except.toOption]
  flag := by simp [hf.notices, Backfill.ofRuns]
  counts := by
    constructor <;> simp [hf.outcomes, fetched, hanswer, Backfill.ofRuns, Except.toOption]
  halted := rfl
  outcomes := by simp [hf.outcomes, hf.begun, FillPhase.inFlight]

/-- Once filling returns its flag is down and listens no more. -/
theorem UnderWay.returned {k : Nat} {b : Backfill} (hb : UnderWay f k b)
    (hphase : f.phase = .picking) (b' : Backfill) (halted : Bool) (hhalted : halted = !b.pending.isEmpty)
    (hflag : b.pending ≠ [] → b.flag = false) :
    Returned { f with
      session := (f.session.setFill k b').lowerFlag k f.monitor
      phase := .returned (.ok { b.summary with halted }) } { b.summary with halted } where
  answer := hb.answer
  raised := by rw [hb.raised, Option.isSome_some]
  onIndex := by
    rw [hb.raised]
    exact Session.flagOnIndex_lowerFlag
  onMonitor := by
    have honMonitor : (f.session.setFill k b').flagOnMonitor f.flag f.monitor = some true :=
      hb.onMonitor
    rw [hb.raised]
    exact Session.flagOnMonitor_lowerFlag honMonitor
  left := by
    refine ⟨b.pending, hb.order, hhalted, fun hpending => ?_⟩
    have hdown := hb.flag.symm.trans (hflag hpending)
    exact Nat.pos_of_ne_zero (of_decide_eq_false hdown)
  counts := ⟨hb.counts.fetched, hb.counts.ingested, hb.counts.failed⟩
  outcomes := by
    have houtcomes := hb.outcomes
    rw [hphase] at houtcomes
    exact houtcomes

/-- A run is taken off those that are pending. -/
theorem UnderWay.begun {k : Nat} {b : Backfill} {run : Run} {rest : List Run} {session : Session}
    (hb : UnderWay f k b) (hphase : f.phase = .picking) (hpending : b.pending = run :: rest)
    (hbackfill : session.backfill? k = some { b with pending := rest })
    (hindex : session.flagOnIndex f.flag = f.session.flagOnIndex f.flag)
    (hmonitor : session.flagOnMonitor f.flag f.monitor =
      f.session.flagOnMonitor f.flag f.monitor) :
    UnderWay { f with session, phase := .loading run, begun := f.begun ++ [run] } k
      { b with pending := rest } where
  answer := hb.answer
  raised := hb.raised
  backfill := hbackfill
  onIndex := hindex.trans hb.onIndex
  onMonitor := hmonitor.trans hb.onMonitor
  order := by
    rw [List.append_assoc, List.singleton_append, ← hpending]
    exact hb.order
  flag := hb.flag
  counts := hb.counts
  halted := hb.halted
  outcomes := by
    have houtcomes := hb.outcomes
    rw [hphase] at houtcomes
    simp [← houtcomes, FillPhase.inFlight]

/-- What became of a run that was begun is counted. -/
theorem UnderWay.counted {k : Nat} {b : Backfill} {run : Run} {session : Session}
    (hb : UnderWay f k b) (hphase : f.phase = .loading run) (outcome : Except Error Unit)
    (hbackfill : session.backfill? k = some (b.record outcome))
    (hindex : session.flagOnIndex f.flag = f.session.flagOnIndex f.flag)
    (hmonitor : session.flagOnMonitor f.flag f.monitor =
      f.session.flagOnMonitor f.flag f.monitor) :
    UnderWay { f with session, phase := .picking, outcomes := f.outcomes ++ [outcome] } k
      (b.record outcome) where
  answer := hb.answer
  raised := hb.raised
  backfill := hbackfill
  onIndex := hindex.trans hb.onIndex
  onMonitor := hmonitor.trans hb.onMonitor
  order := by
    cases outcome <;> exact hb.order
  flag := by
    cases outcome <;> exact hb.flag
  counts := BackfillSummary.counts_record hb.counts outcome
  halted := by
    cases outcome <;> exact hb.halted
  outcomes := by
    have houtcomes := hb.outcomes
    rw [hphase] at houtcomes
    simpa [FillPhase.inFlight] using houtcomes

theorem UnderWay.ended {k : Nat} {b : Backfill} {run : Run} {session : Session}
    (hb : UnderWay f k b) (hphase : f.phase = .loading run)
    (hkept : Session.FlagKept false f.flag f.monitor f.session session)
    (outcome : Except Error Unit) :
    UnderWay (f.recorded k session outcome) k (b.record outcome) := by
  obtain ⟨hindex, hwatches⟩ := Session.updateFill_frame (s := session) k fun b => b.record outcome
  refine hb.counted hphase outcome ?_ ?_ ?_
  · have hsame := hkept.backfill
    rw [hb.raised, Option.bind_some, Option.bind_some, if_neg Bool.false_ne_true, hb.backfill]
      at hsame
    rw [Session.recordFill, Session.backfill?_updateFill, if_pos rfl, hsame, Option.map_some]
  · rw [Session.recordFill, Session.flagOnIndex, hindex]
    exact hkept.onIndex
  · rw [Session.recordFill, Session.flagOnMonitor, Session.watch?, hwatches]
    exact hkept.onMonitor

theorem Untouched.outside {told : Bool} {session : Session} (hf : Untouched f)
    (hkept : Session.FlagKept told f.flag f.monitor f.session session)
    (hlistens : told → f.session.flagListens f.flag f.monitor) :
    Untouched (f.outside told session) where
  flag := hf.flag
  onMonitor := hkept.onMonitor.trans hf.onMonitor
  begun := hf.begun
  outcomes := hf.outcomes
  notices := by
    have htold : told = false := by
      cases told with
      | false => rfl
      | true => simp [Session.flagListens, hf.onIndex, hf.onMonitor] at hlistens
    simp [Filling.outside, htold, hf.notices]

theorem UnderWay.outside {told : Bool} {session : Session} {k : Nat} {b : Backfill}
    (hb : UnderWay f k b) (hkept : Session.FlagKept told f.flag f.monitor f.session session) :
    UnderWay (f.outside told session) k (if told then b.halt else b) where
  answer := hb.answer
  raised := hb.raised
  backfill := by
    have hbackfill := hkept.backfill
    rw [hb.raised, Option.bind_some, Option.bind_some, hb.backfill] at hbackfill
    rw [Filling.outside, hbackfill]
    cases told <;> rfl
  onIndex := hkept.onIndex.trans hb.onIndex
  onMonitor := hkept.onMonitor.trans hb.onMonitor
  order := by
    cases told <;> exact hb.order
  flag := by
    cases told with
    | false => exact hb.flag
    | true => rfl
  counts := by
    cases told <;> exact hb.counts
  halted := by
    cases told <;> exact hb.halted
  outcomes := hb.outcomes

theorem Returned.outside {told : Bool} {session : Session} {summary : BackfillSummary}
    (hr : Returned f summary)
    (hkept : Session.FlagKept told f.flag f.monitor f.session session) :
    Returned (f.outside told session) summary where
  answer := hr.answer
  raised := hr.raised
  onIndex := hkept.onIndex.trans hr.onIndex
  onMonitor := hkept.onMonitor.trans hr.onMonitor
  left := by
    obtain ⟨rest, horder, hhalted, hnotices⟩ := hr.left
    exact ⟨rest, horder, hhalted, fun hrest => Nat.lt_add_right _ (hnotices hrest)⟩
  counts := hr.counts
  outcomes := hr.outcomes

namespace Sound

theorem outside {told : Bool} {session : Session} (hf : Sound f)
    (hkept : Session.FlagKept told f.flag f.monitor f.session session)
    (hlistens : told → f.session.flagListens f.flag f.monitor) :
    Sound (f.outside told session) := by
  show (f.outside told session).Account f.phase
  unfold Sound at hf
  match f.phase, hf with
  | .fetching, hf => exact hf.outside hkept hlistens
  | .picking, ⟨k, b, hb⟩ => exact ⟨k, _, hb.outside hkept⟩
  | .loading _, ⟨k, b, hb⟩ => exact ⟨k, _, hb.outside hkept⟩
  | .returned (.error _), ⟨hanswer, hf⟩ => exact ⟨hanswer, hf.outside hkept hlistens⟩
  | .returned (.ok _), hr => exact hr.outside hkept

theorem exists_underWay {k : Nat} (hf : Sound f) (hphase : f.phase.isUnderWay = true)
    (hk : f.flag = some k) : ∃ b, UnderWay f k b := by
  have hunderWay : ∃ k b, UnderWay f k b := by
    cases hf' : f.phase with
    | picking => exact hf.account hf'
    | loading run => exact hf.account hf'
    | fetching | returned =>
      rw [hf'] at hphase
      cases hphase
  obtain ⟨k', b, hb⟩ := hunderWay
  obtain rfl := Option.some.inj (hk.symm.trans hb.raised)
  exact ⟨b, hb⟩

theorem underWay {k : Nat} {b : Backfill} (hf : Sound f) (hphase : f.phase = .picking)
    (hk : f.flag = some k) (hbackfill : f.session.backfill? k = some b) : UnderWay f k b := by
  obtain ⟨b', hb⟩ := hf.exists_underWay (by rw [hphase]; rfl) hk
  obtain rfl := Option.some.inj (hbackfill.symm.trans hb.backfill)
  exact hb

theorem of_change (hf : Sound f) (h : Change f fs f') : Sound f' := by
  cases h with
  | fetchFailed hphase hanswer =>
    have hf : Untouched f := hf.account hphase
    exact And.intro hanswer ⟨hf.flag, hf.onMonitor, hf.begun, hf.outcomes, hf.notices⟩
  | fetched hphase hanswer _ =>
    have hf : Untouched f := hf.account hphase
    exact Exists.intro _ ⟨_, underWay_begin hf hanswer _ _⟩
  | @exhausted k b hphase hk hbackfill hpending =>
    have hb := hf.underWay hphase hk hbackfill
    have hr := hb.returned hphase b b.summary.halted (by simp [hb.halted, hpending])
      fun hne => absurd hpending hne
    exact hr
  | @halted k b hphase hk hbackfill hpending hflag =>
    have hb := hf.underWay hphase hk hbackfill
    have hr := hb.returned hphase { b with summary := { b.summary with halted := true } } true
      (by simpa using hpending) fun _ => hflag
    exact hr
  | @refused k b run rest e hphase hk hbackfill hpending _ _ =>
    -- A run that is refused is begun and ends at once.
    have hbegun := (hf.underWay hphase hk hbackfill).begun hphase hpending
      (Session.backfill?_setFill_self k _) rfl rfl
    exact Exists.intro k
      ⟨_, hbegun.counted rfl (.error e) (Session.backfill?_setFill_self k _) rfl rfl⟩
  | @begun k b run rest index hphase hk hbackfill hpending _ _ =>
    have hset := Session.backfill?_setFill_self (s := f.session) k { b with pending := rest }
    exact Exists.intro _
      ⟨_, (hf.underWay hphase hk hbackfill).begun hphase hpending hset rfl rfl⟩
  | @ended k run loaded hphase hk =>
    obtain ⟨b, hb⟩ := hf.exists_underWay (by rw [hphase]; rfl) hk
    have hdelivered : Session.Heard false f.flag f.session _ := Session.heard_deliver run loaded
    exact Exists.intro _ ⟨_, hb.ended hphase (hdelivered.flagKept f.monitor) _⟩
  | heard hheard hlistens => exact hf.outside (hheard.flagKept f.monitor) hlistens
  | others hkept hlistens => exact hf.outside hkept hlistens

theorem of_steps (hf : Sound f) {steps : List FillStep} (h : steps.foldlM step f = some f') :
    Sound f' :=
  Outcome.of_foldlM h hf fun _ _ _ _ hf hs => hf.of_change (change_of_step hs)

end Sound

theorem play_sound {s : Session} {monitor : Nat} {answer : Except Error (List Run)}
    {steps : List FillStep} (hmonitor : (s.watch? monitor).isSome = true)
    (h : play s monitor answer steps = some f) : Sound f :=
  (sound_ofSession answer hmonitor).of_steps h

theorem Sound.cases (hf : Sound f) :
    Untouched f ∧ f.phase.isUnderWay = false ∧ f.phase.hasFetched = false ∨
    (∃ k b, UnderWay f k b ∧ f.phase.isUnderWay = true ∧ f.phase.hasFetched = true) ∨
    ∃ summary, Returned f summary ∧ f.phase = .returned (.ok summary) := by
  cases hphase : f.phase with
  | fetching => exact .inl ⟨hf.account hphase, rfl, rfl⟩
  | picking =>
    obtain ⟨k, b, hb⟩ := hf.account hphase
    exact .inr (.inl ⟨k, b, hb, rfl, rfl⟩)
  | loading run =>
    obtain ⟨k, b, hb⟩ := hf.account hphase
    exact .inr (.inl ⟨k, b, hb, rfl, rfl⟩)
  | returned outcome =>
    cases outcome with
    | error e => exact .inl ⟨(hf.account hphase).2, rfl, rfl⟩
    | ok summary => exact .inr (.inr ⟨summary, hf.account hphase, rfl⟩)

/-- A flag is raised once the runs were fetched, and listens to the index and to the monitor just while
filling is under way. -/
theorem Sound.flags (hf : Sound f) :
    f.flag.isSome = f.phase.hasFetched ∧
      f.session.flagOnIndex f.flag = f.phase.isUnderWay ∧
      f.session.flagOnMonitor f.flag f.monitor = some f.phase.isUnderWay := by
  obtain ⟨hf, hphase, hfetched⟩ | ⟨k, b, hb, hphase, hfetched⟩ | ⟨summary, hr, hphase⟩ := hf.cases
  · rw [hphase, hfetched]
    exact ⟨by rw [hf.flag]; rfl, hf.onIndex, hf.onMonitor⟩
  · rw [hphase, hfetched]
    exact ⟨by rw [hb.raised]; rfl, hb.onIndex, hb.onMonitor⟩
  · rw [hphase]
    exact ⟨hr.raised, hr.onIndex, hr.onMonitor⟩

/-! ## After the flag was told -/

theorem notices_moved (k : Nat) (session : Session) (move : FillMove) :
    (f.moved k session move).notices = f.notices := by
  cases move <;> rfl

/-- While filling is under way its flag is told of every eviction and of every stop, and never before
or after. -/
theorem notices_of_step (hf : Sound f) (h : f.step fs = some f') :
    f'.notices = f.notices + (f.phase.isUnderWay && fs.tells f.session f.monitor).toNat := by
  obtain ⟨-, hindex, hmonitor⟩ := hf.flags
  cases fs with
  | fetch =>
    rw [FillStep.tells, Bool.and_false]
    rw [step] at h
    split at h
    · exact Option.some.inj h ▸ rfl
    · obtain ⟨w, -, rfl⟩ := Option.map_eq_some_iff.1 h
      rfl
    · cases h
  | next =>
    rw [FillStep.tells, Bool.and_false]
    rw [step] at h
    split at h
    · obtain ⟨moved, -, rfl⟩ := Option.map_eq_some_iff.1 h
      exact notices_moved _ _ _
    · cases h
  | finish loaded =>
    rw [FillStep.tells, Bool.and_false]
    rw [step] at h
    split at h
    · exact Option.some.inj h ▸ rfl
    · cases h
  | evict fraction => exact hindex ▸ Option.some.inj h ▸ rfl
  | evictAny => exact hindex ▸ Option.some.inj h ▸ rfl
  | check settings => exact hindex ▸ Option.some.inj h ▸ rfl
  | stop =>
    rw [step] at h
    split at h
    · cases h
    · next w hw =>
      rw [Session.flagOnMonitor, hw] at hmonitor
      have hlistens : flagIn f.flag w.listeners = f.phase.isUnderWay := Option.some.inj hmonitor
      rw [FillStep.tells, hw, Option.any_some]
      split at h
      · next hstop =>
        rw [hstop, Except.toBool, Bool.and_false]
        exact Option.some.inj h ▸ rfl
      · next hstop =>
        rw [hstop, Except.toBool, Bool.and_true, ← hlistens]
        exact Option.some.inj h ▸ rfl
  | others told session =>
    rw [step] at h
    split at h
    · next hkept =>
      have hlistens : f.session.flagListens f.flag f.monitor = f.phase.isUnderWay := by
        rw [Session.flagListens, hindex, hmonitor]
        cases f.phase.isUnderWay <;> rfl
      obtain rfl := Option.some.inj h
      rw [FillStep.tells]
      cases told with
      | false => rw [Bool.and_false]; rfl
      | true => rw [← hlistens, hkept.2 rfl]; rfl
    · cases h

/-- The runs that were begun come first among those fetched, and one at most is under way. -/
theorem Sound.begun_prefix (hf : Sound f) : f.begun <+: Run.latestStartFirst f.fetched ∧
    f.outcomes.length + f.phase.inFlight = f.begun.length := by
  obtain ⟨hf, hphase, -⟩ | ⟨k, b, hb, -⟩ | ⟨summary, hr, hphase⟩ := hf.cases
  · rw [hf.outcomes, hf.begun, FillPhase.inFlight_eq_zero hphase]
    exact ⟨List.nil_prefix, rfl⟩
  · exact ⟨⟨_, hb.order⟩, hb.outcomes⟩
  · obtain ⟨rest, horder, -⟩ := hr.left
    rw [hphase]
    exact ⟨⟨rest, horder⟩, hr.outcomes⟩

theorem begun_of_noticed (hf : Sound f) (hnoticed : 0 < f.notices) (h : Change f fs f') :
    f'.begun = f.begun ∧ f.outcomes <+: f'.outcomes ∧ 0 < f'.notices := by
  -- A run is begun only if the flag is up.
  have hdown {k : Nat} {b : Backfill} (hphase : f.phase = .picking) (hk : f.flag = some k)
      (hbackfill : f.session.backfill? k = some b) : b.flag = false := by
    rw [(hf.underWay hphase hk hbackfill).flag, decide_eq_false (Nat.ne_of_gt hnoticed)]
  cases h with
  | fetchFailed | fetched | exhausted | halted => exact ⟨rfl, List.prefix_rfl, hnoticed⟩
  | refused hphase hk hbackfill _ hflag _ | begun hphase hk hbackfill _ hflag _ =>
    cases hflag.symm.trans (hdown hphase hk hbackfill)
  | ended => exact ⟨rfl, List.prefix_append _ _, hnoticed⟩
  | heard | others => exact ⟨rfl, List.prefix_rfl, Nat.lt_add_right _ hnoticed⟩

/-- Once the flag was told of something no run is begun any more, and at most the one that is under
way ends. -/
theorem begun_of_steps (hf : Sound f) (hnoticed : 0 < f.notices) {later : List FillStep}
    (h : later.foldlM step f = some f') : f'.begun = f.begun ∧ f.outcomes <+: f'.outcomes ∧
      f'.outcomes.length ≤ f.outcomes.length + f.phase.inFlight := by
  have hrun := Outcome.of_foldlM (P := fun v => Sound v ∧ v.begun = f.begun ∧
    f.outcomes <+: v.outcomes ∧ 0 < v.notices) h ⟨hf, rfl, List.prefix_rfl, hnoticed⟩
  obtain ⟨hf', hbegun, houtcomes, -⟩ := hrun fun v fs v' _ ⟨hv, hbegun, houtcomes, hnoticed⟩ hs => by
    have hchange := change_of_step hs
    obtain ⟨hbegun', houtcomes', hnoticed'⟩ := begun_of_noticed hv hnoticed hchange
    exact ⟨hv.of_change hchange, hbegun'.trans hbegun, houtcomes.trans houtcomes', hnoticed'⟩
  refine ⟨hbegun, houtcomes, ?_⟩
  rw [hf.begun_prefix.2, ← hbegun, ← hf'.begun_prefix.2]
  exact Nat.le_add_right _ _

/-! ## Going on -/

/-- The load of a run may fail or not; filling looks for the next run then. -/
theorem exists_finish {run : Run} (hf : Sound f) (hphase : f.phase = .loading run)
    (loaded : Loaded) : ∃ f', f.step (.finish loaded) = some f' ∧ f'.phase = .picking := by
  obtain ⟨k, b, hb⟩ := hf.account hphase
  exact ⟨_, step_finish hphase hb.raised loaded, rfl⟩

/-- What looking for the next run comes to. -/
theorem UnderWay.exists_move {k : Nat} {b : Backfill} (hb : UnderWay f k b) :
    ∃ move session, f.session.nextFill k = some (move, session) ∧
      if f.begun.length < f.fetched.length ∧ f.notices = 0 then
        ∃ run, move = .begun run ∨ ∃ e, move = .refused run e
      else ∃ summary, move = .finished summary := by
  have hlength : f.begun.length + b.pending.length = f.fetched.length := by
    rw [← List.length_append, hb.order, (Run.latestStartFirst_perm _).length_eq]
  cases hpending : b.pending with
  | nil =>
    rw [hpending, List.length_nil] at hlength
    have hover : ¬(f.begun.length < f.fetched.length ∧ f.notices = 0) := by omega
    exact ⟨_, _, Session.nextFill_of_nil hb.backfill hpending, (if_neg hover).symm ▸ ⟨_, rfl⟩⟩
  | cons run rest =>
    rw [hpending, List.length_cons] at hlength
    by_cases hnotices : f.notices = 0
    · have hflag : b.flag = true := hb.flag.trans (decide_eq_true hnotices)
      have hleft : f.begun.length < f.fetched.length ∧ f.notices = 0 := by omega
      cases hbegin : f.session.index.begin run with
      | error e =>
        exact ⟨_, _, Session.nextFill_of_refused hb.backfill hpending hflag hbegin,
          (if_pos hleft).symm ▸ ⟨run, .inr ⟨e, rfl⟩⟩⟩
      | ok index =>
        exact ⟨_, _, Session.nextFill_of_begun hb.backfill hpending hflag hbegin,
          (if_pos hleft).symm ▸ ⟨run, .inl rfl⟩⟩
    · have hflag : b.flag = false := hb.flag.trans (decide_eq_false hnotices)
      have hover : ¬(f.begun.length < f.fetched.length ∧ f.notices = 0) := by omega
      exact ⟨_, _, Session.nextFill_of_halted hb.backfill (by simp [hpending]) hflag,
        (if_neg hover).symm ▸ ⟨_, rfl⟩⟩

/-- As long as runs are left and the flag was told of nothing, the next run is begun; else filling
returns. -/
theorem exists_next (hf : Sound f) (hphase : f.phase = .picking) :
    ∃ f', f.step .next = some f' ∧
      if f.begun.length < f.fetched.length ∧ f.notices = 0 then
        ∃ run, f'.begun = f.begun ++ [run]
      else ∃ summary, f'.phase = .returned (.ok summary) := by
  obtain ⟨k, b, hb⟩ := hf.account hphase
  obtain ⟨move, session, hmove, hgoes⟩ := hb.exists_move
  refine ⟨_, step_next hphase hb.raised hmove, ?_⟩
  by_cases hleft : f.begun.length < f.fetched.length ∧ f.notices = 0
  · rw [if_pos hleft] at hgoes ⊢
    obtain ⟨run, rfl | ⟨e, rfl⟩⟩ := hgoes
    · exact ⟨run, rfl⟩
    · exact ⟨run, rfl⟩
  · rw [if_neg hleft] at hgoes ⊢
    obtain ⟨summary, rfl⟩ := hgoes
    exact ⟨summary, rfl⟩

/-! ## The listeners -/

/-- The flag that is raised is nobody's, and filling keeps it. -/
theorem Change.raises {k : Nat} (h : Change f fs f') (hk : f'.flag = some k) :
    f.flag = some k ∨ f.phase = .fetching ∧ k ∉ f.session.flags := by
  cases h with
  | fetched hphase =>
    obtain rfl := Option.some.inj hk
    exact .inr ⟨hphase, Session.freshFlag_not_mem _⟩
  | fetchFailed | exhausted | halted | refused | begun | ended | heard | others => exact .inl hk

theorem Sound.raises {k : Nat} (hf : Sound f) (h : Change f fs f') (hk : f'.flag = some k) :
    f.flag = some k ∨ f.flag = none ∧ k ∉ f.session.flags := by
  rcases h.raises hk with hsame | ⟨hphase, hfresh⟩
  · exact .inl hsame
  · have huntouched : Untouched f := hf.account hphase
    exact .inr ⟨huntouched.flag, hfresh⟩

/-- Filling, evicting and stopping leave all listeners alone but the flag of filling. -/
theorem Change.sameOthers (h : Change f fs f') (hfs : fs.isOthers = false) :
    Session.SameOthers f'.flag f.session f'.session := by
  cases h with
  | fetchFailed => exact .refl _ _
  | fetched _ _ hw => exact Session.sameOthers_beginFill hw _
  | exhausted _ hk | halted _ hk =>
    show Session.SameOthers f.flag _ _
    rw [hk]
    exact Session.sameOthers_returned _ _
  | refused | begun => exact ⟨rfl, fun _ => rfl⟩
  | @ended k run loaded _ _ =>
    have hdelivered : Session.Heard false none f.session _ := Session.heard_deliver run loaded
    exact (hdelivered.trans (Session.heard_recordFill _)).sameOthers _
  | heard hheard => exact hheard.sameOthers _
  | others => cases hfs

/-- The flag of filling while it is under way. -/
def raised (f : Filling) : Option Nat := if f.phase.isUnderWay then f.flag else none

/-- All who listened at the beginning listen, and besides them the flag of filling while it is under
way, which none of them is. -/
structure Listening (s : Session) (f : Filling) : Prop where
  adds : Session.Adds f.raised f.monitor s f.session
  unheard : ∀ k, f.flag = some k → Session.Unheard k f.monitor s

theorem Listening.of_change {s : Session} (hl : Listening s f) (h : Change f fs f')
    (hfs : fs.isOthers = false) : Listening s f' := by
  have hadds := hl.adds
  have hunheard := hl.unheard
  have hraised (hphase : f.phase.isUnderWay = true) :
      Session.Adds f.flag f.monitor s f.session := by
    rwa [raised, if_pos hphase] at hadds
  have hlowered {k : Nat} (hphase : f.phase = .picking) (hk : f.flag = some k) (b : Backfill) :
      Session.Adds none f.monitor s ((f.session.setFill k b).lowerFlag k f.monitor) := by
    have hset := (hraised (by rw [hphase]; rfl)).of_heard (Session.heard_setFill k b)
    rw [hk] at hset
    exact hset.lowerFlag (hunheard k hk)
  cases h with
  | fetchFailed hphase =>
    rw [raised, hphase] at hadds
    exact ⟨hadds, hunheard⟩
  | fetched hphase _ hw =>
    rw [raised, hphase] at hadds
    refine ⟨hadds.beginFill hw _, fun k hk => ?_⟩
    obtain rfl := Option.some.inj hk
    exact (Session.unheard_freshFlag _ _).of_adds hadds
  | exhausted hphase hk | halted hphase hk => exact ⟨hlowered hphase hk _, hunheard⟩
  | refused hphase =>
    exact ⟨(hraised (by rw [hphase]; rfl)).of_heard (Session.heard_setFill _ _), hunheard⟩
  | @begun k b run rest index hphase =>
    have hset := (hraised (by rw [hphase]; rfl)).of_heard
      (Session.heard_setFill k { b with pending := rest })
    exact ⟨⟨hset.onIndex, hset.onMonitor, hset.others⟩, hunheard⟩
  | @ended k run loaded hphase _ =>
    have hdelivered : Session.Heard false none f.session _ := Session.heard_deliver run loaded
    exact ⟨(hraised (by rw [hphase]; rfl)).of_heard
      (hdelivered.trans (Session.heard_recordFill _)), hunheard⟩
  | heard hheard => exact ⟨hadds.of_heard hheard, hunheard⟩
  | others => cases hfs

theorem listening_of_play {s : Session} {monitor : Nat} {answer : Except Error (List Run)}
    {steps : List FillStep} (h : play s monitor answer steps = some f)
    (hsteps : ∀ fs ∈ steps, fs.isOthers = false) : Listening s f := by
  have hbegins : Listening s (ofSession s monitor answer) := ⟨.refl _ _, fun _ hk => nomatch hk⟩
  exact Outcome.of_foldlM h hbegins fun v fs v' hfs hv hs =>
    hv.of_change (change_of_step hs) (hsteps fs hfs)

/-! ## The whole account -/

theorem constant_of_steps {steps : List FillStep} (h : steps.foldlM step f = some f') :
    f'.answer = f.answer ∧ f'.monitor = f.monitor := by
  have hrun := Outcome.of_foldlM (P := fun v => v.answer = f.answer ∧ v.monitor = f.monitor) h
    ⟨rfl, rfl⟩
  refine hrun fun v fs v' _ ⟨hanswer, hmonitor⟩ hs => ?_
  have hchange := change_of_step hs
  exact ⟨hchange.answer_eq.trans hanswer, hchange.monitor_eq.trans hmonitor⟩

/-- If the runs cannot be fetched nothing is done. -/
theorem Sound.untouched {e : Error} (hf : Sound f) (hanswer : f.answer = .error e) :
    Untouched f ∧ f.phase.isUnderWay = false := by
  obtain ⟨hf, hphase, -⟩ | ⟨k, b, hb, -⟩ | ⟨summary, hr, -⟩ := hf.cases
  · exact ⟨hf, hphase⟩
  · cases hanswer.symm.trans hb.answer
  · cases hanswer.symm.trans hr.answer

/-- Fetching the runs ends in any case. If it fails the session stays as it is. -/
theorem exists_fetch (hf : Sound f) (hphase : f.phase = .fetching) :
    ∃ f', f.step .fetch = some f' ∧ match f.answer with
      | .ok _ => f'.phase = .picking
      | .error e => f'.phase = .returned (.error e) ∧ f'.session = f.session := by
  have huntouched : Untouched f := hf.account hphase
  obtain ⟨w, hw, -⟩ := Option.map_eq_some_iff.1 huntouched.onMonitor
  rw [step, hphase]
  cases f.answer with
  | error e => exact ⟨_, rfl, rfl, rfl⟩
  | ok runs =>
    rw [hw]
    exact ⟨_, rfl, rfl⟩

theorem Returned.account {summary : BackfillSummary} (hr : Returned f summary) :
    summary.ingested + summary.failed = f.begun.length ∧
      summary.ingested + summary.failed ≤ summary.fetched ∧
      (summary.halted = true ↔ summary.ingested + summary.failed < summary.fetched) ∧
      (summary.halted = true → 0 < f.notices) := by
  obtain ⟨rest, horder, hhalted, hnoticed⟩ := hr.left
  have htried : summary.ingested + summary.failed = f.begun.length :=
    hr.counts.add_eq.trans hr.outcomes
  have hfetched : summary.fetched = f.begun.length + rest.length := by
    rw [hr.counts.fetched, ← List.length_append, horder, (Run.latestStartFirst_perm _).length_eq]
  have hleft : summary.halted = true ↔ rest ≠ [] := by simp [hhalted]
  refine ⟨htried, by omega, ?_, fun h => hnoticed (hleft.1 h)⟩
  rw [hleft, ← List.length_pos_iff]
  omega

/-- Whatever others do while an index is filled: the runs that filling tries come first among those
fetched, sorted by descending start. Once they were fetched it raises a flag that nobody has. Just
while it is under way its flag listens, and is told of every eviction and every stop; once it was told,
no further run is begun and at most the one under way ends. The summary counts every run that was
tried, and says that filling halted just if runs are left, in which case the flag was told. A run that
fails does not end filling. If runs cannot be fetched, nothing is done. The other listeners are left
alone, and once filling is over they are those that there were before. -/
theorem fills_of_play {s : Session} {monitor : Nat} {answer : Except Error (List Run)}
    {steps : List FillStep} (hmonitor : (s.watch? monitor).isSome = true)
    (h : play s monitor answer steps = some f) :
    f.answer = answer ∧
      (∃ sorted, Run.StablySorted f.fetched sorted ∧ f.begun <+: sorted) ∧
      (0 < f.notices → ∀ (later : List FillStep) (f' : Filling),
        later.foldlM step f = some f' → f'.begun = f.begun ∧ f.outcomes <+: f'.outcomes ∧
          f'.outcomes.length ≤ f.outcomes.length + f.phase.inFlight) ∧
      (∀ fs f', f.step fs = some f' →
        f'.notices = f.notices + (f.phase.isUnderWay && fs.tells f.session monitor).toNat ∧
        (∀ k, f'.flag = some k → f.flag = some k ∨ f.flag = none ∧ k ∉ f.session.flags) ∧
        (fs.isOthers = false → Session.SameOthers f'.flag f.session f'.session)) ∧
      (∀ summary, f.phase = .returned (.ok summary) →
        summary.Counts f.fetched f.outcomes ∧
        summary.ingested + summary.failed = f.begun.length ∧
        summary.ingested + summary.failed ≤ summary.fetched ∧
        (summary.halted = true ↔ summary.ingested + summary.failed < summary.fetched) ∧
        (summary.halted = true → 0 < f.notices)) ∧
      (f.phase = .fetching → ∃ f', f.step .fetch = some f' ∧ match f.answer with
        | .ok _ => f'.phase = .picking
        | .error e => f'.phase = .returned (.error e) ∧ f'.session = f.session) ∧
      (∀ run, f.phase = .loading run → ∀ loaded,
        ∃ f', f.step (.finish loaded) = some f' ∧ f'.phase = .picking) ∧
      (f.phase = .picking → ∃ f', f.step .next = some f' ∧
        if f.begun.length < f.fetched.length ∧ f.notices = 0 then
          ∃ run, f'.begun = f.begun ++ [run]
        else ∃ summary, f'.phase = .returned (.ok summary)) ∧
      (∀ e, answer = .error e → f.begun = [] ∧ f.phase.isUnderWay = false) ∧
      f.flag.isSome = f.phase.hasFetched ∧
      f.session.flagOnIndex f.flag = f.phase.isUnderWay ∧
      f.session.flagOnMonitor f.flag monitor = some f.phase.isUnderWay ∧
      ((∀ fs ∈ steps, fs.isOthers = false) → Session.Adds f.raised monitor s f.session) := by
  have hf := play_sound hmonitor h
  obtain ⟨hanswer, hsame⟩ := constant_of_steps h
  have hanswer : f.answer = answer := hanswer
  have hsame : f.monitor = monitor := hsame
  refine ⟨hanswer, ⟨_, Run.stablySorted_latestStartFirst _, hf.begun_prefix.1⟩,
    fun hnoticed later f' hlater => begun_of_steps hf hnoticed hlater, fun fs f' hs => ?_,
    fun summary hphase => ?_, exists_fetch hf, fun run hphase loaded =>
      exists_finish hf hphase loaded, exists_next hf, fun e he => ?_, hf.flags.1, hf.flags.2.1,
    hsame ▸ hf.flags.2.2, fun hsteps => hsame ▸ (listening_of_play h hsteps).adds⟩
  · have hchange := change_of_step hs
    exact ⟨hsame ▸ notices_of_step hf hs, fun k hk => hf.raises hchange hk, hchange.sameOthers⟩
  · have hr : Returned f summary := hf.account hphase
    exact ⟨hr.counts, hr.account⟩
  · obtain ⟨huntouched, hphase⟩ := hf.untouched (hanswer.trans he)
    exact ⟨huntouched.begun, hphase⟩

/-- Three runs are to be filled in. The load of the one that started last fails, the next one is
evicted once it is resident, and so the first one is left out. Another filling has its flag up all the
while. -/
theorem fills_of_failure_and_eviction :
    let run (id : Nat) : Run := { Run.blank with id, timeStart := ⟨id, 0⟩ }
    let other : Backfill := ⟨⟨1, 0, 0, false⟩, [], true⟩
    let watch : Watch := ⟨⟨⟨1000, 100, 0.5, 0⟩, false, 0, [], 0, [], false, 0⟩,
      [.recorder 0, .backfill 1]⟩
    let steps : List FillStep := [.fetch, .next, .finish (.error .transport), .next,
      .finish (.ok ⟨[], .null⟩), .evictAny, .next]
    ∃ s₀ f, Session.create Hash.hashText 1 .empty = .ok s₀ ∧
      let s := { s₀ with
        watches := Table.empty.set 0 watch, backfills := Table.empty.set 1 other
        indexListeners := [.backfill 1] }
      play s 0 (.ok [run 1, run 2, run 3]) steps = some f ∧
      f.phase = .returned (.ok ⟨3, 1, 1, true⟩) ∧ f.begun = [run 3, run 2] ∧ 0 < f.notices ∧
      f.flag = some 2 ∧ f.session.flagOnIndex (some 2) = false ∧
      f.session.flagOnMonitor (some 2) 0 = some false ∧ Session.Adds none 0 s f.session ∧
      ∀ (later : List FillStep) (f' : Filling), later.foldlM step f = some f' →
        f'.begun = [run 3, run 2] := by
  intro run other watch steps
  have hruns : Backfill.ofRuns [run 1, run 2, run 3] =
      ⟨⟨3, 0, 0, false⟩, [run 3, run 2, run 1], true⟩ := by
    simp [Backfill.ofRuns, Run.latestStartFirst, List.mergeSort,
      List.MergeSort.Internal.splitInTwo, run, Timestamp.before]
  obtain ⟨s₀, hs, hmonitor, f, hf, hend⟩ : ∃ s₀, Session.create Hash.hashText 1 .empty = .ok s₀ ∧
      let s := { s₀ with
        watches := Table.empty.set 0 watch, backfills := Table.empty.set 1 other
        indexListeners := [.backfill 1] }
      (s.watch? 0).isSome = true ∧
      ∃ f, play s 0 (.ok [run 1, run 2, run 3]) steps = some f ∧
        decide (f.phase = .returned (.ok ⟨3, 1, 1, true⟩) ∧ f.begun = [run 3, run 2] ∧
          f.flag = some 2) = true := by
    refine ⟨_, rfl, rfl, (Option.any_eq_true _ _).1 ?_⟩
    rw [play, List.foldlM_cons, step, ofSession]
    simp only [Session.beginFill, hruns]
    decide +kernel
  obtain ⟨hphase, hbegun, hflag⟩ := of_decide_eq_true hend
  obtain ⟨-, -, hhalted, -, hsummary, -, -, -, -, -, hindex, honMonitor, hadds⟩ :=
    fills_of_play hmonitor hf
  obtain ⟨-, -, -, -, hnoticed⟩ := hsummary _ hphase
  have hnoticed := hnoticed rfl
  rw [hphase, hflag] at hindex honMonitor
  have hadds := hadds (by decide)
  rw [raised, hphase] at hadds
  exact ⟨s₀, f, hs, hf, hphase, hbegun, hnoticed, hflag, hindex, honMonitor, hadds,
    fun later f' h => (hhalted hnoticed later f' h).1.trans hbegun⟩

end Filling

end ResultSearch
