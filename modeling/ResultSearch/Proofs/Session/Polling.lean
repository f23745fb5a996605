import ResultSearch.Proofs.Polling
import ResultSearch.Remote
import ResultSearch.Session.Script

/-!
# Polling in a session

As long as no task has its turn and nothing is hooked to a load, a session polls as if there were
only its index. What becomes of the runs that are listed can then be told from the index before and
from the list.

* `Session.loader`: what loading a report comes to in a session; `not_isSkip_loader`,
  `Remote.not_isSkip_loadReport`: no loader gives an error that is for the index to give.
* `Session.Quiet`: nothing else happens; `pollOnce_of_quiet`: the account and the index after a poll.
* `Chronicle.accounts_of_pass`: what becomes of every run that is listed.
-/

namespace ResultSearch

namespace Session

variable {s s' s'' : Session}

/-! ## Loads -/

/-- What loading the report of a run comes to. -/
def loader (s : Session) (r : Run) : Loaded :=
  match s.reports.get? r.id with
  | some report => .ok report
  | none => .error (Report.notRegistered r.id)

/-- A session leaves it to the index to say that a run is there. -/
theorem not_isSkip_loader (s : Session) (r : Run) : ¬ (s.loader r).IsSkip := by
  rintro ⟨e, he, hskip⟩
  unfold loader at he
  split at he
  · cases he
  · cases he
    cases hskip

/-! ## Nothing else happens -/

/-- No task is ready or about to load a report, no task can be called, and nothing is hooked to a
load. -/
structure Quiet (s : Session) : Prop where
  queue_eq : s.queue = []
  parked_eq : s.parked = []
  hooks_eq : ∀ id, (s.hooks.get? id).getD [] = []
  job_ne : ∀ e ∈ s.tasks.entries, ∀ monitor loop, e.2.job ≠ .watch monitor loop

/-- What is done leaves the index, the reports, the hooks and the tasks alone. -/
structure Still (s s' : Session) : Prop where
  index_eq : s'.index = s.index
  reports_eq : s'.reports = s.reports
  hooks_eq : s'.hooks = s.hooks
  tasks_eq : s'.tasks = s.tasks
  queue_eq : s'.queue = s.queue
  parked_eq : s'.parked = s.parked

theorem Still.refl (s : Session) : Still s s := ⟨rfl, rfl, rfl, rfl, rfl, rfl⟩

theorem Still.trans (h : Still s s') (h' : Still s' s'') : Still s s'' :=
  ⟨h'.index_eq.trans h.index_eq, h'.reports_eq.trans h.reports_eq, h'.hooks_eq.trans h.hooks_eq,
    h'.tasks_eq.trans h.tasks_eq, h'.queue_eq.trans h.queue_eq, h'.parked_eq.trans h.parked_eq⟩

theorem Still.quiet (h : Still s s') (hquiet : s.Quiet) : s'.Quiet where
  queue_eq := h.queue_eq.trans hquiet.queue_eq
  parked_eq := h.parked_eq.trans hquiet.parked_eq
  hooks_eq := h.hooks_eq ▸ hquiet.hooks_eq
  job_ne := h.tasks_eq ▸ hquiet.job_ne

theorem Still.loader_eq (h : Still s s') : s'.loader = s.loader := by
  funext r
  rw [loader, loader, h.reports_eq]

theorem still_updateMonitor (monitor : Nat) (f : Monitor → Monitor) :
    Still s (s.updateMonitor monitor f) := by
  unfold updateMonitor
  split
  · exact ⟨rfl, rfl, rfl, rfl, rfl, rfl⟩
  · exact .refl s

theorem still_tell (event : Event) (l : Listener) : Still s (s.tell event l) := by
  cases l with
  | recorder id =>
    simp only [tell]
    split
    · split
      · exact .refl s
      · exact ⟨rfl, rfl, rfl, rfl, rfl, rfl⟩
    · exact .refl s
  | trigger monitor =>
    simp only [tell]
    split
    · exact still_updateMonitor monitor _
    · exact .refl s
  | backfill flag =>
    simp only [tell]
    split
    · exact .refl s
    · obtain ⟨backfills, hupdated⟩ := s.exists_updateFill flag Backfill.halt
      rw [hupdated]
      exact ⟨rfl, rfl, rfl, rfl, rfl, rfl⟩

namespace Quiet

/-- Nobody is woken by what the listeners are told. -/
theorem still_announce (h : s.Quiet) (event : IndexEvent) : Still s (s.announce event) := by
  have htold (ls : List Listener) (s : Session) :
      Still s (ls.foldl (fun s l => s.tell (.index event) l) s) := by
    induction ls generalizing s with
    | nil => exact .refl s
    | cons l rest ih => exact (still_tell _ l).trans (ih _)
  have hquiet := (htold s.indexListeners s).quiet h
  have hnone : ∀ e ∈ (s.indexListeners.foldl (fun s l => s.tell (.index event) l) s).tasks.entries,
      (s.indexListeners.foldl (fun s l => s.tell (.index event) l) s).isRoused e.2 = false := by
    intro e he
    unfold isRoused
    split
    · next monitor loop _ _ hjob _ => exact absurd hjob (hquiet.job_ne e he monitor (some loop))
    · rfl
  rw [announce, rouseCalled, List.filter_eq_nil_iff.2 fun e he => by simp [hnone e he]]
  exact htold _ s

theorem drain_eq (h : s.Quiet) (fuel : Nat) : drain fuel s = s := by
  cases fuel with
  | zero => rfl
  | succ fuel => rw [drain, h.queue_eq]

/-- No task has a turn. -/
theorem settle_eq (h : s.Quiet) : s.settle = s := by
  have hsame : { s with queue := s.parked ++ s.queue, parked := [] } = s := by
    obtain ⟨hqueue, hparked, -, -⟩ := h
    cases s
    simp_all
  rw [settle, hsame, h.drain_eq]

/-- The end of an ingestion is that of the index. -/
theorem deliver_eq (h : s.Quiet) (r : Run) (loaded : Loaded) :
    (s.deliver r loaded).1 = (s.index.deliver r loaded).1 ∧
      Still { s with index := (s.index.deliver r loaded).2 } (s.deliver r loaded).2 := by
  have hquiet : Quiet { s with index := (s.index.deliver r loaded).2 } :=
    ⟨h.queue_eq, h.parked_eq, h.hooks_eq, h.job_ne⟩
  rw [deliver]
  cases hdeliver : s.index.deliver r loaded with
  | mk outcome index =>
    rw [hdeliver] at hquiet
    cases outcome with
    | ok => exact ⟨rfl, hquiet.still_announce _⟩
    | error e => exact ⟨rfl, .refl _⟩

/-- An ingestion is that of the index, and leaves all the rest to be as it was. -/
theorem ingest_eq (h : s.Quiet) (r : Run) :
    (s.ingest r).1 = (s.index.ingest s.loader r).1 ∧
      Still { s with index := (s.index.ingest s.loader r).2 } (s.ingest r).2 := by
  rw [ingest, Index.ingest]
  cases hbegin : s.index.begin r with
  | error e => exact ⟨rfl, .refl _⟩
  | ok index =>
    have hbegun : Quiet { s with index } := ⟨h.queue_eq, h.parked_eq, h.hooks_eq, h.job_ne⟩
    have hloads : Quiet { s with index, loads := s.loads ++ [r.id] } :=
      ⟨h.queue_eq, h.parked_eq, h.hooks_eq, h.job_ne⟩
    dsimp only
    rw [hbegun.settle_eq, completeLoad]
    dsimp only
    rw [h.hooks_eq, runHooks, List.foldl_nil]
    obtain ⟨hfst, hstill⟩ := hloads.deliver_eq r (s.loader r)
    exact ⟨hfst, hstill.index_eq, hstill.reports_eq, hstill.hooks_eq, hstill.tasks_eq,
      hstill.queue_eq, hstill.parked_eq⟩

/-- So is a pass. -/
theorem poll_eq (h : s.Quiet) (p : PollPass) (runs : List Run) :
    (poll p runs s).1 = (PollPass.run (fun _ => s.loader) runs p s.index).1 ∧
      (poll p runs s).2.index = (PollPass.run (fun _ => s.loader) runs p s.index).2 := by
  induction runs generalizing p s with
  | nil => exact ⟨rfl, rfl⟩
  | cons r rest ih =>
    obtain ⟨houtcome, hstill⟩ := h.ingest_eq r
    have hbegun : Quiet { s with index := (s.index.ingest s.loader r).2 } :=
      ⟨h.queue_eq, h.parked_eq, h.hooks_eq, h.job_ne⟩
    have hloader : (s.ingest r).2.loader = s.loader := hstill.loader_eq
    have hrest := ih (hstill.quiet hbegun) (p.record (s.ingest r).1)
    rw [hloader, houtcome, hstill.index_eq] at hrest
    rw [poll, PollPass.run]
    dsimp only
    rw [houtcome]
    exact hrest

end Quiet

/-- A poll in a session in which nothing else happens is one of its index. -/
theorem pollOnce_of_quiet (h : s.Quiet) (maxRuns : Nat) :
    (s.pollOnce maxRuns).1 =
        (ResultSearch.pollOnce (fun _ => s.loader) (s.fetchRuns maxRuns).1 s.index).1 ∧
      (s.pollOnce maxRuns).2.index =
        (ResultSearch.pollOnce (fun _ => s.loader) (s.fetchRuns maxRuns).1 s.index).2 := by
  cases hfetch : s.fetchRuns maxRuns with
  | mk fetched s' =>
    have hstill : Still s s' := by
      cases hfetch
      exact ⟨rfl, rfl, rfl, rfl, rfl, rfl⟩
    rw [pollOnce, hfetch]
    cases fetched with
    | error e => exact ⟨rfl, hstill.index_eq⟩
    | ok runs =>
      have hpoll := (hstill.quiet h).poll_eq (.ofRuns runs) runs
      rw [hstill.loader_eq, hstill.index_eq] at hpoll
      exact ⟨congrArg PollPass.iteration hpoll.1, hpoll.2⟩

end Session

/-- A service that reports are fetched from leaves it to the index as well. -/
theorem Remote.not_isSkip_loadReport (net : Network) (r : Run) :
    ¬ Loaded.IsSkip (Remote.loadReport net r).result := by
  rintro ⟨e, he, hskip⟩
  have hcause : e = Report.noPlace r.id ∨ e = .transport := by
    unfold loadReport get document at he
    split at he
    · exact .inl (Except.error.inj he).symm
    · split at he
      · exact .inr (Except.error.inj he).symm
      · dsimp only at he
        split at he
        · exact .inr (Except.error.inj he).symm
        · split at he
          · cases he
          · exact .inr (Except.error.inj he).symm
  rcases hcause with rfl | rfl <;> cases hskip

namespace Chronicle

variable {hash : NameHash} {count : Nat} {c : Chronicle}

/-- Runs are offered in any order, some of them twice or without an id, and their loads come to
anything. The pass counts every one of them once. A run is ingested just if it has an id, is neither
resident nor being loaded, was not ingested before in the pass, and has a report that can be staged.
It is skipped just if it has an id and is resident, being loaded or ingested before, or else its load
fails with an error that says so. Those that were ingested become resident and no others. The account
names the first run that was ingested after one that was not. A session in which nothing else happens
polls like this, and its loads do not fail in this way. -/
theorem accounts_of_pass {calls : List IndexCall} (h : replay hash count calls = .ok c)
    (offers : List (Run × Loaded)) :
    let outcomes := (Index.offerAll offers c.index).1
    let ix := (Index.offerAll offers c.index).2
    let fates := outcomes.map Fate.of
    let account := (outcomes.foldl PollPass.record (.ofRuns (offers.map Prod.fst))).iteration
    (∀ load runs, offers = runs.mapIdx (fun i r => (r, load i r)) →
      pollOnce load (.ok runs) c.index = (account, ix)) ∧
    (∀ (s : Session) (maxRuns : Nat), s.Quiet → s.index = c.index → s.listingFails = false →
      offers = (s.listing.take maxRuns).map (fun r => (r, s.loader r)) →
        (s.pollOnce maxRuns).1 = account ∧ (s.pollOnce maxRuns).2.index = ix ∧
          ∀ o ∈ offers, ¬ o.2.IsSkip) ∧
    account.fetched = offers.length ∧
    account.fetched = account.ingested + account.skipped + account.failed ∧
    account.ingested = fates.count .ingested ∧ account.skipped = fates.count .skipped ∧
    account.failed = fates.count .failed ∧
    c.index.Passed offers fates ix ∧
    (∀ i r loaded, offers[i]? = some (r, loaded) → ¬ loaded.IsSkip → (fates[i]? = some .skipped ↔
      r.id ≠ 0 ∧ (r.id ∈ c.index.residentIds ∨ r.id ∈ c.index.inFlight ∨
        Index.IngestedBefore offers fates i r.id))) ∧
    (∀ i, account.ingestedAfter = some i ↔ IsLeast {i | Fate.IsLate fates i} i) ∧
    (account.ingestedAfter = none ↔ ∀ i, ¬ Fate.IsLate fates i) := by
  intro outcomes ix fates account
  have hpass : c.index.Passed offers fates ix := (replay_consistent h).passed_offerAll offers
  have haccount := (PollPass.Accounts.ofRuns (offers.map Prod.fst)).foldl outcomes
  rw [List.nil_append] at haccount
  have hfetched : account.fetched = offers.length :=
    haccount.fetched_eq.trans (List.length_map _)
  refine ⟨fun load runs hoffers => pollOnce_eq hoffers c.index,
    fun s maxRuns hquiet hindex hlisting hoffers => ?_, hfetched, ?_,
    haccount.ingested_eq, haccount.skipped_eq, haccount.failed_eq, hpass,
    fun i r loaded hi hload => ?_, fun i => haccount.firstLate.eq_some_iff,
    haccount.firstLate.eq_none_iff⟩
  · have hfetch : (s.fetchRuns maxRuns).1 = .ok (s.listing.take maxRuns) := by
      simp [Session.fetchRuns, Session.listed, hlisting]
    obtain ⟨hfst, hsnd⟩ := Session.pollOnce_of_quiet hquiet maxRuns
    have hsame : offers = (s.listing.take maxRuns).mapIdx fun _ r => (r, s.loader r) := by
      rw [hoffers]
      exact (List.mapIdx_eq_iff.2 fun i => List.getElem?_map).symm
    rw [hfetch, hindex, pollOnce_eq hsame] at hfst hsnd
    refine ⟨hfst, hsnd, fun o ho => ?_⟩
    obtain ⟨r, -, rfl⟩ := List.mem_map.1 (hoffers ▸ ho)
    exact s.not_isSkip_loader r
  · have hcount := Fate.count_add_count_add_count fates
    rw [hpass.length_eq] at hcount
    rw [hfetched, ← hcount]
    exact congrArg₂ (· + ·) (congrArg₂ (· + ·) haccount.ingested_eq haccount.skipped_eq).symm
      haccount.failed_eq.symm
  · rw [hpass.skipped_iff i r loaded hi]
    simp only [hload, or_false]

/-- One run is resident and another is being loaded. Both are listed, and a run without an id, one that
cannot be loaded, one whose report is refused and one that is listed twice, with another report at the
second time. -/
theorem accounts_of_repeated_runs :
    let hash : NameHash := fun text => if text = "zero" then 0 else text.length.toUInt64
    let run (id : RunId) : Run := { Run.blank with id }
    let report (name : String) : Report :=
      ⟨[⟨"/a.html", .ok, none, [⟨name, .pass, none⟩]⟩], .null⟩
    let calls : List IndexCall := [.ingest (run 1) (.ok (report "one")), .begin (run 2)]
    let loads : List Loaded := [.ok (report "one"), .ok (report "one"), .ok (report "one"),
      .ok (report "two"), .ok (report "one"), .error .transport, .ok (report "zero"),
      .ok (report "two"), .ok (report "two")]
    let load (i : Nat) (_ : Run) : Loaded := loads.getD i (.error .transport)
    let runs : List Run := [3, 1, 0, 3, 2, 4, 5, 6, 7].map run
    let offers := runs.mapIdx fun i r => (r, load i r)
    let fates : List Fate :=
      [.ingested, .skipped, .failed, .skipped, .skipped, .failed, .failed, .ingested, .ingested]
    ∃ c ix, replay hash 2 calls = .ok c ∧ c.index.Passed offers fates ix ∧
      pollOnce load (.ok runs) c.index = (⟨9, 3, 3, 3, some 7⟩, ix) := by
  intro hash run report calls loads load runs offers fates
  let c : Chronicle := (start hash 2).afterAll calls
  have hreplay : replay hash 2 calls = .ok c := replay_eq_ok_iff.2 ⟨by decide, rfl⟩
  have hfates : (Index.offerAll offers c.index).1.map Fate.of = fates := by decide +kernel
  have haccount : ((Index.offerAll offers c.index).1.foldl PollPass.record
      (.ofRuns (offers.map Prod.fst))).iteration = ⟨9, 3, 3, 3, some 7⟩ := by decide +kernel
  obtain ⟨hpoll, -, -, -, -, -, -, hpass, -⟩ := accounts_of_pass hreplay offers
  rw [hfates] at hpass
  rw [haccount] at hpoll
  exact ⟨c, _, hreplay, hpass, hpoll load runs rfl⟩

/-- A load that fails with the error for a run that is there already. The run is skipped, although it
is neither resident nor being loaded and was not ingested before. -/
theorem skipped_by_load :
    let run : Run := { Run.blank with id := 3 }
    let offers : List (Run × Loaded) := [(run, .error (.runExists 3))]
    let fates := (Index.offerAll offers (start Hash.hashText 1).index).1.map Fate.of
    replay Hash.hashText 1 [] = .ok (start Hash.hashText 1) ∧
      (pollOnce (fun _ r => .error (.runExists r.id)) (.ok [run]) (start Hash.hashText 1).index).1 =
        ⟨1, 0, 1, 0, none⟩ ∧
      ¬(fates[0]? = some .skipped ↔
        run.id ≠ 0 ∧ (run.id ∈ (start Hash.hashText 1).index.residentIds ∨
          run.id ∈ (start Hash.hashText 1).index.inFlight ∨
            Index.IngestedBefore offers fates 0 run.id)) := by
  intro run offers fates
  have hfates : fates = [.skipped] := by decide +kernel
  refine ⟨replay_eq_ok_iff.2 ⟨by decide, rfl⟩, by decide +kernel, fun hiff => ?_⟩
  rw [hfates] at hiff
  obtain ⟨-, hres | hmark | ⟨j, hj, -⟩⟩ := hiff.1 rfl
  · exact absurd hres (by decide +kernel)
  · exact absurd hmark (by decide +kernel)
  · exact absurd hj (Nat.not_lt_zero j)

end Chronicle

end ResultSearch
