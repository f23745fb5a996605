import ResultSearch.Proofs.Index.Refusals

/-!
# Searches that are told to stop

Every shard asks now and then whether its scan may go on. The shards do so at different moments, and
what they are told may have changed in between, so that some finish and others are refused. The
search as a whole still answers all its rows or none.

* `StopCheck.Allows`: no shard is refused at any position at which it asks.
* `Plan.scan_cases`: a shard answers its rows or is cancelled.
* `Plan.FanIn`: what shards that are scanned side by side come to; `fanIn_executeWith`: one after
  the other they come to one of these.
* `StopCheck.listening`: a token that is asked at any moments; `CancelToken.check_of_before`: once it
  refuses it refuses.
* `cancellation_of_execution`: all or nothing, whenever the token refuses.
-/

namespace ResultSearch

/-! ## Shards that ask -/

namespace StopCheck

/-- A scan of so many names is not refused at any position at which it asks. -/
def AllowsScan (check : Nat → Except Cancellation Unit) (size : Nat) : Prop :=
  ∀ i < size, i % Plan.stride = 0 → check i = .ok ()

/-- No scan of the registries is refused. -/
def Allows (check : StopCheck) (registries : List Registry) : Prop :=
  ∀ n registry, registries[n]? = some registry → AllowsScan (check n) registry.size

end StopCheck

namespace Plan

variable {options : RowOptions} {columns : List RunId}

/-- From any position on, a scan is refused nowhere and ends as if it had not asked, or it is
cancelled for the cause that it is given at some position. -/
theorem scanFrom_cases (filter : Filter) (columns : List RunResults) (options : RowOptions)
    (check : Nat → Except Cancellation Unit) (shard position : Nat)
    (entries : List (Fingerprint × TestName)) (a : Aggregation) :
    ((∀ i, position ≤ i → i < position + entries.length → i % stride = 0 → check i = .ok ()) ∧
      scanFrom filter columns options check position entries a =
        scanFrom filter columns options (StopCheck.never shard) position entries a) ∨
    ∃ i cause, position ≤ i ∧ i < position + entries.length ∧ i % stride = 0 ∧
      check i = .error cause ∧
        scanFrom filter columns options check position entries a = .error (.cancelled cause) := by
  induction entries generalizing position a with
  | nil => exact .inl ⟨fun i hle hlt => by simp at hlt; omega, rfl⟩
  | cons e rest ih =>
    rw [scanFrom, scanFrom, List.length_cons]
    have hnever : (if position % stride = 0 then StopCheck.never shard position else .ok ()) =
        .ok () := by
      split <;> rfl
    rw [hnever]
    cases hasked : (if position % stride = 0 then check position else .ok ()) with
    | error cause =>
      right
      split at hasked
      · next hstride => exact ⟨position, cause, Nat.le_refl _, by omega, hstride, hasked, rfl⟩
      · cases hasked
    | ok =>
      rcases ih (position + 1) (if filter.accepts e.1 e.2 then a.add columns options e.1 e.2 else a)
        with ⟨hallowed, hscan⟩ | ⟨i, cause, hle, hlt, hrefused⟩
      · refine .inl ⟨fun i hle hlt hstride => ?_, hscan⟩
        rcases Nat.eq_or_lt_of_le hle with rfl | hlt'
        · rwa [if_pos hstride] at hasked
        · exact hallowed i hlt' (by omega) hstride
      · exact .inr ⟨i, cause, by omega, by omega, hrefused⟩

/-- A shard with results of all the columns answers what it answers unasked, or it is cancelled for
the cause that it is given at some position. -/
theorem scan_cases {part : ShardFilter} {results : List RunResults}
    (h : columns.mapM (Filter.resultsOf part.results) = .ok results) (registry : Registry)
    (options : RowOptions) (check : Nat → Except Cancellation Unit) (shard : Nat) :
    (StopCheck.AllowsScan check registry.size ∧ scan part registry columns options check =
        scan part registry columns options (StopCheck.never shard)) ∨
    ¬ StopCheck.AllowsScan check registry.size ∧ ∃ cause,
      scan part registry columns options check = .error (.cancelled cause) := by
  have hsize : registry.size = 0 + registry.entries.length := (Nat.zero_add _).symm
  rw [scan, scan, h, Outcome.ok_bind, Outcome.ok_bind, hsize]
  rcases scanFrom_cases part.filter results options check shard 0 registry.entries .empty with
    ⟨hallowed, hscan⟩ | ⟨i, cause, -, hlt, hstride, hrefused, hscan⟩
  · exact .inl ⟨fun i => hallowed i (Nat.zero_le i), by rw [hscan]⟩
  · refine .inr ⟨fun hallowed => ?_, cause, by rw [hscan]; rfl⟩
    cases hrefused.symm.trans (hallowed i hlt hstride)

/-! ## Side by side -/

/-- What the scans of the shards come to, each on its own. -/
def scans (p : Plan) (registries : List Registry) (columns : List RunId) (options : RowOptions)
    (check : StopCheck) : List (Except Error (List Row)) :=
  (p.shards.zip registries).mapIdx fun n s => scan s.1 s.2 columns options (check n)

/-- What scans that go on side by side may come to as a whole: the rows of all of them, or the error
of any that fails. -/
inductive FanIn (scans : List (Except Error (List Row))) : Except Error (List Row) → Prop
  | rows {answers : List (List Row)} : scans = answers.map .ok →
      FanIn scans (.ok (sortRows answers.flatten))
  | error {e : Error} : .error e ∈ scans → FanIn scans (.error e)

namespace FanIn

variable {scans : List (Except Error (List Row))} {rows : List Row}
  {outcome : Except Error (List Row)}

theorem eq_ok (h : FanIn scans outcome) (hrows : FanIn scans (.ok rows)) : outcome = .ok rows := by
  obtain ⟨answers, hanswers⟩ : ∃ answers : List (List Row), scans = answers.map .ok ∧
      rows = sortRows answers.flatten := by
    cases hrows with
    | rows hanswers => exact ⟨_, hanswers, rfl⟩
  obtain ⟨hanswers, rfl⟩ := hanswers
  cases h with
  | rows hanswers' =>
    rw [List.map_injective_iff.2 (fun _ _ => Except.ok.inj) (hanswers.symm.trans hanswers')]
  | error hmem =>
    rw [hanswers] at hmem
    obtain ⟨answer, -, heq⟩ := List.mem_map.1 hmem
    cases heq

/-- If some scan fails then the whole fails as some scan does. -/
theorem exists_error (h : FanIn scans outcome) {e : Error} (he : .error e ∈ scans) :
    ∃ e', outcome = .error e' ∧ .error e' ∈ scans := by
  cases h with
  | rows hanswers =>
    rw [hanswers] at he
    obtain ⟨answer, -, heq⟩ := List.mem_map.1 he
    cases heq
  | error hmem => exact ⟨_, rfl, hmem⟩

end FanIn

/-- Scans that go on one after the other, up to the first that fails. -/
theorem scanFromShard_cases (columns : List RunId) (options : RowOptions) (check : StopCheck)
    (number : Nat) (shards : List (ShardFilter × Registry)) :
    (∃ answers : List (List Row),
      shards.mapIdx (fun n s => scan s.1 s.2 columns options (check (number + n))) =
        answers.map .ok ∧
      scanFromShard columns options check number shards = .ok answers.flatten) ∨
    ∃ e, .error e ∈
        shards.mapIdx (fun n s => scan s.1 s.2 columns options (check (number + n))) ∧
      scanFromShard columns options check number shards = .error e := by
  induction shards generalizing number with
  | nil => exact .inl ⟨[], rfl, rfl⟩
  | cons s rest ih =>
    have hrest : rest.mapIdx (fun n s => scan s.1 s.2 columns options (check (number + (n + 1)))) =
        rest.mapIdx fun n s => scan s.1 s.2 columns options (check (number + 1 + n)) := by
      simp only [Nat.add_assoc, Nat.add_comm 1]
    rw [List.mapIdx_cons, scanFromShard, hrest]
    cases hscan : scan s.1 s.2 columns options (check number) with
    | error e => exact .inr ⟨e, by simp, rfl⟩
    | ok rows =>
      rcases ih (number + 1) with ⟨answers, hanswers, hall⟩ | ⟨e, he, hall⟩
      · refine .inl ⟨rows :: answers, ?_, ?_⟩
        · rw [List.map_cons, ← hanswers, ← hscan]
        · rw [hall]
          rfl
      · refine .inr ⟨e, List.mem_cons_of_mem _ he, ?_⟩
        rw [hall]
        rfl

/-- One after the other the shards come to what they may come to side by side. -/
theorem fanIn_executeWith (p : Plan) (registries : List Registry) (columns : List RunId)
    (options : RowOptions) (check : StopCheck) :
    FanIn (p.scans registries columns options check)
      (p.executeWith registries columns options check) := by
  rw [executeWith, scans]
  rcases scanFromShard_cases columns options check 0 (p.shards.zip registries) with
    ⟨answers, hanswers, hall⟩ | ⟨e, he, hall⟩
  · rw [hall]
    simp only [Nat.zero_add] at hanswers
    exact .rows hanswers
  · rw [hall]
    simp only [Nat.zero_add] at he
    exact .error he

section Known

variable {p : Plan} {registries : List Registry} {check : StopCheck}
  (hknown : ∀ part ∈ p.shards, ∃ results,
    columns.mapM (Filter.resultsOf part.results) = .ok results)

include hknown

/-- Shards that are not refused answer what they answer unasked. -/
theorem scans_eq_never (h : check.Allows registries) :
    p.scans registries columns options check = p.scans registries columns options .never := by
  rw [scans, scans, List.mapIdx_eq_mapIdx_iff]
  intro n hn
  have hpart : (p.shards.zip registries)[n].1 ∈ p.shards :=
    (List.of_mem_zip (List.getElem_mem hn)).1
  obtain ⟨results, hresults⟩ := hknown _ hpart
  have hregistry : registries[n]? = some (p.shards.zip registries)[n].2 := by
    rw [List.length_zip] at hn
    rw [List.getElem_zip, List.getElem?_eq_getElem]
  rcases scan_cases hresults _ options (check n) n with ⟨-, hscan⟩ | ⟨hrefused, -⟩
  · exact hscan
  · exact absurd (h n _ hregistry) hrefused

/-- A shard that fails is cancelled. -/
theorem eq_cancelled_of_mem_scans {e : Error}
    (h : .error e ∈ p.scans registries columns options check) : ∃ cause, e = .cancelled cause := by
  obtain ⟨n, hn, hscan⟩ := List.mem_mapIdx.1 h
  have hpart : (p.shards.zip registries)[n].1 ∈ p.shards :=
    (List.of_mem_zip (List.getElem_mem hn)).1
  obtain ⟨results, hresults⟩ := hknown _ hpart
  rcases scan_cases hresults (p.shards.zip registries)[n].2 options (check n) n with
    ⟨-, heq⟩ | ⟨-, cause, heq⟩
  · rw [heq, scan_never hresults] at hscan
    cases hscan
  · rw [heq] at hscan
    exact ⟨cause, (Except.error.inj hscan).symm⟩

/-- A shard that is refused somewhere is cancelled. -/
theorem exists_cancelled_of_not_allows (hlength : p.shards.length = registries.length)
    (h : ¬ check.Allows registries) :
    ∃ cause, .error (.cancelled cause) ∈ p.scans registries columns options check := by
  simp only [StopCheck.Allows] at h
  push Not at h
  obtain ⟨n, registry, hregistry, hrefused⟩ := h
  obtain ⟨hn, rfl⟩ := List.getElem?_eq_some_iff.1 hregistry
  obtain ⟨results, hresults⟩ := hknown _ (List.getElem_mem (hlength ▸ hn))
  rcases scan_cases hresults _ options (check n) n with ⟨hallowed, -⟩ | ⟨-, cause, hscan⟩
  · exact absurd hallowed hrefused
  · refine ⟨cause, List.mem_mapIdx.2 ⟨n, by simp [hlength, hn], ?_⟩⟩
    rw [List.getElem_zip]
    exact hscan

/-- Side by side the shards answer the rows that they answer unasked, or the whole is cancelled, as
some shard is refused or not. -/
theorem fanIn_cases {rows : List Row} {outcome : Except Error (List Row)}
    (hlength : p.shards.length = registries.length)
    (hrows : p.execute registries columns options = .ok rows)
    (h : FanIn (p.scans registries columns options check) outcome) :
    (check.Allows registries → outcome = .ok rows) ∧
      (¬ check.Allows registries → ∃ cause, outcome = .error (.cancelled cause)) := by
  constructor
  · intro hallows
    rw [scans_eq_never hknown hallows] at h
    have hexecute := p.fanIn_executeWith registries columns options .never
    rw [← execute, hrows] at hexecute
    exact h.eq_ok hexecute
  · intro hrefused
    obtain ⟨cause, hcause⟩ := exists_cancelled_of_not_allows hknown hlength hrefused
    obtain ⟨e, rfl, he⟩ := h.exists_error hcause
    obtain ⟨cause', rfl⟩ := eq_cancelled_of_mem_scans hknown he
    exact ⟨cause', rfl⟩

end Known

end Plan

/-! ## Tokens -/

/-- A moment at which a token is asked: the time, and the flags that are up. -/
structure Moment where
  now : Nat
  flags : Flags

namespace Moment

/-- The moment is no later than the other, and no flag has come down in between. -/
def Before (m m' : Moment) : Prop :=
  m.now ≤ m'.now ∧ ∀ flag, m.flags.isUp flag = true → m'.flags.isUp flag = true

end Moment

/-- A token that refuses does so ever after. -/
theorem CancelToken.check_of_before {t : CancelToken} {m m' : Moment} (h : m.Before m')
    (hrefuses : t.check m.flags m.now ≠ .ok ()) : t.check m'.flags m'.now ≠ .ok () := by
  obtain ⟨hnow, hflags⟩ := h
  by_cases hflag : t.isCancelled m'.flags = true
  · rw [check_of_raised hflag]
    nofun
  · have hflag' : ¬ t.isCancelled m.flags = true := fun hup => hflag (hflags _ hup)
    rw [check, if_neg hflag'] at hrefuses
    rw [check, if_neg hflag]
    cases hdeadline : t.deadline with
    | none => simp [hdeadline] at hrefuses
    | some d =>
      have hd : d ≤ m.now := by
        by_contra hd
        simp [hdeadline, hd] at hrefuses
      simp [Nat.le_trans hd hnow]

namespace StopCheck

/-- What a token says to the scans at the moments at which they ask. -/
def listening (t : CancelToken) (moments : Nat → Nat → Moment) : StopCheck := fun shard position =>
  t.check (moments shard position).flags (moments shard position).now

/-- A token that refuses from the start refuses some scan if there is a name. -/
theorem not_allows_listening {t : CancelToken} {start : Moment} {moments : Nat → Nat → Moment}
    {registries : List Registry} (hmoments : ∀ shard position, start.Before (moments shard position))
    (hrefuses : t.check start.flags start.now ≠ .ok ())
    (hnames : ∃ registry ∈ registries, 0 < registry.size) :
    ¬ (listening t moments).Allows registries := by
  obtain ⟨registry, hmem, hsize⟩ := hnames
  obtain ⟨n, hn⟩ := List.getElem?_of_mem hmem
  intro hallows
  exact CancelToken.check_of_before (hmoments n 0) hrefuses
    (hallows n registry hn 0 hsize (Nat.zero_mod _))

end StopCheck

/-! ## All or nothing -/

/-- If an index has names then some shard has. -/
theorem Index.exists_registry_of_fingerprintCount {ix : Index} (h : 0 < ix.fingerprintCount) :
    ∃ registry ∈ ix.registries, 0 < registry.size := by
  by_contra hnone
  have hzero : ∀ s ∈ ix.shards, s.registry.size = 0 := by
    intro s hs
    by_contra hsize
    exact hnone ⟨s.registry, List.mem_map_of_mem hs, Nat.pos_of_ne_zero hsize⟩
  have hfold (shards : List Shard) (hshards : ∀ s ∈ shards, s.registry.size = 0) :
      shards.foldl (fun n s => n + s.registry.size) 0 = 0 := by
    induction shards with
    | nil => rfl
    | cons s rest ih =>
      rw [List.foldl_cons, hshards s List.mem_cons_self]
      exact ih fun s hs => hshards s (List.mem_cons_of_mem _ hs)
  exact absurd (hfold _ hzero) (Nat.pos_iff_ne_zero.1 h)

namespace Chronicle

variable {hash : NameHash} {count : Nat} {c : Chronicle} {runs columns : List RunId}
  {q : BoundQuery} {p : Plan}

/-- Whatever the shards are told and when, a plan over columns that it knows answers the rows that it
answers if nothing stops it, or it is cancelled; the latter just if some shard is refused at a
position at which it asks. So it is when the shards are scanned one after the other and when they are
scanned side by side. A token that refuses at the start still does so later, and so the plan is
cancelled if any name is registered. -/
theorem cancellation_of_execution {calls : List IndexCall} (h : replay hash count calls = .ok c)
    (hbind : c.index.bind runs (some q) = .ok p)
    (hcolumns : ∀ id ∈ columns, id ∈ runs ∨ q.SpeaksOf id) (options : RowOptions)
    (later : List IndexCall) :
    let ix := (c.afterAll later).index
    ∃ rows, ix.execute p columns options = .ok rows ∧
      (∀ check, Plan.FanIn (p.scans ix.registries columns options check)
        (ix.executeWith p columns options check)) ∧
      (∀ check outcome, Plan.FanIn (p.scans ix.registries columns options check) outcome →
        (check.Allows ix.registries → outcome = .ok rows) ∧
          (¬ check.Allows ix.registries → ∃ cause, outcome = .error (.cancelled cause))) ∧
      ∀ (t : CancelToken) (start : Moment) (moments : Nat → Nat → Moment),
        (∀ shard position, start.Before (moments shard position)) →
        t.check start.flags start.now ≠ .ok () → 0 < ix.fingerprintCount →
          ∀ outcome,
            Plan.FanIn (p.scans ix.registries columns options (.listening t moments)) outcome →
              ∃ cause, outcome = .error (.cancelled cause) := by
  intro ix
  have hc := replay_consistent h
  have hsubset : columns ⊆ runs ++ q.runIds := fun id hid => by
    rw [List.mem_append, BoundQuery.mem_runIds_iff_speaksOf]
    exact hcolumns id hid
  have hlength : p.shards.length = ix.registries.length := by
    obtain ⟨-, -, hparts⟩ := Index.bind_eq_ok hbind
    rw [← hparts.length_eq, hc.length_eq, Index.registries, List.length_map,
      (hc.afterAll later).length_eq]
  obtain ⟨rows, hrows⟩ : ∃ rows, ix.execute p columns options = .ok rows :=
    hc.execute_isOk hbind hsubset ix.registries
  have hcases check outcome
      (hfanIn : Plan.FanIn (p.scans ix.registries columns options check) outcome) :=
    Plan.fanIn_cases (fun part => hc.mapM_resultsOf_isOk hbind hsubset) hlength hrows hfanIn
  refine ⟨rows, hrows, fun check => p.fanIn_executeWith _ columns options check, hcases, ?_⟩
  intro t start moments hmoments hrefuses hnames outcome hfanIn
  exact (hcases _ outcome hfanIn).2 <| StopCheck.not_allows_listening hmoments hrefuses
    (Index.exists_registry_of_fingerprintCount hnames)

/-- The one test is in the first shard and the other in the second. A token is cancelled after the
first shard has been scanned; another has a deadline that has passed before. -/
theorem cancellation_between_scans :
    let report : Report := ⟨[⟨"/a.html", .ok, none, []⟩, ⟨"/b.html", .fail, none, []⟩], .null⟩
    let run : Run := { Run.blank with id := 1 }
    let token : CancelToken := .new 0
    let between (shard _ : Nat) : Moment :=
      ⟨shard, if shard = 0 then .none else token.cancel .none⟩
    let expired : CancelToken := token.withDeadline 5
    let later (shard _ : Nat) : Moment := ⟨5 + shard, .none⟩
    ∃ c p rows cause cause', replay Hash.hashText 2 [.ingest run (.ok report)] = .ok c ∧
      c.index.bind [1] (some (.const true)) = .ok p ∧ c.index.execute p [1] .standard = .ok rows ∧
      c.index.executeWith p [1] .standard (.listening token between) = .error (.cancelled cause) ∧
      c.index.executeWith p [1] .standard (.listening expired later) =
        .error (.cancelled cause') := by
  intro report run token between expired later
  let c : Chronicle := (start Hash.hashText 2).afterAll [.ingest run (.ok report)]
  have hreplay : replay Hash.hashText 2 [.ingest run (.ok report)] = .ok c :=
    replay_eq_ok_iff.2 ⟨by decide, rfl⟩
  have hres : ∀ id ∈ [1] ++ BoundQuery.runIds (.const true), c.index.resident.contains id = true := by
    decide +kernel
  have hsize : c.index.registries[1]?.map Registry.size = some 1 := by decide +kernel
  have hnames : 0 < c.index.fingerprintCount := by decide +kernel
  clear_value c
  obtain ⟨p, hp⟩ := (replay_consistent hreplay).inStep.bind_isOk (by decide) hres
  obtain ⟨rows, hrows, hfanIn, hcases, hrefused⟩ :=
    cancellation_of_execution hreplay hp (fun id hid => .inl hid) .standard []
  have hstopped : ¬ (StopCheck.listening token between).Allows c.index.registries := by
    intro hallows
    obtain ⟨registry, hregistry, hone⟩ := Option.map_eq_some_iff.1 hsize
    cases hallows 1 registry hregistry 0 (by omega) rfl
  obtain ⟨cause, hcause⟩ := (hcases _ _ (hfanIn _)).2 hstopped
  obtain ⟨cause', hcause'⟩ := hrefused expired ⟨5, .none⟩ later
    (fun shard _ => ⟨Nat.le_add_right 5 shard, fun _ => id⟩) (by decide) hnames _ (hfanIn _)
  exact ⟨c, p, rows, cause, cause', hreplay, hp, hrows, hcause, hcause'⟩

end Chronicle

end ResultSearch
