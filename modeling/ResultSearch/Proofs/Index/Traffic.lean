import Mathlib.Data.List.Perm.Basic
import ResultSearch.Proofs.Index.Invariant

/-!
# Ingestions that overlap

Many ingestions are under way at once. Each marks its run, waits for the report, and then ends in one
go: it publishes the results, tells the listeners and takes the mark away. It may also be dropped for
as long as it waits. Between any two of these steps come others, as well as evictions and binds.

* `Traffic`, `step`, `play`: an index with the ingestions that were started on it, step by step.
* `Marked`: the marks are those of the waiting ingestions.
* `Change`, `change_of_step`: what a step can do.
-/

namespace ResultSearch

/-! ## Ingestions step by step -/

/-- How far an ingestion has come. -/
inductive IngestPhase where
  /-- Waiting for the report. -/
  | loading
  /-- The report is there or has failed, and the ingestion has yet to go on. -/
  | loaded (loaded : Loaded)
  | ended (outcome : Except Error Unit)
  /-- Dropped before it could end. -/
  | dropped

/-- An ingestion that was started. -/
structure Ingestion where
  run : Run
  phase : IngestPhase

namespace Ingestion

/-- The run that the ingestion waits for. -/
def load? : Ingestion → Option RunId
  | ⟨run, .loading⟩ => some run.id
  | ⟨run, .loaded _⟩ => some run.id
  | ⟨_, .ended _⟩ => none
  | ⟨_, .dropped⟩ => none

/-- The run that the ingestion has made resident. -/
def success? : Ingestion → Option RunId
  | ⟨run, .ended (.ok ())⟩ => some run.id
  | _ => none

end Ingestion

/-- An index, the ingestions in the order in which they were started, what binds came to, and what
the listeners were told, each from the first on. -/
structure Traffic where
  index : Index
  ingestions : List Ingestion
  plans : List (Except Error Plan)
  told : List IndexEvent

/-- What happens between two waits. Ingestions go by their position. -/
inductive TrafficStep where
  | start (run : Run)
  | arrive (ingestion : Nat) (loaded : Loaded)
  | finish (ingestion : Nat)
  | drop (ingestion : Nat)
  | evict (fraction : Float)
  | evictAny
  | bind (ids : List RunId) (query : Option BoundQuery)

namespace Traffic

/-- Take over what evicting came to, and tell the listeners if runs are gone. -/
def evicted (t : Traffic) : Except Error (List RunId) × Index → Traffic
  | (.ok (id :: rest), index) => { t with index, told := t.told ++ [.evicted (id :: rest)] }
  | (.ok [], index) => { t with index }
  | (.error _, index) => { t with index }

/-- One step, if the ingestion that it is about is there for it. -/
def step (t : Traffic) : TrafficStep → Option Traffic
  | .start run =>
    match t.index.begin run with
    | .error e => some { t with ingestions := t.ingestions ++ [⟨run, .ended (.error e)⟩] }
    | .ok index => some { t with index, ingestions := t.ingestions ++ [⟨run, .loading⟩] }
  | .arrive i loaded =>
    match t.ingestions[i]? with
    | some ⟨run, .loading⟩ =>
      some { t with ingestions := t.ingestions.set i ⟨run, .loaded loaded⟩ }
    | _ => none
  | .finish i =>
    match t.ingestions[i]? with
    | some ⟨run, .loaded loaded⟩ =>
      match t.index.deliver run loaded with
      | (.ok (), index) => some { t with
          index, ingestions := t.ingestions.set i ⟨run, .ended (.ok ())⟩
          told := t.told ++ [.ingested run.id] }
      | (.error e, index) =>
        some { t with index, ingestions := t.ingestions.set i ⟨run, .ended (.error e)⟩ }
    | _ => none
  | .drop i =>
    match t.ingestions[i]? with
    | some ⟨run, .loading⟩ => some { t with
        index := t.index.abandon run.id, ingestions := t.ingestions.set i ⟨run, .dropped⟩ }
    | some ⟨run, .loaded _⟩ => some { t with
        index := t.index.abandon run.id, ingestions := t.ingestions.set i ⟨run, .dropped⟩ }
    | _ => none
  | .evict fraction => some (t.evicted (t.index.evict fraction))
  | .evictAny => some (t.evicted t.index.evictAny)
  | .bind ids query => some { t with plans := t.plans ++ [t.index.bind ids query] }

/-- A new index with some shards after some steps, if each can be taken where it comes. -/
def play (hash : NameHash) (shards : Nat) (steps : List TrafficStep) : Option Traffic :=
  match Index.create hash shards with
  | .error _ => none
  | .ok index => steps.foldlM step ⟨index, [], [], []⟩

/-- The runs that ingestions wait for, one for each of them. -/
def loads (t : Traffic) : List RunId := t.ingestions.filterMap Ingestion.load?

/-- The runs that ingestions have made resident, one for each of them. -/
def successes (t : Traffic) : List RunId := t.ingestions.filterMap Ingestion.success?

end Traffic

/-! ## The index between the steps -/

namespace Index

variable {ix : Index}

theorem contains_withRun {run : Run} {staged : Staged} {id : RunId} :
    (ix.withRun run staged).resident.contains id = true ↔
      id = run.id ∨ ix.resident.contains id = true := by
  rw [Table.contains, Index.get?_resident_withRun]
  by_cases h : id = run.id <;> simp [h, Table.contains]

theorem contains_withoutRuns {ids : List RunId} {id : RunId} :
    (ix.withoutRuns ids).resident.contains id = true ↔
      ix.resident.contains id = true ∧ id ∉ ids := by
  rw [Table.contains, Index.get?_resident_withoutRuns]
  by_cases h : id ∈ ids <;> simp [h, Table.contains]

/-- What becomes of an ingestion that starts is decided by what is resident first, and then by the
marks. -/
theorem begin_of_not_nil {run : Run} (h : run.isNil = false) :
    ix.begin run =
      if ix.resident.contains run.id = true then .error (.runExists run.id)
      else if run.id ∈ ix.inFlight then .error (.runLoading run.id)
      else .ok { ix with inFlight := run.id :: ix.inFlight } := by
  simp only [begin, h, List.contains_iff_mem]
  rfl

theorem begin_eq_ok {begun : Index} {run : Run} (h : ix.begin run = .ok begun) :
    ix.resident.contains run.id = false ∧ run.id ∉ ix.inFlight := by
  have hrun : run.isNil = false := by
    by_contra hnil
    rw [begin, if_pos (by simpa using hnil)] at h
    cases h
  rw [begin_of_not_nil hrun] at h
  split at h
  · cases h
  · next hres =>
    split at h
    · cases h
    · next hmark => exact ⟨Bool.eq_false_iff.2 hres, hmark⟩

end Index

namespace Traffic

/-! ## Marks -/

/-- The marks of an index are those of the ingestions that wait, each for a run of its own that is
not resident. -/
structure Marked (ix : Index) (loads : List RunId) : Prop where
  mem_inFlight_iff : ∀ id, id ∈ ix.inFlight ↔ id ∈ loads
  nodup : loads.Nodup
  absent : ∀ id ∈ loads, ix.resident.contains id = false

namespace Marked

variable {ix : Index} {loads before after : List RunId} {id : RunId}

theorem enter (h : Marked ix loads) (hres : ix.resident.contains id = false)
    (hmark : id ∉ ix.inFlight) :
    Marked { ix with inFlight := id :: ix.inFlight } (loads ++ [id]) where
  mem_inFlight_iff x := by
    rw [List.mem_cons, h.mem_inFlight_iff, List.mem_append, List.mem_singleton, or_comm]
  nodup := List.nodup_append_comm.1
    (List.nodup_cons.2 ⟨fun hid => hmark ((h.mem_inFlight_iff id).2 hid), h.nodup⟩)
  absent x hx := by
    rcases List.mem_append.1 hx with hx | hx
    · exact h.absent x hx
    · exact List.mem_singleton.1 hx ▸ hres

theorem leave (h : Marked ix (before ++ id :: after)) :
    Marked (ix.abandon id) (before ++ after) := by
  obtain ⟨hid, hnodup⟩ := List.nodup_cons.1 (List.nodup_middle.1 h.nodup)
  refine ⟨fun x => ?_, hnodup, fun x hx => h.absent x ?_⟩
  · have hmem : x ∈ before ++ id :: after ↔ x = id ∨ x ∈ before ++ after := by
      rw [List.perm_middle.mem_iff, List.mem_cons]
    rw [Index.abandon, List.mem_filter, h.mem_inFlight_iff, hmem, decide_eq_true_iff]
    constructor
    · rintro ⟨hx | hx, hne⟩
      · exact absurd hx hne
      · exact hx
    · intro hx
      exact ⟨.inr hx, fun heq => hid (heq ▸ hx)⟩
  · exact List.perm_middle.mem_iff.2 (List.mem_cons_of_mem _ hx)

theorem withRun (h : Marked ix loads) {run : Run} (hrun : run.id ∉ loads) (staged : Staged) :
    Marked (ix.withRun run staged) loads where
  mem_inFlight_iff := h.mem_inFlight_iff
  nodup := h.nodup
  absent x hx := by
    rw [Bool.eq_false_iff, Ne, Index.contains_withRun, h.absent x hx]
    rintro (rfl | hfalse)
    · exact hrun hx
    · cases hfalse

theorem withoutRuns (h : Marked ix loads) (ids : List RunId) :
    Marked (ix.withoutRuns ids) loads where
  mem_inFlight_iff := h.mem_inFlight_iff
  nodup := h.nodup
  absent x hx := by
    rw [Bool.eq_false_iff, Ne, Index.contains_withoutRuns, h.absent x hx]
    exact fun hfalse => Bool.noConfusion hfalse.1

end Marked

/-! ## What a step can do -/

/-- What one step can do: refuse an ingestion or begin it, let a report arrive, publish, let an
ingestion go without a publication, evict, or nothing that the index would show. -/
inductive Change (t : Traffic) : Traffic → Prop
  | refused (run : Run) (e : Error) :
      Change t { t with ingestions := t.ingestions ++ [⟨run, .ended (.error e)⟩] }
  | begun {run : Run} : t.index.resident.contains run.id = false → run.id ∉ t.index.inFlight →
      Change t { t with
        index := { t.index with inFlight := run.id :: t.index.inFlight }
        ingestions := t.ingestions ++ [⟨run, .loading⟩] }
  | arrived {before after : List Ingestion} {run : Run} (loaded : Loaded) :
      t.ingestions = before ++ ⟨run, .loading⟩ :: after →
      Change t { t with ingestions := before ++ ⟨run, .loaded loaded⟩ :: after }
  | published {before after : List Ingestion} {run : Run} {loaded : Loaded} (staged : Staged) :
      t.ingestions = before ++ ⟨run, .loaded loaded⟩ :: after →
      Change t { t with
        index := (t.index.withRun run staged).abandon run.id
        ingestions := before ++ ⟨run, .ended (.ok ())⟩ :: after
        told := t.told ++ [.ingested run.id] }
  | left {before after : List Ingestion} {i j : Ingestion} :
      t.ingestions = before ++ i :: after → i.load? = some i.run.id → j.load? = none →
      j.success? = none →
      Change t { t with
        index := t.index.abandon i.run.id, ingestions := before ++ j :: after }
  | evicted {ids : List RunId} : ids.Nodup → (∀ id ∈ ids, t.index.resident.contains id = true) →
      Change t { t with
        index := t.index.withoutRuns ids, told := t.told ++ [.evicted ids] }
  | kept (plans : List (Except Error Plan)) : Change t { t with plans }

end Traffic

namespace Chronicle.InStep

variable {ix : Index}

/-- The end of an ingestion of a run that is not resident publishes it, or fails with what the load
or the report has failed with. -/
theorem deliver_cases (h : InStep ix) {run : Run} (hres : ix.resident.contains run.id = false)
    (loaded : Loaded) :
    (∃ e, loaded.bind (Staged.stage ix.hash) = .error e ∧
        ix.deliver run loaded = (.error e, ix.abandon run.id)) ∨
      ∃ staged, loaded.bind (Staged.stage ix.hash) = .ok staged ∧
        ix.deliver run loaded = (.ok (), (ix.withRun run staged).abandon run.id) := by
  cases loaded with
  | error e => exact .inl ⟨e, rfl, rfl⟩
  | ok report =>
    simp only [Index.deliver, Except.bind]
    cases Staged.stage ix.hash report with
    | error e => exact .inl ⟨e, rfl, rfl⟩
    | ok staged =>
      simp only [h.store_eq hres staged]
      exact .inr ⟨staged, rfl, rfl⟩

end Chronicle.InStep

namespace Traffic

variable {t t' : Traffic}

/-- What an eviction of the oldest runs comes to. -/
theorem change_evictOldest (h : Chronicle.InStep t.index) (count : Nat) :
    Change t (t.evicted (t.index.evictOldest count)) := by
  have hchange : Change t { t with
      index := t.index.withoutRuns (t.index.oldest count)
      told := t.told ++ [.evicted (t.index.oldest count)] } :=
    .evicted (h.oldest_nodup count) fun id hid => h.contains_of_mem_oldest hid
  rw [h.evictOldest_eq]
  cases hids : t.index.oldest count with
  | nil =>
    rw [evicted, Index.withoutRuns_nil]
    exact .kept t.plans
  | cons id rest =>
    rw [hids] at hchange
    exact hchange

/-- One ingestion and those around it. -/
theorem exists_split {ingestions : List Ingestion} {i : Nat} {x : Ingestion}
    (h : ingestions[i]? = some x) : ∃ before after, ingestions = before ++ x :: after ∧
      ∀ y, ingestions.set i y = before ++ y :: after := by
  obtain ⟨hi, rfl⟩ := List.getElem?_eq_some_iff.1 h
  refine ⟨ingestions.take i, ingestions.drop (i + 1), ?_, fun y => ?_⟩
  · rw [List.getElem_cons_drop, List.take_append_drop]
  · exact List.set_eq_take_append_cons_drop.trans (if_pos hi)

/-- Each step is one of the changes. -/
theorem change_of_step (hstep : Chronicle.InStep t.index) (hmarked : Marked t.index t.loads)
    {s : TrafficStep} (h : t.step s = some t') : Change t t' := by
  cases s with
  | start run =>
    rw [step] at h
    split at h
    · next e _ => exact Option.some.inj h ▸ .refused run e
    · next index hbegin =>
      obtain ⟨hres, hmark⟩ := Index.begin_eq_ok hbegin
      obtain rfl := Chronicle.begin_eq hbegin
      exact Option.some.inj h ▸ .begun hres hmark
  | arrive i loaded =>
    rw [step] at h
    split at h
    · next run hi =>
      obtain ⟨before, after, hsplit, hset⟩ := exists_split hi
      rw [hset] at h
      exact Option.some.inj h ▸ .arrived loaded hsplit
    · cases h
  | finish i =>
    rw [step] at h
    split at h
    · next run loaded hi =>
      obtain ⟨before, after, hsplit, hset⟩ := exists_split hi
      -- The mark has kept every other ingestion of the run out, so that it cannot be resident.
      have hres : t.index.resident.contains run.id = false := by
        apply hmarked.absent
        exact List.mem_filterMap.2 ⟨_, List.mem_of_getElem? hi, rfl⟩
      rcases hstep.deliver_cases hres loaded with
        ⟨e, -, hdeliver⟩ | ⟨staged, -, hdeliver⟩
      · simp only [hdeliver, hset] at h
        exact Option.some.inj h ▸ .left hsplit rfl rfl rfl
      · simp only [hdeliver, hset] at h
        exact Option.some.inj h ▸ .published staged hsplit
    · cases h
  | drop i =>
    rw [step] at h
    split at h
    · next run hi =>
      obtain ⟨before, after, hsplit, hset⟩ := exists_split hi
      rw [hset] at h
      exact Option.some.inj h ▸ .left hsplit rfl rfl rfl
    · next run loaded hi =>
      obtain ⟨before, after, hsplit, hset⟩ := exists_split hi
      rw [hset] at h
      exact Option.some.inj h ▸ .left hsplit rfl rfl rfl
    · cases h
  | evict fraction =>
    refine Option.some.inj h ▸ ?_
    unfold Index.evict
    split
    · exact .kept t.plans
    · exact change_evictOldest hstep _
  | evictAny =>
    refine Option.some.inj h ▸ ?_
    unfold Index.evictAny
    split
    · exact .kept t.plans
    · exact change_evictOldest hstep 1
  | bind ids query => exact Option.some.inj h ▸ .kept _

end Traffic

end ResultSearch
