import ResultSearch.Proofs.Index.Shards
import ResultSearch.Proofs.Index.Staging

/-!
# Histories of an index

An index starts empty and is then called, in any order and with any outcomes: whole ingestions, the
two ends of ingestions that others come between, and evictions. A chronicle goes along with it, and
keeps what was ever published. What an index may do next depends on its shards; what it should hold
is said of the chronicle, which knows of no shard and no fingerprint.

* `replay`: the index and its chronicle after some calls.
* `Move`, `move_after`: what a call can do.
* `names`: all tests and subtests that were ever published.
* `latest`: the last publication of a run.
-/

namespace ResultSearch

/-- A run with the report that was loaded for it. -/
structure Publication where
  run : Run
  report : Report

/-- What may be asked of an index. The end of an ingestion comes after its start, with anything in
between. -/
inductive IndexCall where
  | ingest (run : Run) (loaded : Loaded)
  | begin (run : Run)
  | deliver (run : Run) (loaded : Loaded)
  | abandon (run : RunId)
  | evict (fraction : Float)
  | evictAny

/-- An index and what was published to it, the last publication first. -/
structure Chronicle where
  index : Index
  published : List Publication

namespace Chronicle

/-- Note what the end of an ingestion came to; only a success is a publication. -/
def note (c : Chronicle) (run : Run) (loaded : Loaded) (outcome : Except Error Unit × Index) :
    Chronicle where
  index := outcome.2
  published :=
    match loaded, outcome.1 with
    | .ok report, .ok () => ⟨run, report⟩ :: c.published
    | _, _ => c.published

/-- The chronicle after one more call. -/
def after (c : Chronicle) : IndexCall → Chronicle
  | .ingest run loaded => c.note run loaded (c.index.ingest (fun _ => loaded) run)
  | .begin run =>
    match c.index.begin run with
    | .ok ix => { c with index := ix }
    | .error _ => c
  | .deliver run loaded =>
    if c.index.inFlight.contains run.id then c.note run loaded (c.index.deliver run loaded) else c
  | .abandon id => { c with index := c.index.abandon id }
  | .evict fraction => { c with index := (c.index.evict fraction).2 }
  | .evictAny => { c with index := c.index.evictAny.2 }

/-- The chronicle after some calls. -/
def afterAll (c : Chronicle) (calls : List IndexCall) : Chronicle := calls.foldl after c

/-- An empty index with some shards, before anything is published. -/
def start (hash : NameHash) (shards : Nat) : Chronicle :=
  ⟨⟨hash, List.replicate shards .empty, Table.empty, []⟩, []⟩

/-- A new index with some shards after some calls. -/
def replay (hash : NameHash) (shards : Nat) (calls : List IndexCall) : Except Error Chronicle :=
  (fun ix => afterAll ⟨ix, []⟩ calls) <$> Index.create hash shards

/-- The tests and subtests that were ever published, also by runs that are gone. -/
def names (c : Chronicle) : List TestName := c.published.flatMap fun p => p.report.names

/-- The last publication of a run. -/
def latest (c : Chronicle) (id : RunId) : Option Publication :=
  c.published.find? fun p => p.run.id = id

variable {c : Chronicle}

/-- Only without shards there is nothing to replay on. -/
theorem replay_eq_ok_iff {hash : NameHash} {shards : Nat} {calls : List IndexCall} :
    replay hash shards calls = .ok c ↔ 0 < shards ∧ (start hash shards).afterAll calls = c := by
  rw [replay, Outcome.map_eq_ok_iff]
  constructor
  · rintro ⟨ix, hix, rfl⟩
    unfold Index.create at hix
    split at hix
    · cases hix
    · next hshards =>
      obtain rfl := Except.ok.inj hix
      exact ⟨Nat.pos_of_ne_zero hshards, rfl⟩
  · rintro ⟨hshards, rfl⟩
    exact ⟨_, if_neg (Nat.pos_iff_ne_zero.1 hshards), rfl⟩

theorem mem_names_iff {n : TestName} : n ∈ c.names ↔ ∃ p ∈ c.published, n ∈ p.report.names :=
  List.mem_flatMap

theorem mem_of_latest {id : RunId} {p : Publication} (h : c.latest id = some p) :
    p ∈ c.published ∧ p.run.id = id :=
  ⟨List.mem_of_find?_eq_some h, by simpa using List.find?_some h⟩

/-- What is published is the last publication of its run. -/
theorem latest_ingest {run : Run} {report : Report}
    (h : (c.index.ingest (fun _ => .ok report) run).1 = .ok ()) :
    (c.after (.ingest run (.ok report))).latest run.id = some ⟨run, report⟩ := by
  simp [after, note, h, latest]

/-- With a subtest its test was published. -/
theorem testLevel_mem_names {n : TestName} (h : n ∈ c.names) :
    (⟨n.test, none⟩ : TestName) ∈ c.names := by
  obtain ⟨p, hp, hn⟩ := mem_names_iff.1 h
  exact mem_names_iff.2 ⟨p, hp, Report.testLevel_mem_names hn⟩

theorem plain_of_mem_names {n : TestName} (h : n ∈ c.names) : n.plain = n := by
  obtain ⟨p, -, hn⟩ := mem_names_iff.1 h
  exact Report.plain_of_mem_names hn

/-! ## What a call can do -/

/-- What one call can do to a chronicle: move marks, publish a run that is not resident, or take
resident runs away. -/
inductive Move (c : Chronicle) : Chronicle → Prop
  | mark (ids : List RunId) : Move c { c with index := { c.index with inFlight := ids } }
  | publish {run : Run} {report : Report} {staged : Staged} (ids : List RunId) :
      c.index.resident.contains run.id = false → Staged.stage c.index.hash report = .ok staged →
      Move c ⟨{ c.index.withRun run staged with inFlight := ids }, ⟨run, report⟩ :: c.published⟩
  | evict {ids : List RunId} : (∀ id ∈ ids, c.index.resident.contains id = true) →
      Move c { c with index := c.index.withoutRuns ids }

/-- The stores of the shards hold the runs that are resident, each under its own id. -/
structure InStep (ix : Index) : Prop where
  stores : ∀ s ∈ ix.shards, ∀ id, s.store.contains id = ix.resident.contains id
  ids : ∀ id r, ix.resident.get? id = some r → r.id = id

namespace InStep

variable {ix : Index}

theorem store_eq (h : InStep ix) {run : Run} (hres : ix.resident.contains run.id = false)
    (staged : Staged) : ix.store run staged = (.ok (), ix.withRun run staged) :=
  Index.store_eq hres fun s hs => (h.stores s hs _).trans hres

theorem map_id_values (h : InStep ix) : ix.resident.values.map Run.id = ix.resident.keys := by
  rw [Table.values, Table.keys, List.map_map]
  refine List.map_congr_left fun e he => ?_
  exact h.ids _ _ (Table.get?_eq_some_iff.2 he)

/-- The oldest runs are some of the resident ones, each once. -/
theorem oldest_nodup (h : InStep ix) (count : Nat) : (ix.oldest count).Nodup := by
  have hperm := (List.mergeSort_perm ix.resident.values fun a b => !b.older a).map Run.id
  have hkeys : ((Run.oldestFirst ix.resident.values).map Run.id).Nodup :=
    hperm.nodup_iff.2 (by rw [h.map_id_values]; exact ix.resident.nodup)
  exact hkeys.sublist ((List.take_sublist _ _).map _)

theorem contains_of_mem_oldest (h : InStep ix) {count : Nat} {id : RunId}
    (hid : id ∈ ix.oldest count) : ix.resident.contains id = true := by
  obtain ⟨r, hr, rfl⟩ := List.mem_map.1 hid
  have hmem : r ∈ ix.resident.values := List.mem_mergeSort.1 (List.mem_of_mem_take hr)
  rw [Table.contains_iff_mem_keys, ← h.map_id_values]
  exact List.mem_map_of_mem hmem

/-- Evicting the oldest runs never fails. -/
theorem evictOldest_eq (h : InStep ix) (count : Nat) :
    ix.evictOldest count = (.ok (ix.oldest count), ix.withoutRuns (ix.oldest count)) :=
  Index.evictOldest_eq (h.oldest_nodup count) fun s hs id hid =>
    (h.stores s hs id).trans (h.contains_of_mem_oldest hid)

end InStep

theorem begin_eq {ix begun : Index} {run : Run} (h : ix.begin run = .ok begun) :
    begun = { ix with inFlight := run.id :: ix.inFlight } := by
  unfold Index.begin at h
  split at h
  · cases h
  · split at h
    · cases h
    · split at h
      · cases h
      · exact (Except.ok.inj h).symm

/-- The end of an ingestion is a publication, or only takes the mark away. -/
theorem move_note_deliver (h : InStep c.index) (ids : List RunId) (run : Run) (loaded : Loaded) :
    Move c (c.note run loaded (Index.deliver { c.index with inFlight := ids } run loaded)) := by
  have hstep : InStep { c.index with inFlight := ids } := ⟨h.stores, h.ids⟩
  cases loaded with
  | error e => exact Move.mark _
  | ok report =>
    unfold Index.deliver
    dsimp only
    cases hstage : Staged.stage c.index.hash report with
    | error e => exact Move.mark _
    | ok staged =>
      cases hres : c.index.resident.contains run.id with
      | true =>
        have hstore : Index.store { c.index with inFlight := ids } run staged =
            (.error (.runExists run.id), { c.index with inFlight := ids }) := by
          rw [Index.store, hres]
          rfl
        dsimp only
        rw [hstore]
        exact Move.mark _
      | false =>
        dsimp only
        rw [hstep.store_eq hres staged]
        exact Move.publish _ hres hstage

theorem move_evictOldest (h : InStep c.index) (count : Nat) :
    Move c { c with index := (c.index.evictOldest count).2 } := by
  rw [h.evictOldest_eq count]
  exact Move.evict fun id hid => h.contains_of_mem_oldest hid

/-- Every call is one of the moves, as long as the stores are in step with the resident runs. -/
theorem move_after (h : InStep c.index) (call : IndexCall) : Move c (c.after call) := by
  cases call with
  | ingest run loaded =>
    rw [after, Index.ingest]
    cases hbegin : c.index.begin run with
    | error e =>
      cases loaded <;> exact Move.mark c.index.inFlight
    | ok begun =>
      obtain rfl := begin_eq hbegin
      exact move_note_deliver h _ run loaded
  | begin run =>
    rw [after]
    split
    · next hbegin =>
      obtain rfl := begin_eq hbegin
      exact Move.mark _
    · exact Move.mark c.index.inFlight
  | deliver run loaded =>
    rw [after]
    split
    · exact move_note_deliver h c.index.inFlight run loaded
    · exact Move.mark c.index.inFlight
  | abandon id => exact Move.mark _
  | evict fraction =>
    rw [after, Index.evict]
    split
    · exact Move.mark c.index.inFlight
    · exact move_evictOldest h _
  | evictAny =>
    rw [after, Index.evictAny]
    split
    · exact Move.mark c.index.inFlight
    · exact move_evictOldest h 1

end Chronicle

end ResultSearch
