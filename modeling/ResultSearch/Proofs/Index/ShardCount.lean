import ResultSearch.Proofs.Index.Invariant

/-!
# Other numbers of shards

How many shards an index has shows in nothing but its shards: the same calls make the same runs
resident, refuse the same ingestions, evict the same runs and publish the same reports.

* `Alike`: indexes that differ in nothing but their shards.
* `alike_after`: a call does the same to both.
* `exists_replay_alike`: some calls can be replayed with another number of shards.
-/

namespace ResultSearch.Chronicle

/-- Two indexes that differ in nothing but their shards. -/
structure Alike (ix ix' : Index) : Prop where
  hash_eq : ix.hash = ix'.hash
  resident_eq : ix.resident = ix'.resident
  inFlight_eq : ix.inFlight = ix'.inFlight

namespace Alike

variable {ix ix' : Index}

theorem evictOldest (h : Alike ix ix') (hix : InStep ix) (hix' : InStep ix') (count : Nat) :
    Alike (ix.evictOldest count).2 (ix'.evictOldest count).2 := by
  have holdest : ix.oldest count = ix'.oldest count := by
    rw [Index.oldest, Index.oldest, h.resident_eq]
  rw [hix.evictOldest_eq, hix'.evictOldest_eq, holdest]
  exact ⟨h.hash_eq, congrArg ((ix'.oldest count).foldl Table.erase) h.resident_eq, h.inFlight_eq⟩

theorem abandon (h : Alike ix ix') (id : RunId) : Alike (ix.abandon id) (ix'.abandon id) :=
  ⟨h.hash_eq, h.resident_eq, congrArg (List.filter (· ≠ id)) h.inFlight_eq⟩

/-- The end of an ingestion comes to the same. -/
theorem deliver (h : Alike ix ix') (hix : InStep ix) (hix' : InStep ix') (run : Run)
    (loaded : Loaded) : (ix.deliver run loaded).1 = (ix'.deliver run loaded).1 ∧
      Alike (ix.deliver run loaded).2 (ix'.deliver run loaded).2 := by
  cases loaded with
  | error e => exact ⟨rfl, h.abandon run.id⟩
  | ok report =>
    rw [Index.deliver, Index.deliver]
    dsimp only
    rw [← h.hash_eq]
    cases Staged.stage ix.hash report with
    | error e => exact ⟨rfl, h.abandon run.id⟩
    | ok staged =>
      dsimp only
      cases hres : ix.resident.contains run.id with
      | true =>
        have hres' : ix'.resident.contains run.id = true := h.resident_eq ▸ hres
        rw [Index.store, Index.store, if_pos hres, if_pos hres']
        exact ⟨rfl, h.abandon run.id⟩
      | false =>
        have hres' : ix'.resident.contains run.id = false := h.resident_eq ▸ hres
        rw [hix.store_eq hres, hix'.store_eq hres']
        exact ⟨rfl, h.hash_eq, congrArg (Table.set · run.id run) h.resident_eq,
          congrArg (List.filter (· ≠ run.id)) h.inFlight_eq⟩

theorem begin (h : Alike ix ix') (run : Run) :
    (∃ e, ix.begin run = .error e ∧ ix'.begin run = .error e) ∨
      ∃ ids, ix.begin run = .ok { ix with inFlight := ids } ∧
        ix'.begin run = .ok { ix' with inFlight := ids } := by
  rw [Index.begin, Index.begin, ← h.resident_eq, ← h.inFlight_eq]
  split
  · exact .inl ⟨_, rfl, rfl⟩
  · split
    · exact .inl ⟨_, rfl, rfl⟩
    · split
      · exact .inl ⟨_, rfl, rfl⟩
      · exact .inr ⟨_, rfl, rfl⟩

end Alike

variable {c d : Chronicle}

theorem alike_note {run : Run} {loaded : Loaded} {o o' : Except Error Unit × Index}
    (hpublished : c.published = d.published) (h1 : o.1 = o'.1) (h2 : Alike o.2 o'.2) :
    Alike (c.note run loaded o).index (d.note run loaded o').index ∧
      (c.note run loaded o).published = (d.note run loaded o').published := by
  refine ⟨h2, ?_⟩
  simp only [note, h1, hpublished]

/-- A call does the same to the resident runs and to what is published, however many shards there
are. -/
theorem alike_after (hc : InStep c.index) (hd : InStep d.index) (h : Alike c.index d.index)
    (hpublished : c.published = d.published) (call : IndexCall) :
    Alike (c.after call).index (d.after call).index ∧
      (c.after call).published = (d.after call).published := by
  cases call with
  | ingest run loaded =>
    rw [after, after, Index.ingest, Index.ingest]
    rcases h.begin run with ⟨e, he, he'⟩ | ⟨ids, he, he'⟩
    · rw [he, he']
      exact alike_note hpublished rfl h
    · rw [he, he']
      have hids : Alike { c.index with inFlight := ids } { d.index with inFlight := ids } :=
        ⟨h.hash_eq, h.resident_eq, rfl⟩
      obtain ⟨h1, h2⟩ := hids.deliver ⟨hc.stores, hc.ids⟩ ⟨hd.stores, hd.ids⟩ run loaded
      exact alike_note hpublished h1 h2
  | begin run =>
    rw [after, after]
    rcases h.begin run with ⟨e, he, he'⟩ | ⟨ids, he, he'⟩
    · rw [he, he']
      exact ⟨h, hpublished⟩
    · rw [he, he']
      exact ⟨⟨h.hash_eq, h.resident_eq, rfl⟩, hpublished⟩
  | deliver run loaded =>
    rw [after, after, ← h.inFlight_eq]
    split
    · obtain ⟨h1, h2⟩ := h.deliver hc hd run loaded
      exact alike_note hpublished h1 h2
    · exact ⟨h, hpublished⟩
  | abandon id => exact ⟨h.abandon id, hpublished⟩
  | evict fraction =>
    refine ⟨?_, hpublished⟩
    rw [after, after]
    dsimp only
    have hempty : c.index.isEmpty = d.index.isEmpty := congrArg Table.isEmpty h.resident_eq
    have hsize : c.index.size = d.index.size := congrArg Table.size h.resident_eq
    rw [Index.evict, Index.evict, ← hempty, ← hsize]
    split
    · exact h
    · exact h.evictOldest hc hd _
  | evictAny =>
    refine ⟨?_, hpublished⟩
    rw [after, after]
    dsimp only
    have hempty : c.index.isEmpty = d.index.isEmpty := congrArg Table.isEmpty h.resident_eq
    rw [Index.evictAny, Index.evictAny, ← hempty]
    split
    · exact h
    · exact h.evictOldest hc hd 1

theorem alike_afterAll {hash : NameHash} {count other : Nat} (hc : Consistent hash count c)
    (hd : Consistent hash other d) (h : Alike c.index d.index)
    (hpublished : c.published = d.published) (calls : List IndexCall) : Alike (c.afterAll calls).index (d.afterAll calls).index ∧
      (c.afterAll calls).published = (d.afterAll calls).published := by
  induction calls generalizing c d with
  | nil => exact ⟨h, hpublished⟩
  | cons call rest ih =>
    obtain ⟨halike, hpublished⟩ := alike_after hc.inStep hd.inStep h hpublished call
    exact ih (hc.after call) (hd.after call) halike hpublished

/-- The same calls on any other number of shards leave the same runs and reports. -/
theorem exists_replay_alike {hash : NameHash} {count other : Nat} {calls : List IndexCall}
    (h : replay hash count calls = .ok c) (hother : 0 < other) :
    ∃ d, replay hash other calls = .ok d ∧ Alike c.index d.index ∧ c.published = d.published := by
  obtain ⟨hcount, rfl⟩ := replay_eq_ok_iff.1 h
  refine ⟨(start hash other).afterAll calls, replay_eq_ok_iff.2 ⟨hother, rfl⟩, ?_⟩
  exact alike_afterAll (consistent_start hcount) (consistent_start hother) ⟨rfl, rfl, rfl⟩ rfl calls

end ResultSearch.Chronicle
