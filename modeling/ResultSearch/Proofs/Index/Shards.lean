import ResultSearch.Index.Eviction
import ResultSearch.Proofs.Table

/-!
# Writing to the shards

What publishing a run and purging runs do to a shard and to all of them, once nothing stands in the
way: the store of no shard holds the run that is published, and every store holds the runs that are
purged. Both pass over the shards with an early end at the first refusal, which then never comes.

* `Registry.get?_enroll`, `Registry.contains_enroll`, `Registry.forall_enroll`: a registry keeps the
  names it has, takes in what is new, and holds nothing else.
* `Shard.publish_eq`, `Shard.purge_eq`: one shard.
* `Index.publish_eq`, `Index.purge_eq`: all shards.
-/

namespace ResultSearch

namespace Registry

/-- The registry with the names of some results. -/
def enroll (r : Registry) (results : List (Fingerprint × StagedResult)) : Registry :=
  results.foldl (fun r e => r.insert e.1 e.2.name.test e.2.name.subtest) r

variable {r : Registry} {results : List (Fingerprint × StagedResult)} {f : Fingerprint}
  {n : TestName}

theorem get?_insert {g : Fingerprint} {test : String} {subtest : Option String}
    (h : r.get? f = some n) : (r.insert g test subtest).get? f = some n := by
  by_cases hg : r.names.contains g = true
  · rwa [insert_of_contains hg]
  · have hne : f ≠ g := by
      rintro rfl
      exact hg (Table.contains_iff_exists.2 ⟨n, h⟩)
    rw [insert, if_neg hg]
    exact (Table.get?_set_of_ne _ _ hne).trans h

/-- A name that is registered stays as it is. -/
theorem get?_enroll (h : r.get? f = some n) : (r.enroll results).get? f = some n := by
  induction results generalizing r with
  | nil => exact h
  | cons e rest ih => exact ih (get?_insert h)

theorem contains_insert {test : String} {subtest : Option String} :
    (r.insert f test subtest).names.contains f = true := by
  by_cases h : r.names.contains f = true
  · rwa [insert_of_contains h]
  · rw [insert, if_neg h]
    exact Table.contains_iff_exists.2 ⟨_, Table.get?_set_self ..⟩

theorem contains_enroll {e : Fingerprint × StagedResult} (he : e ∈ results) :
    (r.enroll results).names.contains e.1 = true := by
  induction results generalizing r with
  | nil => cases he
  | cons x rest ih =>
    rcases List.mem_cons.1 he with rfl | he
    · obtain ⟨n, hn⟩ : ∃ n, (r.insert e.1 e.2.name.test e.2.name.subtest).get? e.1 = some n :=
        Table.contains_iff_exists.1 contains_insert
      show ((r.insert e.1 e.2.name.test e.2.name.subtest).enroll rest).names.contains e.1 = true
      exact Table.contains_iff_exists.2 ⟨n, get?_enroll hn⟩
    · exact ih he

/-- What is true of the test names under their hashes and of the subtest names under their
fingerprints, both of those there and of those that come, is true of all. -/
theorem forall_enroll {P : UInt64 → String → Prop} {Q : Fingerprint → Option String → Prop}
    (hr : ∀ f n, r.get? f = some n → P f.test n.test ∧ Q f n.subtest)
    (hresults : ∀ e ∈ results,
      P e.1.test e.2.name.test ∧ Q e.1 (Fingerprint.subtestName? e.2.name.subtest)) :
    ∀ f n, (r.enroll results).get? f = some n → P f.test n.test ∧ Q f n.subtest := by
  induction results generalizing r with
  | nil => exact hr
  | cons e rest ih =>
    refine ih (r := r.insert e.1 e.2.name.test e.2.name.subtest) ?_
      fun e he => hresults e (List.mem_cons_of_mem _ he)
    intro f n hf
    obtain ⟨hP, hQ⟩ := hresults e List.mem_cons_self
    unfold insert at hf
    split at hf
    · exact hr f n hf
    · by_cases hfe : f = e.1
      · subst hfe
        obtain rfl := Option.some.inj ((Table.get?_set_self ..).symm.trans hf)
        refine ⟨?_, hQ⟩
        -- The test's own entry lends its name, which was recorded under the same hash.
        cases hparent : r.names.get? e.1.testLevel with
        | none => exact hP
        | some parent => exact (hr _ _ hparent).1
      · exact hr f n ((Table.get?_set_of_ne _ _ hfe).symm.trans hf)

end Registry

namespace Shard

/-- The shard with the results of a run. -/
def withRun (s : Shard) (id : RunId) (results : List (Fingerprint × StagedResult)) : Shard where
  registry := s.registry.enroll results
  store := ⟨s.store.runs.set id (RunResults.ofList (results.map fun e => (e.1, e.2.status)))⟩

/-- The shard without the results of some runs. -/
def withoutRuns (s : Shard) (ids : List RunId) : Shard :=
  { s with store := ⟨ids.foldl Table.erase s.store.runs⟩ }

variable {s : Shard} {id : RunId} {ids : List RunId}

theorem publish_eq {results : List (Fingerprint × StagedResult)}
    (h : s.store.contains id = false) : s.publish id results = (.ok (), s.withRun id results) := by
  rw [publish, ResultStore.add, h]
  rfl

theorem forRun_withRun {results : List (Fingerprint × StagedResult)} {x : RunId} :
    (s.withRun id results).store.forRun x =
      if x = id then some (RunResults.ofList (results.map fun e => (e.1, e.2.status)))
      else s.store.forRun x :=
  Table.get?_set

theorem forRun_withoutRuns {x : RunId} :
    (s.withoutRuns ids).store.forRun x = if x ∈ ids then none else s.store.forRun x :=
  Table.get?_foldl_erase

theorem purge_eq (hids : ids.Nodup) (h : ∀ id ∈ ids, s.store.contains id = true) :
    s.purge ids = (.ok (), s.withoutRuns ids) := by
  induction ids generalizing s with
  | nil => rfl
  | cons id rest ih =>
    rw [List.nodup_cons] at hids
    obtain ⟨results, hres⟩ := Table.contains_iff_exists.1 (h id List.mem_cons_self)
    have hrest : ∀ x ∈ rest,
        ({ s with store := ⟨s.store.runs.erase id⟩ } : Shard).store.contains x = true := by
      intro x hx
      have hne : x ≠ id := fun e => hids.1 (e ▸ hx)
      obtain ⟨y, hy⟩ := Table.contains_iff_exists.1 (h x (List.mem_cons_of_mem _ hx))
      exact Table.contains_iff_exists.2 ⟨y, (Table.get?_erase_of_ne _ hne).trans hy⟩
    rw [purge, ResultStore.remove, ResultStore.forRun, hres]
    exact ih hids.2 hrest

end Shard

namespace Index

theorem publish_eq {id : RunId} (staged : Staged) (count number : Nat) {shards : List Shard}
    (h : ∀ s ∈ shards, s.store.contains id = false) :
    publish id staged count number shards =
      (.ok (), shards.mapIdx fun i s => s.withRun id (staged.forShard count (number + i))) := by
  induction shards generalizing number with
  | nil => rfl
  | cons s rest ih =>
    have hrest := ih (number + 1) fun s hs => h s (List.mem_cons_of_mem _ hs)
    rw [publish, Shard.publish_eq (h s List.mem_cons_self), List.mapIdx_cons]
    simp only [hrest, Nat.add_zero, Nat.add_assoc, Nat.add_comm 1]

theorem purge_eq {ids : List RunId} {shards : List Shard} (hids : ids.Nodup)
    (h : ∀ s ∈ shards, ∀ id ∈ ids, s.store.contains id = true) :
    purge ids shards = (.ok (), shards.map fun s => s.withoutRuns ids) := by
  induction shards with
  | nil => rfl
  | cons s rest ih =>
    rw [purge, Shard.purge_eq hids (h s List.mem_cons_self),
      ih fun s hs => h s (List.mem_cons_of_mem _ hs)]
    rfl

/-- The index with a run and its results. -/
def withRun (ix : Index) (r : Run) (staged : Staged) : Index :=
  { ix with
    shards := ix.shards.mapIdx fun i s => s.withRun r.id (staged.forShard ix.shardCount i)
    resident := ix.resident.set r.id r }

/-- The index without some runs. -/
def withoutRuns (ix : Index) (ids : List RunId) : Index :=
  { ix with
    shards := ix.shards.map fun s => s.withoutRuns ids
    resident := ids.foldl Table.erase ix.resident }

variable {ix : Index} {r : Run} {staged : Staged} {ids : List RunId}

theorem getElem?_withRun {i : Nat} {s' : Shard} (h : (ix.withRun r staged).shards[i]? = some s') :
    ∃ s, ix.shards[i]? = some s ∧ s' = s.withRun r.id (staged.forShard ix.shardCount i) := by
  rw [withRun, List.getElem?_mapIdx] at h
  obtain ⟨s, hs, rfl⟩ := Option.map_eq_some_iff.1 h
  exact ⟨s, hs, rfl⟩

theorem getElem?_withoutRuns {i : Nat} {s' : Shard}
    (h : (ix.withoutRuns ids).shards[i]? = some s') :
    ∃ s, ix.shards[i]? = some s ∧ s' = s.withoutRuns ids := by
  rw [withoutRuns, List.getElem?_map] at h
  obtain ⟨s, hs, rfl⟩ := Option.map_eq_some_iff.1 h
  exact ⟨s, hs, rfl⟩

theorem get?_resident_withRun {id : RunId} :
    (ix.withRun r staged).resident.get? id = if id = r.id then some r else ix.resident.get? id :=
  Table.get?_set

theorem get?_resident_withoutRuns {id : RunId} :
    (ix.withoutRuns ids).resident.get? id = if id ∈ ids then none else ix.resident.get? id :=
  Table.get?_foldl_erase

theorem withoutRuns_nil : ix.withoutRuns [] = ix := by
  rw [withoutRuns]
  congr
  exact List.map_id _

theorem withoutRuns_append {more : List RunId} :
    (ix.withoutRuns ids).withoutRuns more = ix.withoutRuns (ids ++ more) := by
  rw [withoutRuns, withoutRuns, withoutRuns, List.map_map, List.foldl_append]
  congr 1
  refine List.map_congr_left fun s _ => ?_
  rw [Function.comp_apply, Shard.withoutRuns, Shard.withoutRuns, Shard.withoutRuns,
    List.foldl_append]

theorem store_eq (h : ix.resident.contains r.id = false)
    (hshards : ∀ s ∈ ix.shards, s.store.contains r.id = false) :
    ix.store r staged = (.ok (), ix.withRun r staged) := by
  have hpublish := publish_eq staged ix.shardCount 0 hshards
  simp only [Nat.zero_add] at hpublish
  rw [store, h, hpublish]
  rfl

/-- The ids of some of the oldest runs, the oldest first. -/
def oldest (ix : Index) (count : Nat) : List RunId :=
  ((Run.oldestFirst ix.resident.values).take count).map Run.id

theorem evictOldest_eq {count : Nat} (hids : (ix.oldest count).Nodup)
    (h : ∀ s ∈ ix.shards, ∀ id ∈ ix.oldest count, s.store.contains id = true) :
    ix.evictOldest count = (.ok (ix.oldest count), ix.withoutRuns (ix.oldest count)) := by
  have hpurge := purge_eq hids h
  unfold oldest at hpurge
  rw [evictOldest, hpurge]
  rfl

end Index

end ResultSearch
