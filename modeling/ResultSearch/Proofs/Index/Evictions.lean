import Mathlib.Data.List.Nodup
import Mathlib.Data.Prod.Lex
import ResultSearch.Monitor.Settings
import ResultSearch.Proofs.Index.EvictionCount
import ResultSearch.Proofs.Index.Ingestions
import ResultSearch.Proofs.Sorting

/-!
# Which runs an eviction takes

Runs are listed from the newest on and evicted from the oldest on, in two sorts of their own. No two
resident runs have one id, so both sorts are of one strict order and one is the other reversed: an
eviction takes the end of the list. It takes the same runs at once as one by one.

* `Run.age`, `oldestFirst_eq_reverse`: the order of the runs, and the two sorts by it.
* `InStep.evictOldest_of_residentRuns`: an eviction splits the list in two.
* `Traffic.foldlM_evictAny`: one by one the same runs go.
* `MonitorSettings.isEmpty_afterLooks`: looks at a heap with too much on it empty an index.
* `evictions_of_play`: all of it for every index that has come about by steps.
-/

namespace ResultSearch

namespace Run

/-! ## The order of runs -/

/-- Runs are ordered by the time when they started, and then by their ids. -/
def age (r : Run) : Int ×ₗ Nat ×ₗ Int :=
  toLex (r.timeStart.seconds, toLex (r.timeStart.nanos, r.id))

theorem older_iff {a b : Run} : a.older b = true ↔
    a.timeStart.before b.timeStart ∨ a.timeStart = b.timeStart ∧ a.id < b.id := by
  simp [older]

theorem older_iff_age_lt {a b : Run} : a.older b = true ↔ a.age < b.age := by
  rw [older_iff, Timestamp.before_iff, age, age, Prod.Lex.toLex_lt_toLex, Prod.Lex.toLex_lt_toLex]
  cases a.timeStart
  cases b.timeStart
  rw [Timestamp.mk.injEq]
  tauto

theorem not_older_iff (a b : Run) : (!a.older b) = true ↔ b.age ≤ a.age := by
  rw [Bool.not_eq_true', ← Bool.not_eq_true, older_iff_age_lt, not_lt]

theorem pairwise_oldestFirst (runs : List Run) :
    (oldestFirst runs).Pairwise fun a b => a.age ≤ b.age :=
  Sorting.pairwise_mergeSort_of_iff (fun a b => not_older_iff b a) (fun _ _ _ => le_trans)
    (fun a b => le_total a.age b.age)

theorem pairwise_newestFirst (runs : List Run) :
    (newestFirst runs).Pairwise fun a b => b.age ≤ a.age :=
  Sorting.pairwise_mergeSort_of_iff not_older_iff (fun _ _ _ => ge_trans)
    (fun a b => le_total b.age a.age)

theorem id_eq_of_age_eq {a b : Run} (h : a.age = b.age) : a.id = b.id :=
  congrArg (fun x => (ofLex (ofLex x).2).2) h

/-- Runs that differ in their ids are in one order only from the oldest on. -/
theorem oldestFirst_eq_of_perm {runs sorted : List Run} (hids : (runs.map Run.id).Nodup)
    (hperm : runs.Perm sorted) (h : sorted.Pairwise fun a b => a.age ≤ b.age) :
    oldestFirst runs = sorted := by
  refine ((List.mergeSort_perm _ _).trans hperm).eq_of_pairwise (fun a b ha hb hab hba => ?_)
    (pairwise_oldestFirst runs) h
  exact List.inj_on_of_nodup_map hids (List.mem_mergeSort.1 ha) (hperm.mem_iff.2 hb)
    (id_eq_of_age_eq (le_antisymm hab hba))

/-- The two sorts are the same order from its two ends. -/
theorem oldestFirst_eq_reverse {runs : List Run} (hids : (runs.map Run.id).Nodup) :
    oldestFirst runs = (newestFirst runs).reverse := by
  refine oldestFirst_eq_of_perm hids ?_ (List.pairwise_reverse.2 (pairwise_newestFirst runs))
  exact (List.mergeSort_perm _ _).symm.trans (List.reverse_perm _).symm

theorem pairwise_older_oldestFirst {runs : List Run} (hids : (runs.map Run.id).Nodup) :
    (oldestFirst runs).Pairwise fun a b => a.older b = true := by
  have hnodup : ((oldestFirst runs).map Run.id).Nodup :=
    ((List.mergeSort_perm _ _).map _).nodup_iff.2 hids
  refine ((pairwise_oldestFirst runs).and (List.pairwise_map.1 hnodup)).imp fun ⟨hle, hne⟩ => ?_
  rw [older_iff_age_lt]
  exact lt_of_le_of_ne hle fun heq => hne (id_eq_of_age_eq heq)

end Run

/-! ## What an eviction leaves -/

namespace Index

variable {ix : Index}

theorem length_residentRuns : ix.residentRuns.length = ix.size :=
  (List.length_mergeSort _).trans (List.length_map _)

theorem isEmpty_iff : ix.isEmpty = true ↔ ix.size = 0 :=
  List.isEmpty_iff_length_eq_zero

/-- Taking runs away changes of a shard only which runs it holds. -/
theorem forall₂_shards_withoutRuns {ids : List RunId} :
    List.Forall₂ (fun s s' : Shard => s'.registry = s.registry ∧
      ∀ id, s'.store.forRun id = if id ∈ ids then none else s.store.forRun id)
      ix.shards (ix.withoutRuns ids).shards := by
  rw [withoutRuns, List.forall₂_map_right_iff, List.forall₂_same]
  exact fun s _ => ⟨rfl, fun id => Shard.forRun_withoutRuns⟩

end Index

namespace Chronicle.InStep

variable {ix : Index} {front back : List Run}

theorem withoutRuns (h : InStep ix) (ids : List RunId) : InStep (ix.withoutRuns ids) where
  stores s' hs' id := by
    obtain ⟨s, hs, rfl⟩ := List.mem_map.1 hs'
    have hforRun : (s.withoutRuns ids).store.runs.get? id = _ := Shard.forRun_withoutRuns
    rw [ResultStore.contains, Table.contains, Table.contains, hforRun,
      Index.get?_resident_withoutRuns]
    split
    · rfl
    · exact h.stores s hs id
  ids id r hr := by
    rw [Index.get?_resident_withoutRuns] at hr
    split at hr
    · cases hr
    · exact h.ids id r hr

theorem nodup_ids (h : InStep ix) : (ix.resident.values.map Run.id).Nodup := by
  rw [h.map_id_values]
  exact ix.resident.nodup

theorem mem_values_iff (h : InStep ix) {r : Run} :
    r ∈ ix.resident.values ↔ ix.resident.get? r.id = some r := by
  rw [Table.get?_eq_some_iff, Table.values, List.mem_map]
  constructor
  · rintro ⟨⟨id, r⟩, he, rfl⟩
    rwa [h.ids _ _ (Table.get?_eq_some_iff.2 he)]
  · exact fun he => ⟨_, he, rfl⟩

/-- The oldest runs are the end of the list of the resident ones. -/
theorem oldestFirst_eq (h : InStep ix) (hsplit : ix.residentRuns = front ++ back.reverse) :
    Run.oldestFirst ix.resident.values = back ++ front.reverse := by
  have hreverse : Run.oldestFirst ix.resident.values = ix.residentRuns.reverse :=
    Run.oldestFirst_eq_reverse h.nodup_ids
  rw [hreverse, hsplit, List.reverse_append, List.reverse_reverse]

theorem pairwise_older (h : InStep ix) (hsplit : ix.residentRuns = front ++ back.reverse) :
    back.Pairwise fun a b => a.older b = true := by
  have hsorted := Run.pairwise_older_oldestFirst h.nodup_ids
  rw [h.oldestFirst_eq hsplit] at hsorted
  exact (List.pairwise_append.1 hsorted).1

/-- Evicting as many of the oldest runs as the list has at its end takes these away. -/
theorem evictOldest_of_residentRuns (h : InStep ix) {count : Nat}
    (hsplit : ix.residentRuns = front ++ back.reverse) (hcount : back.length = min count ix.size) :
    ix.evictOldest count = (.ok (back.map Run.id), ix.withoutRuns (back.map Run.id)) := by
  have hoverall : back.length + front.length = ix.size := by
    rw [← Index.length_residentRuns, hsplit, List.length_append, List.length_reverse, Nat.add_comm]
  have htake : (back ++ front.reverse).take count = back := by
    rcases Nat.le_total count ix.size with hle | hle
    · rw [Nat.min_eq_left hle] at hcount
      exact List.take_left' hcount
    · -- More are asked for than there are: nothing stands in front.
      rw [Nat.min_eq_right hle] at hcount
      have hfront : front = [] := List.length_eq_zero_iff.1 (by omega)
      rw [hfront, List.reverse_nil, List.append_nil, List.take_of_length_le (by omega)]
  have holdest : ix.oldest count = back.map Run.id := by
    rw [Index.oldest, h.oldestFirst_eq hsplit, htake]
  rw [h.evictOldest_eq, holdest]

theorem residentRuns_withoutRuns (h : InStep ix)
    (hsplit : ix.residentRuns = front ++ back.reverse) :
    (ix.withoutRuns (back.map Run.id)).residentRuns = front := by
  have hrest := h.withoutRuns (back.map Run.id)
  have hsorted := Run.pairwise_oldestFirst ix.resident.values
  have hperm := List.mergeSort_perm ix.resident.values fun a b => !b.older a
  have hids : ((back ++ front.reverse).map Run.id).Nodup := by
    rw [← h.oldestFirst_eq hsplit]
    exact (hperm.map _).nodup_iff.2 h.nodup_ids
  rw [h.oldestFirst_eq hsplit] at hsorted
  -- What is left are the runs in front: their ids are none of those that go.
  have hleft : (ix.withoutRuns (back.map Run.id)).resident.values.Perm front.reverse := by
    refine (List.perm_ext_iff_of_nodup hrest.nodup_ids.of_map ?_).2 fun r => ?_
    · exact (List.nodup_append.1 hids.of_map).2.1
    · have hmem : r ∈ ix.resident.values ↔ r ∈ back ++ front.reverse := by
        rw [← h.oldestFirst_eq hsplit]
        exact hperm.mem_iff.symm
      rw [hrest.mem_values_iff, Index.get?_resident_withoutRuns]
      split
      · next hid =>
        refine iff_of_false (by simp) fun hr => ?_
        rw [List.map_append, List.nodup_append] at hids
        exact hids.2.2 _ hid _ (List.mem_map_of_mem hr) rfl
      · next hid =>
        rw [← h.mem_values_iff, hmem, List.mem_append]
        exact or_iff_right fun hr => hid (List.mem_map_of_mem hr)
  have hreverse := Run.oldestFirst_eq_reverse hrest.nodup_ids
  rw [Run.oldestFirst_eq_of_perm hrest.nodup_ids hleft (List.pairwise_append.1 hsorted).2.1]
    at hreverse
  exact (List.reverse_inj.1 hreverse).symm

/-- An eviction from an index with runs takes as many of the oldest as are counted, or all. -/
theorem exists_evict_eq (h : InStep ix) (hsize : 0 < ix.size) (fraction : Float) :
    ∃ front back : List Run, ix.residentRuns = front ++ back.reverse ∧
      back.length = min (Index.evictionCount ix.size fraction) ix.size ∧
      ix.evict fraction = (.ok (back.map Run.id), ix.withoutRuns (back.map Run.id)) := by
  have hlength : ix.residentRuns.length = ix.size := Index.length_residentRuns
  have hempty : ¬ix.isEmpty = true := by
    rw [Index.isEmpty_iff]
    omega
  rw [Index.evict, if_neg hempty]
  generalize Index.evictionCount ix.size fraction = count
  let back := (ix.residentRuns.drop (ix.size - count)).reverse
  have hsplit : ix.residentRuns = ix.residentRuns.take (ix.size - count) ++ back.reverse := by
    rw [List.reverse_reverse, List.take_append_drop]
  have hback : back.length = min count ix.size := by
    rw [List.length_reverse, List.length_drop]
    omega
  exact ⟨_, back, hsplit, hback, h.evictOldest_of_residentRuns hsplit hback⟩

end Chronicle.InStep

/-! ## One by one -/

namespace Traffic

/-- Evicting the oldest run over and over takes the same runs, and tells of each on its own. -/
theorem foldlM_evictAny {t : Traffic} {front back : List Run} (h : Chronicle.InStep t.index)
    (hsplit : t.index.residentRuns = front ++ back.reverse) :
    (List.replicate back.length .evictAny).foldlM step t = some { t with
      index := t.index.withoutRuns (back.map Run.id)
      told := t.told ++ back.map fun r => .evicted [r.id] } := by
  induction back generalizing t with
  | nil =>
    rw [List.map_nil, Index.withoutRuns_nil, List.map_nil, List.append_nil]
    rfl
  | cons r rest ih =>
    -- The first eviction takes `r`, which stands at the very end; what is left ends with the rest.
    have hfirst : t.index.residentRuns = (front ++ rest.reverse) ++ [r].reverse := by
      rw [hsplit, List.reverse_cons, List.reverse_singleton, List.append_assoc]
    have hempty : ¬t.index.isEmpty = true := by
      rw [Index.isEmpty_iff, ← Index.length_residentRuns, hfirst]
      simp
    have hstep : t.step .evictAny = some { t with
        index := t.index.withoutRuns [r.id], told := t.told ++ [.evicted [r.id]] } := by
      have hcount : [r].length = min 1 t.index.size := by
        rw [Index.isEmpty_iff] at hempty
        rw [List.length_singleton]
        omega
      rw [step, Index.evictAny, if_neg hempty, h.evictOldest_of_residentRuns hfirst hcount]
      rfl
    rw [List.length_cons, List.replicate_succ, List.foldlM_cons, hstep]
    refine (ih (h.withoutRuns [r.id]) (h.residentRuns_withoutRuns hfirst)).trans ?_
    simp only [Index.withoutRuns_append, List.append_assoc, List.singleton_append, List.map_cons]

end Traffic

/-! ## Looks at the heap -/

namespace MonitorSettings

/-- An index after some looks at the heap, each with the settings of its time and the bytes that are
found. -/
def afterLooks (looks : List (MonitorSettings × Nat)) (ix : Index) : Index :=
  looks.foldl (fun ix look => (look.1.check look.2 ix).2) ix

theorem check_of_isEmpty {ix : Index} (h : ix.isEmpty = true) (s : MonitorSettings)
    (heapBytes : Nat) : s.check heapBytes ix = (.ok [], ix) := by
  rw [check, Index.evict, if_pos h, ite_self]

/-- As long as there is too much on the heap each look takes a run at least. -/
theorem isEmpty_afterLooks {ix : Index} (h : Chronicle.InStep ix)
    {looks : List (MonitorSettings × Nat)} (hover : ∀ look ∈ looks, look.1.maxHeapBytes < look.2)
    (hmany : ix.size ≤ looks.length) : (afterLooks looks ix).isEmpty = true := by
  induction looks generalizing ix with
  | nil => exact Index.isEmpty_iff.2 (Nat.le_zero.1 hmany)
  | cons look rest ih =>
    have hrest : ∀ look ∈ rest, look.1.maxHeapBytes < look.2 :=
      fun look hlook => hover look (List.mem_cons_of_mem _ hlook)
    have hlook : look.1.check look.2 ix = ix.evict look.1.evictionFraction := by
      rw [check, if_neg (Nat.not_le.2 (hover look List.mem_cons_self))]
    rw [afterLooks, List.foldl_cons, hlook]
    rcases Nat.eq_zero_or_pos ix.size with hsize | hsize
    · rw [Index.evict, if_pos (Index.isEmpty_iff.2 hsize)]
      exact ih h hrest (hsize ▸ Nat.zero_le _)
    · obtain ⟨front, back, hsplit, hback, hevict⟩ :=
        h.exists_evict_eq hsize look.1.evictionFraction
      rw [hevict]
      refine ih (h.withoutRuns _) hrest ?_
      have hpos := Index.evictionCount_pos ix.size look.1.evictionFraction
      have hlength := congrArg List.length hsplit
      rw [Index.length_residentRuns, List.length_append, List.length_reverse] at hlength
      rw [← Index.length_residentRuns, h.residentRuns_withoutRuns hsplit]
      rw [List.length_cons] at hmany
      omega

end MonitorSettings

namespace Traffic

/-- In every index with resident runs an eviction takes the end of the list of these: as many as are
counted, which is one at least and, unless there are so many that their number is no longer a
floating-point number, no more than there are. It names them from the oldest on and tells the
listeners of them, every shard loses just their results, and the marks stay. As many evictions of one
run come to the same index. As many looks at a heap with too much on it as there are runs empty the
index, and further looks do nothing. -/
theorem evictions_of_play {hash : NameHash} {shards : Nat} {steps : List TrafficStep} {t : Traffic}
    (h : play hash shards steps = some t) (hsize : 0 < t.index.size) (fraction : Float) :
    let counted := Index.evictionCount t.index.size fraction
    let count := min counted t.index.size
    (1 ≤ count ∧ count ≤ t.index.size ∧ (t.index.size < 2 ^ 53 → count = counted)) ∧
    (∃ (victims : List Run) (index : Index),
      t.index.evict fraction = (.ok (victims.map Run.id), index) ∧ victims.length = count ∧
      (victims.Pairwise fun a b => a.timeStart.before b.timeStart ∨
        a.timeStart = b.timeStart ∧ a.id < b.id) ∧
      t.index.residentRuns = index.residentRuns ++ victims.reverse ∧
      t.step (.evict fraction) =
        some { t with index, told := t.told ++ [.evicted (victims.map Run.id)] } ∧
      (∀ s ∈ t.index.shards, ∀ r ∈ victims, s.store.contains r.id = true) ∧
      List.Forall₂ (fun s s' : Shard => s'.registry = s.registry ∧ ∀ id, s'.store.forRun id =
        if id ∈ victims.map Run.id then none else s.store.forRun id)
        t.index.shards index.shards ∧
      index.inFlight = t.index.inFlight ∧
      (List.replicate count .evictAny).foldlM step t =
        some { t with index, told := t.told ++ victims.map fun r => .evicted [r.id] }) ∧
    ∀ looks : List (MonitorSettings × Nat), (∀ look ∈ looks, look.1.maxHeapBytes < look.2) →
      t.index.size ≤ looks.length →
        let last := MonitorSettings.afterLooks looks t.index
        last.isEmpty = true ∧ ∀ (s : MonitorSettings) (heapBytes : Nat),
          s.check heapBytes last = (.ok [], last) := by
  have hstep := (play_orderly h).inStep
  have hpos := Nat.le_min.2 ⟨Index.evictionCount_pos t.index.size fraction, hsize⟩
  have hall (hsmall : t.index.size < 2 ^ 53) :=
    Nat.min_eq_left (Index.evictionCount_le hsize hsmall fraction)
  refine ⟨⟨hpos, Nat.min_le_right .., hall⟩, ?_, fun looks hover hmany => ?_⟩
  · obtain ⟨front, victims, hsplit, hcount, hevict⟩ := hstep.exists_evict_eq hsize fraction
    have hmem : ∀ r ∈ victims, r ∈ t.index.residentRuns := fun r hr =>
      hsplit ▸ List.mem_append_right _ (List.mem_reverse.2 hr)
    refine ⟨victims, _, hevict, hcount, ?_, ?_, ?_, ?_, Index.forall₂_shards_withoutRuns, rfl, ?_⟩
    · exact (hstep.pairwise_older hsplit).imp Run.older_iff.1
    · rw [hstep.residentRuns_withoutRuns hsplit, hsplit]
    · rw [step, hevict]
      cases victims with
      | nil => rw [← hcount] at hpos; cases hpos
      | cons r rest => rfl
    · intro s hs r hr
      rw [hstep.stores s hs, Table.contains_iff_exists]
      exact ⟨r, hstep.mem_values_iff.1 (List.mem_mergeSort.1 (hmem r hr))⟩
    · rw [← hcount]
      exact foldlM_evictAny hstep hsplit
  · have hempty := MonitorSettings.isEmpty_afterLooks hstep hover hmany
    exact ⟨hempty, MonitorSettings.check_of_isEmpty hempty⟩

/-- Of two runs that started together the one with the smaller id goes, and no other where the
fraction is no number. -/
theorem evictions_of_equal_starts :
    let run (id : RunId) : Run := { Run.blank with id }
    let steps : List TrafficStep := [.start (run 1), .start (run 2), .arrive 1 (.ok ⟨[], .null⟩),
      .finish 1, .arrive 0 (.ok ⟨[], .null⟩), .finish 0, .start (run 3)]
    ∃ t, play Hash.hashText 2 steps = some t ∧ 0 < t.index.size ∧
      t.index.residentRuns = [run 2, run 1] ∧
      ∃ index, t.index.evict (0 / 0) = (.ok [1], index) ∧ index.inFlight = [3] ∧
        index.residentRuns = [run 2] ∧
        t.step (.evict (0 / 0)) = some { t with index, told := t.told ++ [.evicted [1]] } ∧
        (MonitorSettings.afterLooks [(.standard, 1), (.standard, 1)] t.index).isEmpty = true := by
  intro run steps
  obtain ⟨t, ht⟩ : ∃ t, play Hash.hashText 2 steps = some t :=
    Option.isSome_iff_exists.1 (by decide +kernel)
  have hfacts : (play Hash.hashText 2 steps).map
      (fun t => (t.index.resident.values, t.index.size, t.index.inFlight)) =
      some ([run 2, run 1], 2, [3]) := by decide +kernel
  rw [ht] at hfacts
  obtain ⟨hvalues, hsize, hinFlight⟩ : t.index.resident.values = [run 2, run 1] ∧
      t.index.size = 2 ∧ t.index.inFlight = [3] := by
    simpa only [Option.map_some, Option.some.injEq, Prod.mk.injEq] using hfacts
  have hpos : 0 < t.index.size := by rw [hsize]; decide
  have hresident : t.index.residentRuns = [run 2, run 1] := by
    have hids : ([run 2, run 1].map Run.id).Nodup := by decide
    have hage : (run 1).age ≤ (run 2).age := (Run.not_older_iff (run 2) (run 1)).1 (by decide)
    have holdest : Run.oldestFirst [run 2, run 1] = [run 1, run 2] :=
      Run.oldestFirst_eq_of_perm hids (List.Perm.swap _ _ _)
        (List.pairwise_pair.2 hage)
    rw [Run.oldestFirst_eq_reverse hids] at holdest
    rw [Index.residentRuns, hvalues]
    exact List.reverse_inj.1 holdest
  have hcounted : Index.evictionCount t.index.size (0 / 0) = 1 := by
    rw [hsize]
    exact Index.evictionCount_eq_one (by decide) (.inl (by decide +kernel))
  obtain ⟨⟨-, -, hcount⟩, hevicted, hlooks⟩ := evictions_of_play ht hpos (0 / 0)
  obtain ⟨victims, index, hevict, hlength, -, hsplit, hstep, -, -, hmarks, -⟩ := hevicted
  rw [hcount (by rw [hsize]; decide), hcounted] at hlength
  obtain ⟨r, rfl⟩ := List.length_eq_one_iff.1 hlength
  have hend : [run 2] ++ [run 1] = index.residentRuns ++ [r] := hresident.symm.trans hsplit
  obtain ⟨hfront, hlast⟩ := List.append_inj' hend rfl
  obtain rfl : run 1 = r := (List.cons.inj hlast).1
  refine ⟨t, ht, hpos, hresident, index, hevict, hmarks.trans hinFlight, hfront.symm, hstep, ?_⟩
  exact (hlooks [(.standard, 1), (.standard, 1)] (by decide) (by rw [hsize]; decide)).1

end Traffic

end ResultSearch
