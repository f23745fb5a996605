import Mathlib.Data.Finset.Basic
import ResultSearch.Proofs.Index.Traffic

/-!
# What becomes of overlapping ingestions

However ingestions overlap, the marks stay those of the waiting ones, and the listeners can work out
the resident runs from what they are told.

* `IndexEvent.apply`: the resident runs as a listener works them out.
* `Orderly`, `Orderly.of_step`, `play_orderly`: what every step keeps and so every play has.
* `success_of_change`: what goes with a success.
* `ingestions_of_play`: which ingestions are refused, and that the others publish once and are told
  of once.
-/

namespace ResultSearch

/-! ## What listeners make of it -/

namespace IndexEvent

/-- The run that is said to be ingested. -/
def ingested? : IndexEvent → Option RunId
  | .ingested id => some id
  | .evicted _ => none

/-- The resident runs after an event. No run comes that is there, and none goes that is not. -/
def apply (runs : Finset RunId) : IndexEvent → Option (Finset RunId)
  | .ingested id => if id ∈ runs then none else some (insert id runs)
  | .evicted ids => if ids.Nodup ∧ ∀ id ∈ ids, id ∈ runs then some (runs \ ids.toFinset) else none

end IndexEvent

namespace Index

variable {ix : Index}

/-- The ids of the resident runs. -/
def residentIds (ix : Index) : Finset RunId := ix.resident.keys.toFinset

theorem mem_residentIds {id : RunId} :
    id ∈ ix.residentIds ↔ ix.resident.contains id = true := by
  rw [residentIds, List.mem_toFinset, Table.contains_iff_mem_keys]

theorem residentIds_withRun {run : Run} (staged : Staged) :
    (ix.withRun run staged).residentIds = insert run.id ix.residentIds := by
  ext id
  rw [mem_residentIds, contains_withRun, Finset.mem_insert, mem_residentIds]

theorem residentIds_withoutRuns {ids : List RunId} :
    (ix.withoutRuns ids).residentIds = ix.residentIds \ ids.toFinset := by
  ext id
  rw [mem_residentIds, contains_withoutRuns, Finset.mem_sdiff, mem_residentIds, List.mem_toFinset]

end Index

namespace Traffic

variable {t t' : Traffic}

/-! ## What every step keeps -/

/-- What holds of an index and the ingestions on it: it has come about by calls, the marks are those
of the waiting ingestions, and the listeners were told of the successful ingestions and can work out
the resident runs. -/
structure Orderly (hash : NameHash) (shards : Nat) (t : Traffic) : Prop where
  replayed : ∃ calls c, Chronicle.replay hash shards calls = .ok c ∧ c.index = t.index
  marked : Marked t.index t.loads
  matched : (t.told.filterMap IndexEvent.ingested?).Perm t.successes
  retold : t.told.foldlM IndexEvent.apply ∅ = some t.index.residentIds

/-- What the index is asked for in a step. -/
def calls (t : Traffic) : TrafficStep → List IndexCall
  | .start run => [.begin run]
  | .arrive _ _ => []
  | .finish i =>
    match t.ingestions[i]? with
    | some ⟨run, .loaded loaded⟩ => [.deliver run loaded]
    | _ => []
  | .drop i =>
    match t.ingestions[i]? with
    | some x => [.abandon x.run.id]
    | none => []
  | .evict fraction => [.evict fraction]
  | .evictAny => [.evictAny]
  | .bind _ _ => []

theorem index_evicted (result : Except Error (List RunId) × Index) :
    (t.evicted result).index = result.2 := by
  unfold evicted
  split <;> rfl

/-- The calls of a step take an index to where the step takes it. -/
theorem index_afterAll (hmarked : Marked t.index t.loads) {s : TrafficStep}
    (h : t.step s = some t') {c : Chronicle} (hc : c.index = t.index) :
    (c.afterAll (t.calls s)).index = t'.index := by
  obtain ⟨ix, published⟩ := c
  obtain rfl : ix = t.index := hc
  cases s with
  | start run =>
    show (Chronicle.after _ (.begin run)).index = _
    rw [step] at h
    rw [Chronicle.after]
    cases hbegin : t.index.begin run <;> rw [hbegin] at h <;> exact Option.some.inj h ▸ rfl
  | arrive i loaded =>
    rw [step] at h
    split at h
    · exact Option.some.inj h ▸ rfl
    · cases h
  | finish i =>
    rw [step] at h
    split at h
    · next run loaded hi =>
      have hcalls : t.calls (.finish i) = [.deliver run loaded] := by rw [calls, hi]
      have hmark : t.index.inFlight.contains run.id = true :=
        List.contains_iff_mem.2 <| (hmarked.mem_inFlight_iff run.id).2 <|
          List.mem_filterMap.2 ⟨_, List.mem_of_getElem? hi, rfl⟩
      rw [hcalls]
      show (Chronicle.after _ (.deliver run loaded)).index = _
      rw [Chronicle.after, if_pos hmark]
      split at h
      · next hdeliver => exact Option.some.inj h ▸ congrArg Prod.snd hdeliver
      · next hdeliver => exact Option.some.inj h ▸ congrArg Prod.snd hdeliver
    · cases h
  | drop i =>
    rw [step] at h
    split at h
    · next run hi =>
      have hcalls : t.calls (.drop i) = [.abandon run.id] := by rw [calls, hi]
      exact Option.some.inj h ▸ hcalls ▸ rfl
    · next run loaded hi =>
      have hcalls : t.calls (.drop i) = [.abandon run.id] := by rw [calls, hi]
      exact Option.some.inj h ▸ hcalls ▸ rfl
    · cases h
  | evict fraction => exact Option.some.inj h ▸ (index_evicted _).symm
  | evictAny => exact Option.some.inj h ▸ (index_evicted _).symm
  | bind ids query => exact Option.some.inj h ▸ rfl

theorem loads_split {before after : List Ingestion} {i : Ingestion}
    (h : t.ingestions = before ++ i :: after) : t.loads = before.filterMap Ingestion.load? ++
      (i.load?.toList ++ after.filterMap Ingestion.load?) := by
  rw [loads, h, List.filterMap_append, List.filterMap_cons]
  cases i.load? <;> rfl

theorem successes_split {before after : List Ingestion} {i : Ingestion}
    (h : t.ingestions = before ++ i :: after) :
    t.successes = before.filterMap Ingestion.success? ++
      (i.success?.toList ++ after.filterMap Ingestion.success?) := by
  rw [successes, h, List.filterMap_append, List.filterMap_cons]
  cases i.success? <;> rfl

theorem marked_of_change (h : Change t t') (hmarked : Marked t.index t.loads) :
    Marked t'.index t'.loads := by
  cases h with
  | refused run e =>
    have hloads : t.loads = _ := (List.append_nil _).symm
    rw [loads, List.filterMap_append]
    exact hloads ▸ hmarked
  | begun hres hmark =>
    rw [loads, List.filterMap_append]
    exact hmarked.enter hres hmark
  | arrived loaded hsplit =>
    rw [loads_split hsplit] at hmarked
    rw [loads_split rfl]
    exact hmarked
  | published staged hsplit =>
    rw [loads_split hsplit] at hmarked
    rw [loads_split rfl]
    have hrun := (List.nodup_cons.1 (List.nodup_middle.1 hmarked.nodup)).1
    exact hmarked.leave.withRun hrun staged
  | left hsplit hi hj =>
    rw [loads_split hsplit, hi] at hmarked
    rw [loads_split rfl, hj]
    exact hmarked.leave
  | evicted _ _ => exact hmarked.withoutRuns _
  | kept plans => exact hmarked

theorem success?_eq_none_of_load? {i : Ingestion} {id : RunId} (h : i.load? = some id) :
    i.success? = none := by
  obtain ⟨run, phase⟩ := i
  cases phase <;> first | rfl | cases h

/-- A step lets no ingestion succeed, and then no run becomes resident and the listeners are told of
none; or it lets one succeed, whose run was not resident and now is, and they are told of it. -/
theorem success_of_change (h : Change t t') (hmarked : Marked t.index t.loads) :
    (t'.successes = t.successes ∧ t'.index.residentIds ⊆ t.index.residentIds ∧
        t'.told.filterMap IndexEvent.ingested? = t.told.filterMap IndexEvent.ingested?) ∨
      ∃ id ∈ t.loads, t'.successes.Perm (id :: t.successes) ∧ id ∉ t.index.residentIds ∧
        t'.index.residentIds = insert id t.index.residentIds ∧
          t'.told = t.told ++ [.ingested id] := by
  cases h with
  | refused run e =>
    refine .inl ⟨?_, Finset.Subset.refl _, rfl⟩
    rw [successes, List.filterMap_append]
    exact List.append_nil _
  | begun hres hmark =>
    refine .inl ⟨?_, Finset.Subset.refl _, rfl⟩
    rw [successes, List.filterMap_append]
    exact List.append_nil _
  | arrived loaded hsplit =>
    refine .inl ⟨?_, Finset.Subset.refl _, rfl⟩
    rw [successes_split hsplit, successes_split rfl]
    rfl
  | @published before after run loaded staged hsplit =>
    have hload : run.id ∈ t.loads := by
      rw [loads_split hsplit]
      exact List.mem_append_right _ List.mem_cons_self
    refine .inr ⟨run.id, hload, ?_, ?_, Index.residentIds_withRun staged, rfl⟩
    · rw [successes_split hsplit, successes_split rfl]
      exact List.perm_middle
    · rw [Index.mem_residentIds, hmarked.absent _ hload]
      exact Bool.false_ne_true
  | left hsplit hi hj hnone =>
    refine .inl ⟨?_, Finset.Subset.refl _, rfl⟩
    rw [successes_split hsplit, success?_eq_none_of_load? hi, successes_split rfl, hnone]
  | evicted _ _ =>
    refine .inl ⟨rfl, ?_, ?_⟩
    · rw [Index.residentIds_withoutRuns]
      exact Finset.sdiff_subset
    · rw [List.filterMap_append]
      exact List.append_nil _
  | kept plans => exact .inl ⟨rfl, Finset.Subset.refl _, rfl⟩

theorem matched_of_change (h : Change t t') (hmarked : Marked t.index t.loads)
    (hmatched : (t.told.filterMap IndexEvent.ingested?).Perm t.successes) :
    (t'.told.filterMap IndexEvent.ingested?).Perm t'.successes := by
  rcases success_of_change h hmarked with ⟨hsuccesses, -, htold⟩ | ⟨id, -, hsuccesses, -, -, htold⟩
  · rw [htold, hsuccesses]
    exact hmatched
  · rw [htold, List.filterMap_append]
    exact List.perm_append_comm.trans ((hmatched.cons id).trans hsuccesses.symm)

theorem retold_of_change (h : Change t t') (hmarked : Marked t.index t.loads)
    (hretold : t.told.foldlM IndexEvent.apply ∅ = some t.index.residentIds) :
    t'.told.foldlM IndexEvent.apply ∅ = some t'.index.residentIds := by
  cases h with
  | refused | begun | arrived | left | kept => exact hretold
  | @published before after run _ staged hsplit =>
    have hres : run.id ∉ t.index.residentIds := by
      rw [Index.mem_residentIds, Bool.not_eq_true]
      apply hmarked.absent
      rw [loads_split hsplit]
      exact List.mem_append_right _ List.mem_cons_self
    have hids : ((t.index.withRun run staged).abandon run.id).residentIds =
        insert run.id t.index.residentIds := Index.residentIds_withRun staged
    rw [List.foldlM_append, hretold, hids]
    show (IndexEvent.apply _ (.ingested run.id)).bind _ = _
    rw [IndexEvent.apply, if_neg hres]
    rfl
  | @evicted ids hnodup hres =>
    have hmem : ∀ id ∈ ids, id ∈ t.index.residentIds :=
      fun id hid => Index.mem_residentIds.2 (hres id hid)
    rw [List.foldlM_append, hretold, Index.residentIds_withoutRuns]
    show (IndexEvent.apply _ (.evicted ids)).bind _ = _
    rw [IndexEvent.apply, if_pos ⟨hnodup, hmem⟩]
    rfl

variable {hash : NameHash} {shards : Nat}

namespace Orderly

theorem inStep (h : Orderly hash shards t) : Chronicle.InStep t.index := by
  obtain ⟨calls, c, hc, hindex⟩ := h.replayed
  exact hindex ▸ (Chronicle.replay_consistent hc).inStep

theorem change (h : Orderly hash shards t) {s : TrafficStep} (hs : t.step s = some t') :
    Change t t' :=
  change_of_step h.inStep h.marked hs

theorem of_step (h : Orderly hash shards t) {s : TrafficStep} (hs : t.step s = some t') :
    Orderly hash shards t' where
  replayed := by
    obtain ⟨calls, c, hc, hindex⟩ := h.replayed
    obtain ⟨hshards, rfl⟩ := Chronicle.replay_eq_ok_iff.1 hc
    refine ⟨calls ++ t.calls s, _, Chronicle.replay_eq_ok_iff.2 ⟨hshards, rfl⟩, ?_⟩
    rw [Chronicle.afterAll, List.foldl_append]
    exact index_afterAll h.marked hs hindex
  marked := marked_of_change (h.change hs) h.marked
  matched := matched_of_change (h.change hs) h.marked h.matched
  retold := retold_of_change (h.change hs) h.marked h.retold

theorem of_steps (h : Orderly hash shards t) {steps : List TrafficStep}
    (hs : steps.foldlM step t = some t') : Orderly hash shards t' :=
  Outcome.of_foldlM hs h fun _ _ _ _ ht hstep => ht.of_step hstep

end Orderly

/-- Whatever ingestions overlap, the marks, the resident runs and what was told stay in step. -/
theorem play_orderly {steps : List TrafficStep} (h : play hash shards steps = some t) :
    Orderly hash shards t := by
  unfold play at h
  cases hcreate : Index.create hash shards with
  | error e => rw [hcreate] at h; cases h
  | ok index =>
    rw [hcreate] at h
    have hreplay : Chronicle.replay hash shards [] = .ok ⟨index, []⟩ := by
      rw [Chronicle.replay, hcreate]
      rfl
    obtain ⟨-, hstart⟩ := Chronicle.replay_eq_ok_iff.1 hreplay
    obtain rfl : _ = index := congrArg Chronicle.index hstart
    have hmarked : Marked (Chronicle.start hash shards).index [] :=
      ⟨fun id => Iff.rfl, List.nodup_nil, fun id hid => absurd hid List.not_mem_nil⟩
    have hempty : Orderly hash shards ⟨(Chronicle.start hash shards).index, [], [], []⟩ :=
      ⟨⟨_, _, hreplay, rfl⟩, hmarked, .nil, rfl⟩
    exact hempty.of_steps h

/-! ## The ingestions of a play -/

namespace Orderly

/-- An ingestion ends with an error only if the load or the report had one. -/
theorem finish_eq (h : Orderly hash shards t) {i : Nat} {run : Run} {loaded : Loaded}
    (hi : t.ingestions[i]? = some ⟨run, .loaded loaded⟩) :
    ∃ t', t.step (.finish i) = some t' ∧ t'.ingestions = t.ingestions.set i
      ⟨run, .ended ((loaded.bind (Staged.stage t.index.hash)).map fun _ => ())⟩ := by
  have hres : t.index.resident.contains run.id = false :=
    h.marked.absent _ (List.mem_filterMap.2 ⟨_, List.mem_of_getElem? hi, rfl⟩)
  simp only [step, hi]
  rcases h.inStep.deliver_cases hres loaded with ⟨e, hloaded, hdeliver⟩ | ⟨staged, hloaded, hdeliver⟩
  · rw [hdeliver, hloaded]
    exact ⟨_, rfl, rfl⟩
  · rw [hdeliver, hloaded]
    exact ⟨_, rfl, rfl⟩

/-- An ingestion that starts is refused if its run is resident, or else if another ingestion waits
for it, and in no other case unless it has no run. -/
theorem start_eq (h : Orderly hash shards t) {run : Run} (hrun : run.isNil = false) :
    ∃ t' phase, t.step (.start run) = some t' ∧ t'.ingestions = t.ingestions ++ [⟨run, phase⟩] ∧
      (phase = .ended (.error (.runExists run.id)) ↔ run.id ∈ t.index.residentIds) ∧
      (phase = .ended (.error (.runLoading run.id)) ↔
        run.id ∉ t.index.residentIds ∧ run.id ∈ t.loads) ∧
      (phase = .loading ↔ run.id ∉ t.index.residentIds ∧ run.id ∉ t.loads) := by
  simp only [step, Index.begin_of_not_nil hrun, Index.mem_residentIds, ← h.marked.mem_inFlight_iff]
  by_cases hres : t.index.resident.contains run.id = true
  · rw [if_pos hres]
    exact ⟨_, _, rfl, rfl, by simp [hres]⟩
  · by_cases hmark : run.id ∈ t.index.inFlight
    · rw [if_neg hres, if_pos hmark]
      exact ⟨_, _, rfl, rfl, by simp [hres, hmark]⟩
    · rw [if_neg hres, if_neg hmark]
      exact ⟨_, _, rfl, rfl, by simp [hres, hmark]⟩

end Orderly

/-- However ingestions overlap with one another, with evictions and with binds: the marks are the
runs that ingestions wait for, each for a run of its own that is not resident. An ingestion is
refused just if its run is resident or marked, and else it fails only with its load or its report.
Every success makes its run resident and is told of once, and what is told, strictly replayed, gives
the resident runs. -/
theorem ingestions_of_play {steps : List TrafficStep} (h : play hash shards steps = some t) :
    (t.loads.Nodup ∧ (∀ id, id ∈ t.index.inFlight ↔ id ∈ t.loads) ∧
        ∀ id ∈ t.loads, id ∉ t.index.residentIds) ∧
      (∀ run : Run, run.isNil = false → ∃ t' phase,
        t.step (.start run) = some t' ∧ t'.ingestions = t.ingestions ++ [⟨run, phase⟩] ∧
          (phase = .ended (.error (.runExists run.id)) ↔ run.id ∈ t.index.residentIds) ∧
          (phase = .ended (.error (.runLoading run.id)) ↔
            run.id ∉ t.index.residentIds ∧ run.id ∈ t.loads) ∧
          (phase = .loading ↔ run.id ∉ t.index.residentIds ∧ run.id ∉ t.loads)) ∧
      (∀ i run loaded, t.ingestions[i]? = some ⟨run, .loaded loaded⟩ → ∃ t',
        t.step (.finish i) = some t' ∧ t'.ingestions = t.ingestions.set i
          ⟨run, .ended ((loaded.bind (Staged.stage t.index.hash)).map fun _ => ())⟩) ∧
      (∀ s t', t.step s = some t' →
        (t'.successes = t.successes ∧ t'.index.residentIds ⊆ t.index.residentIds ∧
            t'.told.filterMap IndexEvent.ingested? = t.told.filterMap IndexEvent.ingested?) ∨
          ∃ id ∈ t.loads, t'.successes.Perm (id :: t.successes) ∧ id ∉ t.index.residentIds ∧
            t'.index.residentIds = insert id t.index.residentIds ∧
              t'.told = t.told ++ [.ingested id]) ∧
      (t.told.filterMap IndexEvent.ingested?).Perm t.successes ∧
      t.told.foldlM IndexEvent.apply ∅ = some t.index.residentIds := by
  have ht := play_orderly h
  have habsent : ∀ id ∈ t.loads, id ∉ t.index.residentIds := by
    intro id hid
    rw [Index.mem_residentIds, ht.marked.absent id hid]
    exact Bool.false_ne_true
  refine ⟨⟨ht.marked.nodup, ht.marked.mem_inFlight_iff, habsent⟩, fun run hrun => ht.start_eq hrun,
    fun i run loaded hi => ht.finish_eq hi, ?_, ht.matched, ht.retold⟩
  exact fun s t' hs => success_of_change (ht.change hs) ht.marked

/-- One run is offered twice while it is loaded, a third time when it is resident, and again after
its eviction, while another waits and a third is dropped. -/
theorem ingestions_of_overlapping :
    let run (id : RunId) : Run := { Run.blank with id }
    let report : Report := ⟨[⟨"/a.html", .ok, none, [⟨"one", .pass, none⟩]⟩], .null⟩
    let steps : List TrafficStep := [.start (run 1), .start (run 1), .start (run 2),
      .start (run 3), .arrive 0 (.ok report), .evictAny, .finish 0, .start (run 1), .drop 3,
      .bind [1] (some (.status 1 (.is .fail))), .evictAny, .start (run 1),
      .arrive 5 (.ok report), .finish 5]
    ∃ t, play Hash.hashText 2 steps = some t ∧ t.loads = [2] ∧ t.successes = [1, 1] ∧
      t.told = [.ingested 1, .evicted [1], .ingested 1] ∧
      t.told.foldlM IndexEvent.apply ∅ = some t.index.residentIds ∧
      ∃ t' phase, t.step (.start (run 2)) = some t' ∧
        t'.ingestions = t.ingestions ++ [⟨run 2, phase⟩] ∧
        phase = .ended (.error (.runLoading 2)) := by
  intro run report steps
  obtain ⟨t, ht⟩ : ∃ t, play Hash.hashText 2 steps = some t :=
    Option.isSome_iff_exists.1 (by decide +kernel)
  have hlists : (play Hash.hashText 2 steps).map (fun t => (t.loads, t.successes, t.told)) =
      some ([2], [1, 1], [.ingested 1, .evicted [1], .ingested 1]) := by decide +kernel
  rw [ht] at hlists
  obtain ⟨hloads, hsuccesses, htold⟩ : t.loads = [2] ∧ t.successes = [1, 1] ∧
      t.told = [.ingested 1, .evicted [1], .ingested 1] := by
    simpa only [Option.map_some, Option.some.injEq, Prod.mk.injEq] using hlists
  obtain ⟨⟨-, -, habsent⟩, hstart, -, -, -, hretold⟩ := ingestions_of_play ht
  obtain ⟨t', phase, hstep, hingestions, -, hloading, -⟩ := hstart (run 2) rfl
  have hload : (2 : RunId) ∈ t.loads := by rw [hloads]; decide
  exact ⟨t, ht, hloads, hsuccesses, htold, hretold, t', phase, hstep, hingestions,
    hloading.2 ⟨habsent 2 hload, hload⟩⟩

end Traffic

end ResultSearch
