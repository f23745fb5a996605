import ResultSearch.Proofs.Index.Ingestions

/-!
# Plays without their failures

An ingestion that comes to nothing, because it is refused, fails or is dropped, might as well not have
been asked for: take all steps of all such ingestions out of a play, and what is left can still be
played and ends with the same index, the same successes, plans and notices.

* `pick`: the members of a list at some positions.
* `TrafficStep.without`: some steps without those of the vain ingestions.
* `Traffic.without`, `step_without`: the course of events without them; a step of the one is a step of
  the other, or is not there.
* `play_without_vain`: what this means for whole plays.
-/

namespace ResultSearch

/-! ## Some positions of a list -/

/-- The members at the positions of a kind, counted from `n` on. -/
def pick {α : Type} (q : Nat → Bool) (n : Nat) (l : List α) : List α :=
  ((l.zipIdx n).filter fun p => q p.2).map Prod.fst

/-- The number of positions of a kind among the `i` from `n` on. -/
def rank (q : Nat → Bool) (n i : Nat) : Nat := (List.range' n i).countP q

section Pick

variable {α : Type} {q : Nat → Bool} {n i : Nat} {l l' : List α} {x y : α}

theorem pick_cons :
    pick q n (x :: l) = if q n then x :: pick q (n + 1) l else pick q (n + 1) l := by
  simp only [pick, List.zipIdx_cons, List.filter_cons]
  split <;> rfl

theorem pick_append : pick q n (l ++ l') = pick q n l ++ pick q (n + l.length) l' := by
  simp [pick, List.zipIdx_append]

theorem pick_concat :
    pick q 0 (l ++ [x]) = if q l.length then pick q 0 l ++ [x] else pick q 0 l := by
  rw [pick_append, pick_cons, Nat.zero_add]
  split
  · rfl
  · exact List.append_nil _

theorem rank_succ : rank q n (i + 1) = rank q (n + 1) i + if q n then 1 else 0 := by
  rw [rank, List.range'_succ, List.countP_cons]
  rfl

theorem pick_sublist : (pick q n l).Sublist l := by
  have h := (List.filter_sublist (p := fun p : α × Nat => q p.2) (l := l.zipIdx n)).map Prod.fst
  rwa [List.zipIdx_map_fst] at h

/-- What is picked keeps its place among what is picked. -/
theorem getElem?_pick (h : l[i]? = some x) (hq : q (n + i) = true) :
    (pick q n l)[rank q n i]? = some x := by
  induction l generalizing n i with
  | nil => cases h
  | cons a rest ih =>
    rw [pick_cons]
    cases i with
    | zero =>
      have hn : q n = true := hq
      rw [if_pos hn]
      exact h
    | succ i =>
      have hrest : (pick q (n + 1) rest)[rank q (n + 1) i]? = some x :=
        ih h (by rwa [Nat.add_right_comm])
      rw [rank_succ]
      split <;> exact hrest

theorem pick_set_of_picked (hi : i < l.length) (hq : q (n + i) = true) :
    pick q n (l.set i y) = (pick q n l).set (rank q n i) y := by
  induction l generalizing n i with
  | nil => cases hi
  | cons a rest ih =>
    cases i with
    | zero =>
      have hn : q n = true := hq
      rw [List.set_cons_zero, pick_cons, pick_cons, if_pos hn, if_pos hn]
      rfl
    | succ i =>
      have hrest : pick q (n + 1) (rest.set i y) = (pick q (n + 1) rest).set (rank q (n + 1) i) y :=
        ih (Nat.lt_of_succ_lt_succ hi) (by rwa [Nat.add_right_comm])
      rw [List.set_cons_succ, pick_cons, pick_cons, rank_succ, hrest]
      split <;> rfl

theorem pick_set_of_not_picked (hq : q (n + i) = false) : pick q n (l.set i y) = pick q n l := by
  induction l generalizing n i with
  | nil => rfl
  | cons a rest ih =>
    cases i with
    | zero =>
      have hn : ¬ q n = true := Bool.eq_false_iff.1 hq
      rw [List.set_cons_zero, pick_cons, pick_cons, if_neg hn, if_neg hn]
    | succ i =>
      rw [List.set_cons_succ, pick_cons, pick_cons, ih (by rwa [Nat.add_right_comm])]

/-- Picking by position what is of a kind is picking what is of the kind. -/
theorem pick_eq_filter {p : α → Bool} (h : ∀ i x, l[i]? = some x → q (n + i) = p x) :
    pick q n l = l.filter p := by
  induction l generalizing n with
  | nil => rfl
  | cons a rest ih =>
    have hrest : pick q (n + 1) rest = rest.filter p :=
      ih fun i x hx => by
        rw [Nat.add_right_comm]
        exact h (i + 1) x hx
    have ha : q n = p a := h 0 a rfl
    rw [pick_cons, hrest, List.filter_cons, ha]

end Pick

/-! ## Steps without those of some ingestions -/

namespace Ingestion

/-- The ingestion has come to nothing. -/
def isVain : Ingestion → Bool
  | ⟨_, .ended (.error _)⟩ => true
  | ⟨_, .dropped⟩ => true
  | _ => false

end Ingestion

namespace TrafficStep

/-- The number of an ingestion when the vain ones do not count. -/
def place (vain : Nat → Bool) (i : Nat) : Nat := rank (fun i => !vain i) 0 i

/-- The ingestion that a step is about, if so many were started before. -/
def ingestion? (started : Nat) : TrafficStep → Option Nat
  | .start _ => some started
  | .arrive i _ => some i
  | .finish i => some i
  | .drop i => some i
  | .evict _ => none
  | .evictAny => none
  | .bind _ _ => none

/-- How many ingestions a step starts. -/
def starts : TrafficStep → Nat
  | .start _ => 1
  | _ => 0

/-- The step with its ingestion under another number. -/
def renumber (f : Nat → Nat) : TrafficStep → TrafficStep
  | .arrive i loaded => .arrive (f i) loaded
  | .finish i => .finish (f i)
  | .drop i => .drop (f i)
  | s => s

/-- Some steps without those of the vain ingestions; the others are numbered among themselves. -/
def without (vain : Nat → Bool) : (started : Nat) → List TrafficStep → List TrafficStep
  | _, [] => []
  | n, s :: rest =>
    if (s.ingestion? n).any vain then without vain (n + s.starts) rest
    else s.renumber (place vain) :: without vain (n + s.starts) rest

end TrafficStep

namespace Traffic

variable {t t' u : Traffic} {vain : Nat → Bool}

/-- The ingestions that have come to nothing. -/
def vainIn (t : Traffic) (i : Nat) : Bool := t.ingestions[i]?.any Ingestion.isVain

/-! ## What has ended stays -/

theorem ingestions_evicted (result : Except Error (List RunId) × Index) :
    (t.evicted result).ingestions = t.ingestions := by
  unfold evicted
  split <;> rfl

theorem length_of_step {s : TrafficStep} (h : t.step s = some t') :
    t'.ingestions.length = t.ingestions.length + s.starts := by
  cases s with
  | start run =>
    rw [step] at h
    split at h <;> exact Option.some.inj h ▸ List.length_append
  | arrive i loaded =>
    rw [step] at h
    split at h
    · exact Option.some.inj h ▸ List.length_set
    · cases h
  | finish i =>
    rw [step] at h
    split at h
    · split at h <;> exact Option.some.inj h ▸ List.length_set
    · cases h
  | drop i =>
    rw [step] at h
    split at h
    · exact Option.some.inj h ▸ List.length_set
    · exact Option.some.inj h ▸ List.length_set
    · cases h
  | evict fraction => exact Option.some.inj h ▸ congrArg List.length (ingestions_evicted _)
  | evictAny => exact Option.some.inj h ▸ congrArg List.length (ingestions_evicted _)
  | bind ids query => exact Option.some.inj h ▸ rfl

/-- A step takes an ingestion further only if it waits. -/
theorem getElem?_set_of_waiting {i j : Nat} {x y z : Ingestion} (hx : t.ingestions[i]? = some x)
    (hload : x.load? = none) (hy : t.ingestions[j]? = some y) (hwaits : y.load? ≠ none) :
    (t.ingestions.set j z)[i]? = some x := by
  rw [List.getElem?_set_ne]
  · exact hx
  · rintro rfl
    exact hwaits (Option.some.inj (hy.symm.trans hx) ▸ hload)

/-- An ingestion that waits no longer stays as it is. -/
theorem getElem?_of_step {s : TrafficStep} (h : t.step s = some t') {i : Nat} {x : Ingestion}
    (hx : t.ingestions[i]? = some x) (hload : x.load? = none) : t'.ingestions[i]? = some x := by
  cases s with
  | start run =>
    have happend (y : Ingestion) : (t.ingestions ++ [y])[i]? = some x := by
      rw [List.getElem?_append_left (List.getElem?_eq_some_iff.1 hx).1]
      exact hx
    rw [step] at h
    split at h <;> exact Option.some.inj h ▸ happend _
  | arrive j loaded =>
    rw [step] at h
    split at h
    · next hj => exact Option.some.inj h ▸ getElem?_set_of_waiting hx hload hj (Option.some_ne_none _)
    · cases h
  | finish j =>
    rw [step] at h
    split at h
    · next hj =>
      split at h <;>
        exact Option.some.inj h ▸ getElem?_set_of_waiting hx hload hj (Option.some_ne_none _)
    · cases h
  | drop j =>
    rw [step] at h
    split at h
    · next hj => exact Option.some.inj h ▸ getElem?_set_of_waiting hx hload hj (Option.some_ne_none _)
    · next hj => exact Option.some.inj h ▸ getElem?_set_of_waiting hx hload hj (Option.some_ne_none _)
    · cases h
  | evict fraction =>
    refine Option.some.inj h ▸ ?_
    rw [ingestions_evicted]
    exact hx
  | evictAny =>
    refine Option.some.inj h ▸ ?_
    rw [ingestions_evicted]
    exact hx
  | bind ids query => exact Option.some.inj h ▸ hx

/-- Every ingestion that has ended is said beforehand to be vain or not. -/
def Foretold (vain : Nat → Bool) (t : Traffic) : Prop :=
  ∀ i x, t.ingestions[i]? = some x → x.load? = none → vain i = x.isVain

theorem Foretold.of_steps {steps : List TrafficStep} (h : steps.foldlM step t = some t')
    (hforetold : Foretold vain t') : Foretold vain t := by
  induction steps generalizing t with
  | nil => exact Option.some.inj h ▸ hforetold
  | cons s rest ih =>
    obtain ⟨next, hnext, hrest⟩ := Option.bind_eq_some_iff.1 h
    exact fun i x hx hload => ih hrest i x (getElem?_of_step hnext hx hload) hload

/-- In hindsight it is known which ingestions are vain. -/
theorem foretold_vainIn (t : Traffic) : Foretold t.vainIn t := by
  intro i x hx _
  rw [vainIn, hx]
  rfl

/-! ## One step -/

/-- The same events without the vain ingestions, and with the marks of the others. -/
def without (t : Traffic) (vain : Nat → Bool) (ids : List RunId) : Traffic where
  index := { t.index with inFlight := ids }
  ingestions := pick (fun i => !vain i) 0 t.ingestions
  plans := t.plans
  told := t.told

section Step

variable {ids : List RunId} {hash : NameHash} {shards : Nat}

/-- An ingestion that can begin can also begin if there are fewer marks. -/
theorem begin_of_subset {ix begun : Index} {run : Run} (h : ix.begin run = .ok begun)
    (hids : ids ⊆ ix.inFlight) : Index.begin { ix with inFlight := ids } run =
      .ok { ix with inFlight := run.id :: ids } := by
  have hmark := fun hid => (Index.begin_eq_ok h).2 (hids hid)
  have hres := (Index.begin_eq_ok h).1
  have hnil : run.isNil = false := by
    rw [Index.begin] at h
    split at h
    · cases h
    · next hnil => exact Bool.eq_false_iff.2 hnil
  rw [Index.begin_of_not_nil hnil, if_neg (Bool.eq_false_iff.1 hres), if_neg hmark]

/-- The marks of the others do not have the run of a vain ingestion that waits. -/
theorem not_mem_of_vain (ht : Marked t.index t.loads)
    (hu : Marked (t.without vain ids).index (t.without vain ids).loads) {i : Nat} {x : Ingestion}
    {id : RunId} (hx : t.ingestions[i]? = some x) (hid : x.load? = some id) (hvain : vain i = true) :
    id ∉ ids := by
  obtain ⟨before, after, hsplit, hset⟩ := exists_split hx
  -- The picked ingestions stay the same if this one waits no longer.
  have hsub : (pick (fun i => !vain i) 0 t.ingestions).Sublist
      (before ++ ⟨x.run, .dropped⟩ :: after) := by
    rw [← hset ⟨x.run, .dropped⟩, ← pick_set_of_not_picked (l := t.ingestions) (i := i)]
    · exact pick_sublist
    · simp [hvain]
  have hloads : (t.without vain ids).loads.Sublist
      (before.filterMap Ingestion.load? ++ after.filterMap Ingestion.load?) := by
    have := hsub.filterMap Ingestion.load?
    rwa [List.filterMap_append, List.filterMap_cons] at this
  have hnodup := ht.nodup
  rw [loads_split hsplit, hid] at hnodup
  intro hmem
  exact (List.nodup_cons.1 (List.nodup_middle.1 hnodup)).1
    (hloads.subset ((hu.mem_inFlight_iff id).1 hmem))

/-- A mark that is not among some marks may be taken away. -/
theorem sublist_abandon (hids : ids.Sublist t.index.inFlight) {id : RunId} (hid : id ∉ ids) :
    ids.Sublist (t.index.abandon id).inFlight := by
  have hkept : ids.filter (· ≠ id) = ids :=
    List.filter_eq_self.2 fun x hx => decide_eq_true fun heq => hid (heq ▸ hx)
  rw [← hkept]
  exact hids.filter _

/-- An ingestion that is not vain is still there. -/
theorem getElem?_without {i : Nat} {x : Ingestion} (hx : t.ingestions[i]? = some x)
    (hvain : ¬ vain i = true) :
    (t.without vain ids).ingestions[TrafficStep.place vain i]? = some x := by
  refine getElem?_pick (q := fun i => !vain i) hx ?_
  simpa using hvain

/-- What becomes of an ingestion that is not vain becomes of it without the vain ones, too. -/
theorem without_set_of_spared {index : Index} {i : Nat} {x y : Ingestion} {told : List IndexEvent}
    {ids' : List RunId} (hx : t.ingestions[i]? = some x) (hvain : ¬ vain i = true) :
    ({ t with index, ingestions := t.ingestions.set i y, told } : Traffic).without vain ids' =
      { t.without vain ids with
        index := { index with inFlight := ids' }
        ingestions := (t.without vain ids).ingestions.set (TrafficStep.place vain i) y
        told } := by
  have hpick : pick (fun i => !vain i) 0 (t.ingestions.set i y) =
      (t.without vain ids).ingestions.set (TrafficStep.place vain i) y := by
    refine pick_set_of_picked (q := fun i => !vain i) (List.getElem?_eq_some_iff.1 hx).1 ?_
    simpa using hvain
  rw [without, hpick]
  rfl

/-- Of what becomes of a vain ingestion nothing is left, unless it changes more than marks. -/
theorem without_set_of_vain {index : Index} {i : Nat} (hvain : vain i = true) (x : Ingestion)
    (hindex : { index with inFlight := ids } = { t.index with inFlight := ids }) :
    ({ t with index, ingestions := t.ingestions.set i x } : Traffic).without vain ids =
      t.without vain ids := by
  have hpick := pick_set_of_not_picked (q := fun i => !vain i) (n := 0) (i := i) (l := t.ingestions)
    (y := x) (by simp [hvain])
  simp only [without, hpick, hindex]

/-- A vain ingestion that starts does not show. -/
theorem without_concat_of_vain {index : Index} (hvain : vain t.ingestions.length = true)
    (x : Ingestion) (hindex : { index with inFlight := ids } = { t.index with inFlight := ids }) :
    ({ t with index, ingestions := t.ingestions ++ [x] } : Traffic).without vain ids =
      t.without vain ids := by
  have hpick : pick (fun i => !vain i) 0 (t.ingestions ++ [x]) =
      pick (fun i => !vain i) 0 t.ingestions := by
    rw [pick_concat, if_neg (by simp [hvain])]
  simp only [without, hpick, hindex]

variable (ht : Orderly hash shards t) (hu : Orderly hash shards (t.without vain ids))
  (hids : ids.Sublist t.index.inFlight) (hforetold : Foretold vain t')

include hids hforetold

theorem step_start_without {run : Run} (hs : t.step (.start run) = some t') :
    ∃ ids', ids'.Sublist t'.index.inFlight ∧
      if vain t.ingestions.length then t'.without vain ids' = t.without vain ids
      else (t.without vain ids).step (.start run) = some (t'.without vain ids') := by
  rw [step] at hs
  split at hs
  · next e _ =>
    obtain rfl := Option.some.inj hs
    have hvain : vain t.ingestions.length = true :=
      hforetold _ ⟨run, .ended (.error e)⟩ List.getElem?_concat_length rfl
    refine ⟨ids, hids, ?_⟩
    rw [if_pos hvain]
    exact without_concat_of_vain hvain _ rfl
  · next begun hbegin =>
    obtain rfl := Option.some.inj hs
    obtain rfl := Chronicle.begin_eq hbegin
    by_cases hvain : vain t.ingestions.length = true
    · refine ⟨ids, hids.cons _, ?_⟩
      rw [if_pos hvain]
      exact without_concat_of_vain hvain _ rfl
    · refine ⟨run.id :: ids, hids.cons_cons _, ?_⟩
      have hbegin' : (t.without vain ids).index.begin run = _ := begin_of_subset hbegin hids.subset
      rw [if_neg hvain, step, hbegin']
      simp only [without, pick_concat, hvain, Bool.not_false, if_true]

theorem step_arrive_without {i : Nat} {loaded : Loaded}
    (hs : t.step (.arrive i loaded) = some t') :
    ∃ ids', ids'.Sublist t'.index.inFlight ∧
      if vain i then t'.without vain ids' = t.without vain ids
      else (t.without vain ids).step (.arrive (TrafficStep.place vain i) loaded) =
        some (t'.without vain ids') := by
  rw [step] at hs
  split at hs
  · next run hi =>
    obtain rfl := Option.some.inj hs
    refine ⟨ids, hids, ?_⟩
    by_cases hvain : vain i = true
    · rw [if_pos hvain]
      exact without_set_of_vain hvain _ rfl
    · rw [if_neg hvain, step, getElem?_without hi hvain, without_set_of_spared hi hvain]
      rfl
  · cases hs

include ht hu

theorem step_finish_without {i : Nat} (hs : t.step (.finish i) = some t') :
    ∃ ids', ids'.Sublist t'.index.inFlight ∧
      if vain i then t'.without vain ids' = t.without vain ids
      else (t.without vain ids).step (.finish (TrafficStep.place vain i)) =
        some (t'.without vain ids') := by
  rw [step] at hs
  split at hs
  · next run loaded hi =>
    have hlength := (List.getElem?_eq_some_iff.1 hi).1
    have hload : run.id ∈ t.loads := List.mem_filterMap.2 ⟨_, List.mem_of_getElem? hi, rfl⟩
    have hres := ht.marked.absent _ hload
    rcases ht.inStep.deliver_cases hres loaded with
      ⟨e, hloaded, hdeliver⟩ | ⟨staged, hloaded, hdeliver⟩
    · rw [hdeliver] at hs
      obtain rfl := Option.some.inj hs
      have hvain : vain i = true :=
        hforetold i ⟨run, .ended (.error e)⟩ (List.getElem?_set_self hlength) rfl
      have hid : run.id ∉ ids := not_mem_of_vain ht.marked hu.marked hi rfl hvain
      refine ⟨ids, ?_, ?_⟩
      · exact sublist_abandon hids hid
      · rw [if_pos hvain]
        exact without_set_of_vain hvain _ rfl
    · rw [hdeliver] at hs
      obtain rfl := Option.some.inj hs
      have hvain : ¬ vain i = true := Bool.eq_false_iff.1 <|
        hforetold i ⟨run, .ended (.ok ())⟩ (List.getElem?_set_self hlength) rfl
      refine ⟨ids.filter (· ≠ run.id), hids.filter _, ?_⟩
      -- The load comes to the same, and so the run can be published with the other marks, too.
      have hdeliver' : (t.without vain ids).index.deliver run loaded =
          (.ok (), ((t.without vain ids).index.withRun run staged).abandon run.id) := by
        rcases hu.inStep.deliver_cases hres loaded with
          ⟨e, hloaded', -⟩ | ⟨staged', hloaded', hdeliver'⟩
        · cases hloaded.symm.trans hloaded'
        · obtain rfl : staged = staged' := Except.ok.inj (hloaded.symm.trans hloaded')
          exact hdeliver'
      rw [if_neg hvain, step, getElem?_without hi hvain]
      simp only [hdeliver']
      rw [without_set_of_spared hi hvain]
      rfl
  · cases hs

theorem step_drop_without {i : Nat} (hs : t.step (.drop i) = some t') :
    ∃ ids', ids'.Sublist t'.index.inFlight ∧
      if vain i then t'.without vain ids' = t.without vain ids
      else (t.without vain ids).step (.drop (TrafficStep.place vain i)) =
        some (t'.without vain ids') := by
  -- A dropped ingestion is vain, so there is no such step to take.
  have hdropped {run : Run} {phase : IngestPhase} (hi : t.ingestions[i]? = some ⟨run, phase⟩)
      (hload : Ingestion.load? ⟨run, phase⟩ = some run.id)
      (hs : some { t with
        index := t.index.abandon run.id, ingestions := t.ingestions.set i ⟨run, .dropped⟩ } =
          some t') :
      ids.Sublist t'.index.inFlight ∧ vain i = true ∧
        t'.without vain ids = t.without vain ids := by
    obtain rfl := Option.some.inj hs
    have hvain : vain i = true := hforetold i ⟨run, .dropped⟩
      (List.getElem?_set_self (List.getElem?_eq_some_iff.1 hi).1) rfl
    have hid : run.id ∉ ids := not_mem_of_vain ht.marked hu.marked hi hload hvain
    exact ⟨sublist_abandon hids hid, hvain, without_set_of_vain hvain _ rfl⟩
  rw [step] at hs
  split at hs
  · next run hi =>
    obtain ⟨hsub, hvain, heq⟩ := hdropped hi rfl hs
    exact ⟨ids, hsub, by rwa [if_pos hvain]⟩
  · next run loaded hi =>
    obtain ⟨hsub, hvain, heq⟩ := hdropped hi rfl hs
    exact ⟨ids, hsub, by rwa [if_pos hvain]⟩
  · cases hs

omit hforetold in
/-- Evicting the oldest runs is the same with other marks. -/
theorem evicted_without (count : Nat) :
    ids.Sublist (t.evicted (t.index.evictOldest count)).index.inFlight ∧
      (t.without vain ids).evicted ((t.without vain ids).index.evictOldest count) =
        (t.evicted (t.index.evictOldest count)).without vain ids := by
  have holdest : (t.without vain ids).index.oldest count = t.index.oldest count := rfl
  rw [hu.inStep.evictOldest_eq, ht.inStep.evictOldest_eq, holdest]
  cases t.index.oldest count with
  | nil => exact ⟨hids, rfl⟩
  | cons id rest => exact ⟨hids, rfl⟩

/-- Without the vain ingestions, one step is the same step or none. -/
theorem step_without {s : TrafficStep} (hs : t.step s = some t') :
    ∃ ids', ids'.Sublist t'.index.inFlight ∧
      if (s.ingestion? t.ingestions.length).any vain then
        t'.without vain ids' = t.without vain ids
      else (t.without vain ids).step (s.renumber (TrafficStep.place vain)) =
        some (t'.without vain ids') := by
  cases s with
  | start run => exact step_start_without hids hforetold hs
  | arrive i loaded => exact step_arrive_without hids hforetold hs
  | finish i => exact step_finish_without ht hu hids hforetold hs
  | drop i => exact step_drop_without ht hu hids hforetold hs
  | evict fraction =>
    obtain rfl := Option.some.inj hs
    have hempty : (t.without vain ids).index.isEmpty = t.index.isEmpty := rfl
    have hsize : (t.without vain ids).index.size = t.index.size := rfl
    show ∃ ids', _ ∧ some ((t.without vain ids).evicted ((t.without vain ids).index.evict fraction)) = _
    rw [Index.evict, Index.evict, hempty, hsize]
    split
    · exact ⟨ids, hids, rfl⟩
    · obtain ⟨hsub, heq⟩ := evicted_without ht hu hids (Index.evictionCount t.index.size fraction)
      exact ⟨ids, hsub, congrArg some heq⟩
  | evictAny =>
    obtain rfl := Option.some.inj hs
    have hempty : (t.without vain ids).index.isEmpty = t.index.isEmpty := rfl
    show ∃ ids', _ ∧ some ((t.without vain ids).evicted (t.without vain ids).index.evictAny) = _
    rw [Index.evictAny, Index.evictAny, hempty]
    split
    · exact ⟨ids, hids, rfl⟩
    · obtain ⟨hsub, heq⟩ := evicted_without ht hu hids 1
      exact ⟨ids, hsub, congrArg some heq⟩
  | bind columns query =>
    obtain rfl := Option.some.inj hs
    exact ⟨ids, hids, rfl⟩

end Step

/-! ## Whole plays -/

theorem nodup_of_change (h : Change t t') (hnodup : t.index.inFlight.Nodup) :
    t'.index.inFlight.Nodup := by
  cases h with
  | begun _ hmark => exact List.nodup_cons.2 ⟨hmark, hnodup⟩
  | published staged _ => exact hnodup.filter _
  | left _ _ _ _ => exact hnodup.filter _
  | refused | arrived | evicted | kept => exact hnodup

section Play

variable {ids : List RunId} {hash : NameHash} {shards : Nat}

theorem steps_without {steps : List TrafficStep} (ht : Orderly hash shards t)
    (hu : Orderly hash shards (t.without vain ids)) (hids : ids.Sublist t.index.inFlight)
    (hs : steps.foldlM step t = some t') (hforetold : Foretold vain t') :
    ∃ ids', ids'.Sublist t'.index.inFlight ∧
      (TrafficStep.without vain t.ingestions.length steps).foldlM step (t.without vain ids) =
        some (t'.without vain ids') := by
  induction steps generalizing t ids with
  | nil =>
    obtain rfl := Option.some.inj hs
    exact ⟨ids, hids, rfl⟩
  | cons s rest ih =>
    obtain ⟨next, hnext, hrest⟩ := Option.bind_eq_some_iff.1 hs
    obtain ⟨ids', hids', hstep⟩ :=
      step_without ht hu hids (hforetold.of_steps hrest) hnext
    rw [TrafficStep.without, ← length_of_step hnext]
    split at hstep
    · next hvain =>
      rw [if_pos hvain, ← hstep]
      exact ih (ht.of_step hnext) (hstep ▸ hu) hids' hrest
    · next hvain =>
      rw [if_neg hvain, List.foldlM_cons, hstep]
      exact ih (ht.of_step hnext) (hu.of_step hstep) hids' hrest

/-- What is left without the vain ingestions are those that have not come to nothing. -/
theorem pick_vain_eq_filter (t : Traffic) :
    pick (fun i => !t.vainIn i) 0 t.ingestions = t.ingestions.filter fun x => !x.isVain :=
  pick_eq_filter fun i x hx => by
    rw [Nat.zero_add, vainIn, hx]
    rfl

/-- Once every vain ingestion has ended, the marks are those of the others. -/
theorem marks_without (ht : Marked t.index t.loads) (hnodup : t.index.inFlight.Nodup)
    (hu : Marked (t.without t.vainIn ids).index (t.without t.vainIn ids).loads)
    (hids : ids.Sublist t.index.inFlight) : ids = t.index.inFlight := by
  have hloads : (t.without t.vainIn ids).loads = t.loads := by
    rw [loads, without, pick_vain_eq_filter, List.filterMap_filter]
    refine List.filterMap_congr fun x _ => ?_
    obtain ⟨run, phase⟩ := x
    cases phase with
    | ended outcome => cases outcome <;> rfl
    | _ => rfl
  have hsubset : t.index.inFlight ⊆ ids := fun id hid =>
    (hu.mem_inFlight_iff id).2 (hloads ▸ (ht.mem_inFlight_iff id).1 hid)
  exact hids.eq_of_length_le (List.subperm_of_subset hnodup hsubset).length_le

/-- Before the first step: an empty index with some shards. -/
def start (hash : NameHash) (shards : Nat) : Traffic := ⟨(Chronicle.start hash shards).index, [], [], []⟩

theorem play_eq_some_iff {steps : List TrafficStep} :
    play hash shards steps = some t ↔ 0 < shards ∧ steps.foldlM step (start hash shards) = some t := by
  unfold play Index.create
  by_cases hshards : shards = 0
  · simp [hshards]
  · rw [if_neg hshards]
    exact ⟨fun h => ⟨Nat.pos_of_ne_zero hshards, h⟩, fun h => h.2⟩

/-- A play without all that has come to nothing in it is one, too, and ends with the same index, the
same ingestions but for those, and the same plans and notices. -/
theorem play_without_vain {steps : List TrafficStep} (h : play hash shards steps = some t) :
    ∃ u, play hash shards (TrafficStep.without t.vainIn 0 steps) = some u ∧ u.index = t.index ∧
      u.ingestions = t.ingestions.filter (fun x => !x.isVain) ∧ u.plans = t.plans ∧
        u.told = t.told := by
  obtain ⟨hshards, hsteps⟩ := play_eq_some_iff.1 h
  have hstart : Orderly hash shards (start hash shards) :=
    play_orderly (play_eq_some_iff.2 ⟨hshards, rfl⟩ : play hash shards [] = _)
  obtain ⟨ids, hids, hwithout⟩ :=
    steps_without hstart hstart (List.nil_sublist _) hsteps (foretold_vainIn t)
  have hplay : play hash shards (TrafficStep.without t.vainIn 0 steps) =
      some (t.without t.vainIn ids) := play_eq_some_iff.2 ⟨hshards, hwithout⟩
  have hnodup : t.index.inFlight.Nodup := by
    refine (Outcome.of_foldlM (P := fun t => Orderly hash shards t ∧ t.index.inFlight.Nodup)
      hsteps ⟨hstart, List.nodup_nil⟩ ?_).2
    exact fun t s t' _ ht hs => ⟨ht.1.of_step hs, nodup_of_change (ht.1.change hs) ht.2⟩
  have hmarks := marks_without (play_orderly h).marked hnodup (play_orderly hplay).marked hids
  refine ⟨_, hplay, ?_, pick_vain_eq_filter t, rfl, rfl⟩
  rw [hmarks]
  rfl

end Play

end Traffic

end ResultSearch
