import Mathlib.Order.Bounds.Basic
import ResultSearch.Poll
import ResultSearch.Proofs.Index.Failures

/-!
# The account of a pass

A pass offers its runs to the index one after the other, so that what becomes of a run depends on
what became of those before it. The account of the pass remembers only whether the last run was
ingested; still it finds the first run that was ingested after one that was not.

* `Fate`: what becomes of a run.
* `PollPass.Accounts`, `Accounts.record`: what an account says of the fates, and that one more run
  keeps it right.
* `Index.Offer`: what an index can do with one run.
* `Index.offerAll`: runs that are offered one after the other; `PollPass.run_eq`, `pollOnce_eq`: a
  pass and a poll are that.
* `Index.Passed`, `Passed.concat`: what becomes of runs that are offered, and of one more.
* `Chronicle.Consistent.passed_offerAll`: so it is for any runs and any index.
-/

namespace ResultSearch

/-- What becomes of a run that is offered to an index. -/
inductive Fate where
  | ingested
  | skipped
  | failed
  deriving DecidableEq

namespace Fate

/-- The fate of a run whose ingestion has this outcome. -/
def of : Except Error Unit → Fate
  | .ok () => .ingested
  | .error e => if e.isExpectedSkip then .skipped else .failed

theorem of_error_ne_ingested (e : Error) : of (.error e) ≠ .ingested := by
  rw [of]
  split <;> simp

/-- Every run has one of the three fates. -/
theorem count_add_count_add_count (fates : List Fate) :
    fates.count .ingested + fates.count .skipped + fates.count .failed = fates.length := by
  induction fates with
  | nil => rfl
  | cons fate rest ih => cases fate <;> simp <;> omega

/-! ## Runs that come too late -/

/-- The run at a position was ingested although one before it was not. -/
def IsLate (fates : List Fate) (i : Nat) : Prop :=
  fates[i]? = some .ingested ∧ ∃ j < i, fates[j]? ≠ some .ingested

/-- The position, if there is one, is the first at which a run came too late. -/
def FirstLate (fates : List Fate) : Option Nat → Prop
  | some i => IsLeast {i | IsLate fates i} i
  | none => ∀ i, ¬ IsLate fates i

variable {fates : List Fate} {fate : Fate} {first : Option Nat} {i : Nat}

theorem IsLate.lt_length (h : IsLate fates i) : i < fates.length :=
  (List.getElem?_eq_some_iff.1 h.1).1

/-- One more fate changes nothing for the runs before. -/
theorem isLate_concat_of_lt (h : i < fates.length) :
    IsLate (fates ++ [fate]) i ↔ IsLate fates i := by
  have hsame {j : Nat} (hj : j < fates.length) : (fates ++ [fate])[j]? = fates[j]? :=
    List.getElem?_append_left hj
  rw [IsLate, IsLate, hsame h]
  refine and_congr_right fun _ => exists_congr fun j => and_congr_right fun hj => ?_
  rw [hsame (Nat.lt_trans hj h)]

theorem IsLate.lt_or_eq (h : IsLate (fates ++ [fate]) i) : i < fates.length ∨ i = fates.length := by
  have := h.lt_length
  simp at this
  omega

namespace FirstLate

theorem eq_some_iff (h : FirstLate fates first) :
    first = some i ↔ IsLeast {i | IsLate fates i} i := by
  cases first with
  | none => exact iff_of_false nofun fun hleast => h i hleast.1
  | some k =>
    constructor
    · rintro ⟨⟩
      exact h
    · exact fun hleast => congrArg some (IsLeast.unique h hleast)

theorem eq_none_iff (h : FirstLate fates first) : first = none ↔ ∀ i, ¬ IsLate fates i := by
  cases first with
  | none => exact iff_of_true rfl h
  | some k => exact iff_of_false nofun fun hnone => hnone k h.1

/-- Once a run has come too late it stays the first. -/
theorem concat_some (h : FirstLate fates (some i)) (fate : Fate) :
    FirstLate (fates ++ [fate]) (some i) := by
  have hi : i < fates.length := IsLate.lt_length h.1
  refine ⟨(isLate_concat_of_lt hi).2 h.1, fun j hj => ?_⟩
  rcases hj.lt_or_eq with hlt | rfl
  · exact h.2 ((isLate_concat_of_lt hlt).1 hj)
  · exact Nat.le_of_lt hi

/-- A run that does not come too late changes nothing. -/
theorem concat_of_not (h : FirstLate fates first)
    (hnot : ¬ IsLate (fates ++ [fate]) fates.length) : FirstLate (fates ++ [fate]) first := by
  cases first with
  | some k => exact h.concat_some fate
  | none =>
    intro i hi
    rcases hi.lt_or_eq with hlt | rfl
    · exact h i ((isLate_concat_of_lt hlt).1 hi)
    · exact hnot hi

/-- A run that comes too late is the first if none has before. -/
theorem concat_of_isLate (h : FirstLate fates first)
    (hlate : IsLate (fates ++ [fate]) fates.length) :
    FirstLate (fates ++ [fate]) (first.or (some fates.length)) := by
  cases first with
  | some k => exact h.concat_some fate
  | none =>
    refine ⟨hlate, fun i hi => ?_⟩
    rcases hi.lt_or_eq with hlt | rfl
    · exact absurd ((isLate_concat_of_lt hlt).1 hi) (h i)
    · exact Nat.le_refl _

/-- If no run has come too late and the last was ingested then all were. -/
theorem forall_ingested (h : FirstLate fates none)
    (hlast : ∀ fate ∈ fates.getLast?, fate = .ingested) {j : Nat} (hj : j < fates.length) :
    fates[j]? = some .ingested := by
  by_contra hnot
  have hend : fates[fates.length - 1]? = some .ingested := by
    have hne : fates ≠ [] := List.ne_nil_of_length_pos (by omega)
    rw [← List.getLast?_eq_getElem?, List.getLast?_eq_some_getLast hne,
      hlast _ (List.getLast?_eq_some_getLast hne)]
  have hne : j ≠ fates.length - 1 := fun heq => hnot (heq ▸ hend)
  exact h _ ⟨hend, j, by omega, hnot⟩

end FirstLate

end Fate

/-! ## The account -/

namespace PollPass

/-- The account of a pass over so many runs is right for the fates of those that were offered. -/
structure Accounts (p : PollPass) (fetched : Nat) (fates : List Fate) : Prop where
  fetched_eq : p.iteration.fetched = fetched
  position_eq : p.position = fates.length
  ingested_eq : p.iteration.ingested = fates.count .ingested
  skipped_eq : p.iteration.skipped = fates.count .skipped
  failed_eq : p.iteration.failed = fates.count .failed
  previous_iff : p.previousIngested = true ↔ ∀ fate ∈ fates.getLast?, fate = .ingested
  firstLate : Fate.FirstLate fates p.iteration.ingestedAfter

namespace Accounts

variable {p : PollPass} {fetched : Nat} {fates : List Fate}

theorem ofRuns (runs : List Run) : (PollPass.ofRuns runs).Accounts runs.length [] where
  fetched_eq := rfl
  position_eq := rfl
  ingested_eq := rfl
  skipped_eq := rfl
  failed_eq := rfl
  previous_iff := by simp [PollPass.ofRuns]
  firstLate := fun i hi => absurd hi.lt_length (Nat.not_lt_zero i)

/-- A run that is ingested comes too late just if one before it was not ingested. If none has come
too late so far it is enough to know this of the last. -/
theorem firstLate_ingested (h : p.Accounts fetched fates) :
    Fate.FirstLate (fates ++ [.ingested]) (if p.previousIngested then p.iteration.ingestedAfter
      else p.iteration.ingestedAfter.or (some p.position)) := by
  have hfirst := h.firstLate
  split
  · next hprevious =>
    cases hafter : p.iteration.ingestedAfter with
    | some k => exact (hafter ▸ hfirst).concat_some _
    | none =>
      rw [hafter] at hfirst
      refine hfirst.concat_of_not ?_
      rintro ⟨-, j, hj, hnot⟩
      rw [List.getElem?_append_left hj] at hnot
      exact hnot (hfirst.forall_ingested (h.previous_iff.1 hprevious) hj)
  · next hprevious =>
    rw [h.position_eq]
    refine hfirst.concat_of_isLate ⟨List.getElem?_concat_length, fates.length - 1, ?_⟩
    have hlast : ∃ fate ∈ fates.getLast?, fate ≠ .ingested := by
      by_contra hall
      push Not at hall
      exact hprevious (h.previous_iff.2 hall)
    obtain ⟨fate, hfate, hnot⟩ := hlast
    have hne : fates ≠ [] := by
      rintro rfl
      cases hfate
    have hpos := List.length_pos_of_ne_nil hne
    have hend : fates[fates.length - 1]? = some fate := List.getLast?_eq_getElem? ▸ hfate
    refine ⟨by omega, ?_⟩
    rw [List.getElem?_append_left (by omega), hend]
    exact fun heq => hnot (Option.some.inj heq)

/-- One more run keeps the account right. -/
theorem record (h : p.Accounts fetched fates) (outcome : Except Error Unit) :
    (p.record outcome).Accounts fetched (fates ++ [.of outcome]) := by
  cases outcome with
  | ok =>
    exact {
      fetched_eq := h.fetched_eq
      position_eq := by simp [PollPass.record, recordIngested, h.position_eq]
      ingested_eq := by simp [PollPass.record, recordIngested, Fate.of, h.ingested_eq]
      skipped_eq := by simp [PollPass.record, recordIngested, Fate.of, h.skipped_eq]
      failed_eq := by simp [PollPass.record, recordIngested, Fate.of, h.failed_eq]
      previous_iff := by simp [PollPass.record, recordIngested, Fate.of]
      firstLate := h.firstLate_ingested }
  | error e =>
    have hfate := Fate.of_error_ne_ingested e
    have hnot : ¬ Fate.IsLate (fates ++ [.of (.error e)]) fates.length := by
      rintro ⟨heq, -⟩
      rw [List.getElem?_concat_length] at heq
      exact hfate (Option.some.inj heq)
    have hfirst := h.firstLate.concat_of_not hnot
    cases hskip : e.isExpectedSkip <;> exact {
      fetched_eq := by simp [PollPass.record, hskip, h.fetched_eq]
      position_eq := by simp [PollPass.record, h.position_eq]
      ingested_eq := by simp [PollPass.record, Fate.of, hskip, h.ingested_eq]
      skipped_eq := by simp [PollPass.record, Fate.of, hskip, h.skipped_eq]
      failed_eq := by simp [PollPass.record, Fate.of, hskip, h.failed_eq]
      previous_iff := by simp [PollPass.record, hfate]
      firstLate := by simpa [PollPass.record, hskip] using hfirst }

/-- So do all the runs of a pass. -/
theorem foldl (h : p.Accounts fetched fates) (outcomes : List (Except Error Unit)) :
    (outcomes.foldl PollPass.record p).Accounts fetched (fates ++ outcomes.map .of) := by
  induction outcomes generalizing p fates with
  | nil => simpa using h
  | cons outcome rest ih =>
    rw [List.foldl_cons, List.map_cons, List.append_cons]
    exact ih (h.record outcome)

end Accounts

end PollPass

/-! ## Offering a run -/

/-- The load of a run fails with an error that is for an index to give. -/
def Loaded.IsSkip (loaded : Loaded) : Prop := ∃ e, loaded = .error e ∧ e.isExpectedSkip = true

/-- A report that cannot be staged is no reason to skip its run. -/
theorem Loaded.isExpectedSkip_iff {hash : NameHash} {loaded : Loaded} {e : Error}
    (h : loaded.bind (Staged.stage hash) = .error e) :
    e.isExpectedSkip = true ↔ loaded.IsSkip := by
  cases loaded with
  | error e' =>
    obtain rfl : e' = e := Except.error.inj h
    simp [IsSkip]
  | ok report =>
    obtain ⟨-, -, s, -, -, rfl⟩ := Staged.stage_eq_error h
    simp [IsSkip, Error.isExpectedSkip]

namespace Index

variable {ix ix' : Index} {r : Run} {loaded : Loaded} {outcome : Except Error Unit}

/-- What an index can do with a run that it is offered. -/
inductive Offer (ix : Index) (r : Run) (loaded : Loaded) : Except Error Unit → Index → Prop
  | nil : r.id = 0 → Offer ix r loaded (.error .nilRun) ix
  | refused {e : Error} : r.id ≠ 0 → r.id ∈ ix.residentIds ∨ r.id ∈ ix.inFlight →
      e.isExpectedSkip = true → Offer ix r loaded (.error e) ix
  | failed {e : Error} : r.id ≠ 0 → r.id ∉ ix.residentIds → r.id ∉ ix.inFlight →
      loaded.bind (Staged.stage ix.hash) = .error e → Offer ix r loaded (.error e) ix
  | done {staged : Staged} : r.id ≠ 0 → r.id ∉ ix.residentIds → r.id ∉ ix.inFlight →
      loaded.bind (Staged.stage ix.hash) = .ok staged →
      Offer ix r loaded (.ok ()) (ix.withRun r staged)

/-- A whole ingestion does one of these. -/
theorem offer_ingest (h : Chronicle.InStep ix) (r : Run) (loaded : Loaded) :
    ix.Offer r loaded (ix.ingest (fun _ => loaded) r).1 (ix.ingest (fun _ => loaded) r).2 := by
  rw [h.ingest_eq]
  by_cases hnil : r.id = 0
  · have hbegin : ix.begin r = .error .nilRun := by simp [begin, Run.isNil, hnil]
    rw [hbegin]
    exact .nil hnil
  rw [begin_of_not_nil (by simpa [Run.isNil] using hnil)]
  by_cases hres : ix.resident.contains r.id = true
  · rw [if_pos hres]
    exact .refused hnil (.inl (mem_residentIds.2 hres)) rfl
  rw [if_neg hres]
  have hres : r.id ∉ ix.residentIds := fun hid => hres (mem_residentIds.1 hid)
  by_cases hmark : r.id ∈ ix.inFlight
  · rw [if_pos hmark]
    exact .refused hnil (.inr hmark) rfl
  rw [if_neg hmark]
  cases hloaded : loaded.bind (Staged.stage ix.hash) with
  | ok staged => exact .done hnil hres hmark hloaded
  | error e => exact .failed hnil hres hmark hloaded

namespace Offer

theorem ingested_iff (h : ix.Offer r loaded outcome ix') : Fate.of outcome = .ingested ↔
    r.id ≠ 0 ∧ r.id ∉ ix.residentIds ∧ r.id ∉ ix.inFlight ∧
      ∃ staged, loaded.bind (Staged.stage ix.hash) = .ok staged := by
  cases h with
  | nil hnil => simp [Fate.of, hnil, Error.isExpectedSkip]
  | refused hid hheld hskip =>
    rw [Fate.of, if_pos hskip]
    exact iff_of_false nofun fun ⟨_, hres, hmark, _⟩ => hheld.elim hres hmark
  | failed hid hres hmark hloaded =>
    refine iff_of_false (Fate.of_error_ne_ingested _) fun ⟨_, _, _, staged, hstaged⟩ => ?_
    cases hloaded.symm.trans hstaged
  | done hid hres hmark hloaded => exact iff_of_true rfl ⟨hid, hres, hmark, _, hloaded⟩

theorem skipped_iff (h : ix.Offer r loaded outcome ix') : Fate.of outcome = .skipped ↔
    r.id ≠ 0 ∧ (r.id ∈ ix.residentIds ∨ r.id ∈ ix.inFlight ∨ loaded.IsSkip) := by
  cases h with
  | nil hnil => simp [Fate.of, hnil, Error.isExpectedSkip]
  | refused hid hheld hskip =>
    rw [Fate.of, if_pos hskip]
    exact iff_of_true rfl ⟨hid, hheld.imp_right .inl⟩
  | failed hid hres hmark hloaded =>
    have hskip := Loaded.isExpectedSkip_iff hloaded
    rw [Fate.of]
    split
    · next hsays => exact iff_of_true rfl ⟨hid, .inr (.inr (hskip.1 hsays))⟩
    · next hsays =>
      refine iff_of_false nofun fun ⟨_, hheld⟩ => ?_
      exact hheld.elim hres fun hheld => hheld.elim hmark fun hload => hsays (hskip.2 hload)
  | done hid hres hmark hloaded =>
    refine iff_of_false nofun fun ⟨_, hheld⟩ => ?_
    refine hheld.elim hres fun hheld => hheld.elim hmark ?_
    rintro ⟨e, rfl, -⟩
    cases hloaded

theorem mem_residentIds_iff (h : ix.Offer r loaded outcome ix') (id : RunId) :
    id ∈ ix'.residentIds ↔ id ∈ ix.residentIds ∨ (Fate.of outcome = .ingested ∧ r.id = id) := by
  have hsame (hfate : Fate.of outcome ≠ .ingested) :
      id ∈ ix.residentIds ↔ id ∈ ix.residentIds ∨ (Fate.of outcome = .ingested ∧ r.id = id) := by
    simp [hfate]
  cases h with
  | nil | refused | failed => exact hsame (Fate.of_error_ne_ingested _)
  | @done staged =>
    rw [residentIds_withRun, Finset.mem_insert, eq_comm, or_comm]
    simp [Fate.of]

/-- Nothing is changed but what is resident. -/
theorem frame (h : ix.Offer r loaded outcome ix') :
    ix'.hash = ix.hash ∧ ix'.inFlight = ix.inFlight := by
  cases h <;> exact ⟨rfl, rfl⟩

end Offer

/-! ## Offering many -/

/-- What becomes of runs that are offered one after the other, each with what its load comes to. -/
def offerAll : List (Run × Loaded) → Index → List (Except Error Unit) × Index
  | [], ix => ([], ix)
  | (r, loaded) :: rest, ix =>
    let (outcome, ix) := ix.ingest (fun _ => loaded) r
    let (outcomes, ix) := offerAll rest ix
    (outcome :: outcomes, ix)

theorem offerAll_concat (offers : List (Run × Loaded)) (r : Run) (loaded : Loaded) (ix : Index) :
    offerAll (offers ++ [(r, loaded)]) ix =
      let (outcomes, ix) := offerAll offers ix
      let (outcome, ix) := ix.ingest (fun _ => loaded) r
      (outcomes ++ [outcome], ix) := by
  induction offers generalizing ix with
  | nil => rfl
  | cons offer rest ih =>
    rw [List.cons_append, offerAll]
    dsimp only
    rw [ih]
    rfl

/-- A run with this id was ingested at some position before. -/
def IngestedBefore (offers : List (Run × Loaded)) (fates : List Fate) (i : Nat) (id : RunId) :
    Prop :=
  ∃ j < i, offers[j]?.map (fun o => o.1.id) = some id ∧ fates[j]? = some .ingested

section Concat

variable {offers : List (Run × Loaded)} {fates : List Fate} {fate : Fate} {i : Nat} {id : RunId}
  (hlength : fates.length = offers.length)

include hlength

theorem ingestedBefore_concat_of_le (h : i ≤ offers.length) :
    IngestedBefore (offers ++ [(r, loaded)]) (fates ++ [fate]) i id ↔
      IngestedBefore offers fates i id := by
  refine exists_congr fun j => and_congr_right fun hj => ?_
  rw [List.getElem?_append_left (by omega), List.getElem?_append_left (by omega)]

theorem ingestedBefore_concat :
    IngestedBefore (offers ++ [(r, loaded)]) (fates ++ [fate]) (offers.length + 1) id ↔
      IngestedBefore offers fates offers.length id ∨ (fate = .ingested ∧ r.id = id) := by
  have hlast : (offers ++ [(r, loaded)])[offers.length]?.map (fun o => o.1.id) = some r.id := by
    rw [List.getElem?_concat_length]
    rfl
  have hfate : (fates ++ [fate])[offers.length]? = some fate := by
    rw [← hlength, List.getElem?_concat_length]
  rw [← ingestedBefore_concat_of_le hlength (Nat.le_refl _)]
  constructor
  · rintro ⟨j, hj, hid, hingested⟩
    rcases Nat.lt_succ_iff_lt_or_eq.1 hj with hlt | rfl
    · exact .inl ⟨j, hlt, hid, hingested⟩
    · exact .inr ⟨Option.some.inj (hfate.symm.trans hingested),
        Option.some.inj (hlast.symm.trans hid)⟩
  · rintro (⟨j, hj, hbefore⟩ | ⟨rfl, rfl⟩)
    · exact ⟨j, Nat.lt_succ_of_lt hj, hbefore⟩
    · exact ⟨_, Nat.lt_succ_self _, hlast, hfate⟩

end Concat

/-- What becomes of runs that are offered, as far as it can be told from the index before and from
the runs that come before in the list. -/
structure Passed (ix : Index) (offers : List (Run × Loaded)) (fates : List Fate) (ix' : Index) :
    Prop where
  length_eq : fates.length = offers.length
  hash_eq : ix'.hash = ix.hash
  inFlight_eq : ix'.inFlight = ix.inFlight
  mem_residentIds_iff : ∀ id, id ∈ ix'.residentIds ↔
    id ∈ ix.residentIds ∨ IngestedBefore offers fates offers.length id
  ingested_iff : ∀ i r loaded, offers[i]? = some (r, loaded) → (fates[i]? = some .ingested ↔
    r.id ≠ 0 ∧ r.id ∉ ix.residentIds ∧ r.id ∉ ix.inFlight ∧ ¬ IngestedBefore offers fates i r.id ∧
      ∃ staged, loaded.bind (Staged.stage ix.hash) = .ok staged)
  skipped_iff : ∀ i r loaded, offers[i]? = some (r, loaded) → (fates[i]? = some .skipped ↔
    r.id ≠ 0 ∧ (r.id ∈ ix.residentIds ∨ r.id ∈ ix.inFlight ∨ IngestedBefore offers fates i r.id ∨
      loaded.IsSkip))

theorem Passed.nil (ix : Index) : ix.Passed [] [] ix where
  length_eq := rfl
  hash_eq := rfl
  inFlight_eq := rfl
  mem_residentIds_iff id := by simp [IngestedBefore]
  ingested_iff i r loaded h := by simp at h
  skipped_iff i r loaded h := by simp at h

/-- One more run that is offered. What became of the others it leaves as it was. -/
theorem Passed.concat {offers : List (Run × Loaded)} {fates : List Fate} {ix'' : Index}
    (h : ix.Passed offers fates ix') (hoffer : ix'.Offer r loaded outcome ix'') :
    ix.Passed (offers ++ [(r, loaded)]) (fates ++ [.of outcome]) ix'' := by
  obtain ⟨hhash, hmarks⟩ := hoffer.frame
  have hsplit {i : Nat} {x : Run} {l : Loaded} (hi : (offers ++ [(r, loaded)])[i]? = some (x, l)) :
      (i < offers.length ∧ offers[i]? = some (x, l)) ∨ (i = offers.length ∧ r = x ∧ loaded = l) := by
    rcases Nat.lt_trichotomy i offers.length with hlt | rfl | hlt
    · exact .inl ⟨hlt, List.getElem?_append_left hlt ▸ hi⟩
    · rw [List.getElem?_concat_length] at hi
      exact .inr ⟨rfl, Prod.mk.inj (Option.some.inj hi)⟩
    · rw [List.getElem?_eq_none (by simpa using Nat.succ_le_of_lt hlt)] at hi
      cases hi
  have hfate : (fates ++ [.of outcome])[offers.length]? = some (.of outcome) := by
    rw [← h.length_eq, List.getElem?_concat_length]
  refine {
    length_eq := by simp [h.length_eq]
    hash_eq := hhash.trans h.hash_eq
    inFlight_eq := hmarks.trans h.inFlight_eq
    mem_residentIds_iff := fun id => ?_
    ingested_iff := fun i x l hi => ?_
    skipped_iff := fun i x l hi => ?_ }
  · rw [hoffer.mem_residentIds_iff, h.mem_residentIds_iff, List.length_append, List.length_singleton,
      ingestedBefore_concat h.length_eq, or_assoc]
  · rcases hsplit hi with ⟨hlt, hi⟩ | ⟨rfl, rfl, rfl⟩
    · rw [List.getElem?_append_left (by rw [h.length_eq]; exact hlt), h.ingested_iff i x l hi,
        ingestedBefore_concat_of_le h.length_eq (Nat.le_of_lt hlt)]
    · rw [hfate, Option.some_inj, hoffer.ingested_iff, h.hash_eq, h.inFlight_eq,
        h.mem_residentIds_iff, ingestedBefore_concat_of_le h.length_eq (Nat.le_refl _)]
      tauto
  · rcases hsplit hi with ⟨hlt, hi⟩ | ⟨rfl, rfl, rfl⟩
    · rw [List.getElem?_append_left (by rw [h.length_eq]; exact hlt), h.skipped_iff i x l hi,
        ingestedBefore_concat_of_le h.length_eq (Nat.le_of_lt hlt)]
    · rw [hfate, Option.some_inj, hoffer.skipped_iff, h.inFlight_eq, h.mem_residentIds_iff,
        ingestedBefore_concat_of_le h.length_eq (Nat.le_refl _)]
      tauto

end Index

/-- However a run is counted, the pass goes on at the next position. -/
theorem PollPass.position_record (p : PollPass) (outcome : Except Error Unit) :
    (p.record outcome).position = p.position + 1 := by
  cases outcome <;> rfl

/-- A pass offers its runs one after the other and counts what becomes of them. -/
theorem PollPass.run_eq (load : Nat → Run → Loaded) (runs : List Run) (p : PollPass) (ix : Index) :
    PollPass.run load runs p ix =
      let (outcomes, ix) :=
        Index.offerAll (runs.mapIdx fun i r => (r, load (p.position + i) r)) ix
      (outcomes.foldl PollPass.record p, ix) := by
  induction runs generalizing p ix with
  | nil => rfl
  | cons r rest ih =>
    rw [List.mapIdx_cons, run]
    dsimp only
    rw [ih, position_record]
    simp only [Index.offerAll, List.foldl_cons, Nat.add_zero, Nat.add_assoc, Nat.add_comm 1]
    rfl

/-- A poll offers the runs that are listed, whatever their loads come to one by one. -/
theorem pollOnce_eq {load : Nat → Run → Loaded} {runs : List Run} {offers : List (Run × Loaded)}
    (hoffers : offers = runs.mapIdx fun i r => (r, load i r)) (ix : Index) :
    pollOnce load (.ok runs) ix =
      (((Index.offerAll offers ix).1.foldl PollPass.record
        (.ofRuns (offers.map Prod.fst))).iteration, (Index.offerAll offers ix).2) := by
  have hruns : offers.map Prod.fst = runs := by
    refine List.ext_getElem? fun i => ?_
    rw [hoffers, List.getElem?_map, List.getElem?_mapIdx, Option.map_map]
    exact Option.map_id_apply
  have hstart : (PollPass.ofRuns runs).position = 0 := rfl
  rw [pollOnce, PollPass.run_eq, hstart]
  simp only [Nat.zero_add]
  rw [← hoffers, ← hruns]

/-! ## A pass over any index -/

namespace Chronicle

variable {hash : NameHash} {count : Nat} {c : Chronicle}

/-- To offer runs is to ingest them one after the other. -/
theorem offerAll_eq_afterAll (c : Chronicle) (offers : List (Run × Loaded)) :
    (Index.offerAll offers c.index).2 =
      (c.afterAll (offers.map fun o => .ingest o.1 o.2)).index := by
  induction offers generalizing c with
  | nil => rfl
  | cons offer rest ih => exact ih (c.after (.ingest offer.1 offer.2))

theorem Consistent.passed_offerAll (h : Consistent hash count c) (offers : List (Run × Loaded)) :
    c.index.Passed offers ((Index.offerAll offers c.index).1.map Fate.of)
      (Index.offerAll offers c.index).2 := by
  induction offers using List.reverseRecOn with
  | nil => exact .nil c.index
  | append_singleton offers offer ih =>
    obtain ⟨r, loaded⟩ := offer
    have hstep : InStep (Index.offerAll offers c.index).2 := by
      rw [offerAll_eq_afterAll]
      exact (h.afterAll _).inStep
    rw [Index.offerAll_concat, List.map_append]
    exact ih.concat (Index.offer_ingest hstep r loaded)

end Chronicle

end ResultSearch
