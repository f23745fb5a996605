import ResultSearch.Proofs.Query.Folding
import ResultSearch.Proofs.Query.Meaning

/-!
# Demands that no run meets

`noRun` is the negation of `someRun`. Where each argument asks for a status in some run, `someRun`
holds if every argument is met by some run, and so `noRun` holds as soon as one argument is met by
no run. With a single argument that is the same as that no argument is met by any run; with several
it is less.

* `Query.asksStatus`: a demand on a status, or a disjunction of such.
* `holds_eq_any_single`: such a query holds over some runs if it holds in one of them.
* `holds_noRun`: what `noRun` says of such arguments.
* `verdict_noRun`: the same of the filter, and where it agrees with that no argument is met.
-/

namespace ResultSearch

namespace Query

mutual

/-- The query asks for a status in some run, or it is a disjunction of such queries. -/
def asksStatus : Query → Bool
  | .status _ _ => true
  | .or args => allAskStatus args
  | _ => false

/-- All the queries ask for a status in this way. -/
def allAskStatus : List Query → Bool
  | [] => true
  | q :: rest => asksStatus q && allAskStatus rest

end

variable {b : Binder} {s : Subject}

theorem conditions_eq_map {args : List Query} :
    conditions b s args = args.map fun q runs => q.holds b s runs := by
  induction args with
  | nil => rfl
  | cons q rest ih => rw [conditions, ih, List.map_cons]

mutual

/-- A demand on a status holds over some runs if it holds in one of them. -/
theorem holds_eq_any_single : (q : Query) → q.asksStatus = true → (runs : List Run) →
    q.holds b s runs = runs.any fun r => q.holds b s [r]
  | .status _ _, _, runs => by simp [holds]
  | .or args, h, runs => by
    simp only [holds]
    exact any_conditions_eq args h runs

theorem any_conditions_eq : (args : List Query) → allAskStatus args = true → (runs : List Run) →
    ((conditions b s args).any fun p => p runs) =
      runs.any fun r => (conditions b s args).any fun p => p [r]
  | [], _, runs => by simp [conditions]
  | q :: rest, h, runs => by
    rw [allAskStatus, Bool.and_eq_true] at h
    simp only [conditions, List.any_cons]
    rw [holds_eq_any_single q h.1 runs, any_conditions_eq rest h.2 runs]
    grind

end

/-- Each argument is met by some run, also if there is but one. -/
theorem eachSomewhere_conditions {args : List Query} (h : ∀ q ∈ args, q.asksStatus = true)
    (runs : List Run) :
    eachSomewhere (conditions b s args) runs =
      args.all fun q => runs.any fun r => q.holds b s [r] := by
  rw [conditions_eq_map]
  match args, h with
  | [], _ => rfl
  | [q], h =>
    rw [List.all_cons, List.all_nil, Bool.and_true]
    exact holds_eq_any_single q (h q List.mem_cons_self) runs
  | q :: q' :: rest, _ =>
    show (((q :: q' :: rest).map fun q runs => q.holds b s runs).all fun p =>
      runs.any fun r => p [r]) = _
    rw [List.all_map]
    rfl

/-- There is an argument that no run meets. -/
theorem holds_noRun {args : List Query} (h : ∀ q ∈ args, q.asksStatus = true) (runs : List Run) :
    (Query.noRun args).holds b s runs =
      args.any fun q => runs.all fun r => !q.holds b s [r] := by
  rw [holds, eachSomewhere_conditions h, List.not_all_eq_any_not]
  simp only [List.not_any_eq_all_not]

end Query

/-- Some member and every member are the same of a list if it is not empty and its members agree. -/
theorem any_eq_all_iff {α : Type} {l : List α} {p : α → Bool} :
    l.any p = l.all p ↔ l ≠ [] ∧ ∀ x ∈ l, ∀ y ∈ l, p x = p y := by
  constructor
  · intro h
    refine ⟨?_, fun x hx y hy => ?_⟩
    · rintro rfl
      cases h
    · cases hall : l.all p with
      | true => rw [List.all_eq_true.1 hall x hx, List.all_eq_true.1 hall y hy]
      | false =>
        rw [hall, List.any_eq_false] at h
        rw [Bool.eq_false_iff.2 (h x hx), Bool.eq_false_iff.2 (h y hy)]
  · rintro ⟨hne, h⟩
    obtain ⟨x, rest, rfl⟩ := List.exists_cons_of_ne_nil hne
    have hx (y : α) (hy : y ∈ x :: rest) : p y = p x := h y hy x List.mem_cons_self
    cases hpx : p x with
    | true =>
      have hall : (x :: rest).all p = true := List.all_eq_true.2 fun y hy => (hx y hy).trans hpx
      rw [hall, List.any_cons, hpx, Bool.true_or]
    | false =>
      have hany : (x :: rest).any p = false :=
        List.any_eq_false.2 fun y hy => Bool.eq_false_iff.1 ((hx y hy).trans hpx)
      rw [hany, List.all_cons, hpx, Bool.false_and]

namespace Binder

open BoundQuery (verdict)

variable {b : Binder} {results : Table RunId RunResults}

theorem covered_bind {q : Query} {runs : List Run}
    (h : ∀ r ∈ runs, (results.get? r.id).isSome = true) : (b.bind q runs).Covered results := by
  apply BoundQuery.Covered.of_subset (runIds_bind_subset b q runs)
  intro id hid
  obtain ⟨r, hr, rfl⟩ := List.mem_map.1 hid
  exact h r hr

/-- The filter of `noRun` accepts a result exactly if there is an argument that no single run meets.
That no argument is met by any run is the same only where there are arguments, and either every one
of them is met by some run or none is. -/
theorem verdict_noRun (b : Binder) (args : List Query) (runs : List Run)
    (results : Table RunId RunResults) (columns : List RunResults) (f : Fingerprint)
    (name : TestName) (hargs : ∀ q ∈ args, q.asksStatus = true)
    (hruns : ∀ r ∈ runs, (results.get? r.id).isSome = true) :
    ∃ met : Query → Run → Bool,
      (∀ q ∈ args, ∀ r ∈ runs, verdict results columns f name (b.bind q [r]) = .ok (met q r)) ∧
      verdict results columns f name (b.bind (.noRun args) runs) =
        .ok (args.any fun q => runs.all fun r => !met q r) ∧
      (verdict results columns f name (b.bind (.noRun args) runs) =
          .ok (args.all fun q => runs.all fun r => !met q r) ↔
        args ≠ [] ∧ ∀ q ∈ args, ∀ q' ∈ args, runs.any (met q) = runs.any (met q')) := by
  let s : Subject := .under results columns f name
  have hverdict : verdict results columns f name (b.bind (.noRun args) runs) =
      .ok (args.any fun q => runs.all fun r => !q.holds b s [r]) := by
    rw [BoundQuery.verdict_eq_holds (covered_bind hruns), holds_bind, Query.holds_noRun hargs]
  refine ⟨fun q r => q.holds b s [r], fun q _ r hr => ?_, hverdict, ?_⟩
  · have hsingle : (b.bind q [r]).Covered results :=
      covered_bind fun x hx => by rw [List.mem_singleton.1 hx]; exact hruns r hr
    rw [BoundQuery.verdict_eq_holds hsingle, holds_bind]
  · rw [hverdict, Except.ok.injEq, any_eq_all_iff]
    simp only [← List.not_any_eq_all_not, Bool.not_inj_iff]

/-- Neither argument is met by any run, the first of them a disjunction. -/
theorem verdict_noRun_of_unmet :
    let runs := [{ Run.blank with id := 1, browserName := "chrome" },
      { Run.blank with id := 2, browserName := "safari" }]
    let results := Table.ofList
      [(1, .ofList [(⟨7, 0⟩, .pass)]), (2, RunResults.ofList [(⟨7, 0⟩, .fail)])]
    let args : List Query := [.or [.status none (.is .crash), .status none (.is .timeout)],
      .status (some (.ofBrowser "safari")) (.is .pass)]
    let answer (q : Query) (runs : List Run) : Except Error Bool :=
      verdict results [] ⟨7, 0⟩ ⟨"/a.html", none⟩ (Binder.empty.bind q runs)
    (∀ q ∈ args, q.asksStatus = true) ∧ (∀ r ∈ runs, (results.get? r.id).isSome = true) ∧
      (∀ q ∈ args, ∀ r ∈ runs, answer q [r] = .ok false) ∧ answer (.noRun args) runs = .ok true := by
  intro runs results args answer
  have hargs : ∀ q ∈ args, q.asksStatus = true := by
    simp [args, Query.asksStatus, Query.allAskStatus]
  have hruns : ∀ r ∈ runs, (results.get? r.id).isSome = true := by decide
  have hunmet : ∀ q ∈ args, ∀ r ∈ runs, answer q [r] = .ok false := by
    simp only [args, runs, List.forall_mem_cons]
    decide +kernel
  obtain ⟨met, hmet, hverdict, -⟩ :=
    verdict_noRun Binder.empty args runs results [] ⟨7, 0⟩ ⟨"/a.html", none⟩ hargs hruns
  have hfalse : ∀ q ∈ args, ∀ r ∈ runs, met q r = false := fun q hq r hr =>
    Except.ok.inj ((hmet q hq r hr).symm.trans (hunmet q hq r hr))
  refine ⟨hargs, hruns, hunmet, hverdict.trans (congrArg Except.ok ?_)⟩
  refine List.any_eq_true.2 ⟨_, List.mem_cons_self, List.all_eq_true.2 fun r hr => ?_⟩
  rw [hfalse _ List.mem_cons_self r hr]
  rfl

/-- A test passes in the only run. That meets the first of two arguments, and still `noRun` accepts
the test, as the second is met by no run. -/
theorem noRun_accepts_met :
    let runs := [{ Run.blank with id := 1, browserName := "chrome" }]
    let results := Table.ofList [(1, RunResults.ofList [(⟨7, 0⟩, .pass)])]
    let args : List Query := [.status none (.is .pass), .status none (.is .fail)]
    let answer (q : Query) (runs : List Run) : Except Error Bool :=
      verdict results [] ⟨7, 0⟩ ⟨"/a.html", none⟩ (Binder.empty.bind q runs)
    (∀ q ∈ args, q.asksStatus = true) ∧ (∀ r ∈ runs, (results.get? r.id).isSome = true) ∧
      answer (.noRun args) runs = .ok true ∧
      (∀ r ∈ runs, answer (.status none (.is .pass)) [r] = .ok true) ∧
      ¬(answer (.noRun args) runs = .ok true ↔
        ∀ q ∈ args, ∀ r ∈ runs, answer q [r] = .ok false) := by
  intro runs results args answer
  have hmet : ∀ r ∈ runs, answer (.status none (.is .pass)) [r] = .ok true := by decide +kernel
  have haccepts : answer (.noRun args) runs = .ok true := by decide +kernel
  refine ⟨by simp [args, Query.asksStatus], by decide, haccepts, hmet, fun h => ?_⟩
  have hunmet := h.1 haccepts _ List.mem_cons_self _ List.mem_cons_self
  rw [hmet _ List.mem_cons_self] at hunmet
  cases hunmet

end Binder

end ResultSearch
