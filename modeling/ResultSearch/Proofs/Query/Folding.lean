import Mathlib.Algebra.GroupWithZero.Nat
import ResultSearch.Proofs.Query.Evaluation

/-!
# Folding

A bound query may be folded or not, and its operands may be too. The `verdict` of a query on a
result is what its compiled filter says of it; a folded query has the verdict that its operands
make together, speaks of no run that they do not, and is no larger than they are.

* `verdict_eq_holds`: over results of its runs a query has a verdict, namely whether it holds.
* `size_restrictTo_le`: what the restriction to tests with a result adds to a query.
* `folding_keeps_verdicts`: folding and restricting keep what the operands say and add nothing.
-/

namespace ResultSearch

namespace BoundQuery

variable {results : Table RunId RunResults} {columns : List RunResults} {f : Fingerprint}
  {name : TestName}

/-! ## Verdicts -/

/-- What the compiled filter of a query says of a result, or why the query does not compile. -/
def verdict (results : Table RunId RunResults) (columns : List RunResults) (f : Fingerprint)
    (name : TestName) (q : BoundQuery) : Except Error Bool :=
  (fun filter => Filter.accepts f name filter) <$> Filter.compile results columns q

/-- There are results of all the runs that the query speaks of. -/
def Covered (results : Table RunId RunResults) (q : BoundQuery) : Prop :=
  ∀ id ∈ q.runIds, (results.get? id).isSome = true

instance {q : BoundQuery} : Decidable (q.Covered results) :=
  inferInstanceAs (Decidable (∀ id ∈ q.runIds, (results.get? id).isSome = true))

theorem Covered.of_subset {q : BoundQuery} {ids : List RunId} (h : q.runIds ⊆ ids)
    (hids : ∀ id ∈ ids, (results.get? id).isSome = true) : q.Covered results :=
  fun id hid => hids id (h hid)

theorem covered_flatMap {args : List BoundQuery} (h : ∀ x ∈ args, x.Covered results) :
    ∀ id ∈ args.flatMap runIds, (results.get? id).isSome = true := by
  intro id hid
  obtain ⟨x, hx, hid⟩ := List.mem_flatMap.1 hid
  exact h x hx id hid

/-- A query has a verdict over results of all its runs: it is whether the query holds. -/
theorem verdict_eq_holds {q : BoundQuery} (h : q.Covered results) :
    verdict results columns f name q = .ok (q.holds (.under results columns f name)) := by
  obtain ⟨filter, hfilter⟩ : ∃ filter, Filter.compile results columns q = .ok filter :=
    Filter.compile_isOk q fun id hid => h id (mem_runIds.2 hid)
  rw [verdict, hfilter, ← Filter.accepts_eq_holds f name q hfilter]
  rfl

theorem mapM_verdict {args : List BoundQuery} (h : ∀ x ∈ args, x.Covered results) :
    args.mapM (verdict results columns f name) =
      .ok (args.map (holds (.under results columns f name))) := by
  rw [Outcome.mapM_eq_ok_iff, List.forall₂_map_right_iff, List.forall₂_same]
  intro x hx
  exact verdict_eq_holds (h x hx)

/-! ## Sizes -/

theorem sizes_eq_sum {args : List BoundQuery} : sizes args = (args.map size).sum := by
  induction args with
  | nil => rfl
  | cons q rest ih => rw [sizes, ih, List.map_cons, List.sum_cons]

theorem sizes_map_present {ids : List RunId} : sizes (ids.map present) = 2 * ids.length := by
  induction ids with
  | nil => rfl
  | cons id rest ih =>
    rw [List.map_cons, sizes, ih, List.length_cons]
    simp only [present, negate, size]
    omega

/-- A status and its negation are added for every run. -/
theorem size_restrictTo_le {ids : List RunId} {q : BoundQuery} :
    (restrictTo ids q).size ≤ 2 * ids.length + q.size := by
  have hany : (any (ids.map present)).size ≤ 2 * ids.length := by
    rw [← sizes_map_present]
    exact size_any_le _
  have hcons {args : List BoundQuery} (hargs : sizes args = q.size) :
      (all (any (ids.map present) :: args)).size ≤ 2 * ids.length + q.size := by
    apply Nat.le_trans (size_all_le _)
    rw [sizes, hargs]
    omega
  unfold restrictTo
  split
  · exact hcons (by rw [size])
  · exact hcons (by simp [sizes])

/-! ## Folding -/

/-- Whatever the operands are, a folded query says what they say together, speaks of no other runs
and is no larger; restricting a query asks for a result in one of the runs besides. -/
theorem folding_keeps_verdicts (args : List BoundQuery) (q : BoundQuery) (ids : List RunId) :
    (∀ results columns f name, (∀ x ∈ args, x.Covered results) →
      ∃ verdicts, args.mapM (verdict results columns f name) = .ok verdicts ∧
        verdict results columns f name (all args) = .ok (verdicts.all fun v => v) ∧
        verdict results columns f name (any args) = .ok (verdicts.any fun v => v)) ∧
    (∀ results columns f name, q.Covered results →
      ∃ v, verdict results columns f name q = .ok v ∧
        verdict results columns f name (negate q) = .ok (!v) ∧
        ((∀ id ∈ ids, (results.get? id).isSome = true) →
          verdict results columns f name (restrictTo ids q) =
            .ok ((ids.any fun id => (results.get? id).any fun r => r.get f ≠ .unknown) && v))) ∧
    ((all args).runIds ⊆ args.flatMap runIds ∧ (any args).runIds ⊆ args.flatMap runIds ∧
      (negate q).runIds ⊆ q.runIds ∧ (restrictTo ids q).runIds ⊆ ids ++ q.runIds) ∧
    (all args).size ≤ (args.map size).sum ∧ (any args).size ≤ (args.map size).sum ∧
      (negate q).size ≤ 1 + q.size ∧ (restrictTo ids q).size ≤ 2 * ids.length + q.size := by
  refine ⟨?_, ?_, ?_, ?_⟩
  · intro results columns f name h
    have hall : (all args).Covered results := .of_subset runIds_all_subset (covered_flatMap h)
    have hany : (any args).Covered results := .of_subset runIds_any_subset (covered_flatMap h)
    refine ⟨_, mapM_verdict h, ?_, ?_⟩
    · rw [verdict_eq_holds hall, holds_all, List.all_map]
      rfl
    · rw [verdict_eq_holds hany, holds_any, List.any_map]
      rfl
  · intro results columns f name h
    have hnegate : (negate q).Covered results := .of_subset (by rw [runIds_negate]; simp) h
    refine ⟨_, verdict_eq_holds h, ?_, fun hids => ?_⟩
    · rw [verdict_eq_holds hnegate, holds_negate]
    · have hrestrict : (restrictTo ids q).Covered results := by
        apply Covered.of_subset (runIds_restrictTo_subset q ids)
        intro id hid
        rcases List.mem_append.1 hid with hid | hid
        · exact hids id hid
        · exact h id hid
      rw [verdict_eq_holds hrestrict, holds_restrictTo]
      refine congrArg (fun b => Except.ok (b && _)) (List.any_congr rfl fun id => ?_)
      cases hid : results.get? id <;> simp [Subject.under, hid]
  · exact ⟨runIds_all_subset, runIds_any_subset, by rw [runIds_negate]; simp,
      runIds_restrictTo_subset q ids⟩
  · rw [← sizes_eq_sum]
    exact ⟨size_all_le args, size_any_le args, size_negate_le q, size_restrictTo_le⟩

/-- Conjunctions within a conjunction and constants among their operands, over a run that passes
and one without a result. -/
theorem folding_keeps_verdicts_of_nested :
    let passes : BoundQuery := .status 1 (.is .pass)
    let args : List BoundQuery :=
      [.and [.const true, .and [passes, .const true]], .or [.const false, .status 2 (.isNot .fail)]]
    let q : BoundQuery := .and [.and [.and [passes], .const true], .const true]
    let results := Table.ofList [(1, .ofList [(⟨7, 0⟩, .pass)]), (2, RunResults.empty)]
    (∀ x ∈ args, x.Covered results) ∧ q.Covered results ∧
      (∀ id ∈ [2, 1], (results.get? id).isSome = true) ∧
      verdict results [] ⟨7, 0⟩ ⟨"/a.html", none⟩ (all args) = .ok true ∧
      verdict results [] ⟨7, 0⟩ ⟨"/a.html", none⟩ (negate q) = .ok false ∧
      verdict results [] ⟨7, 0⟩ ⟨"/a.html", none⟩ (restrictTo [2, 1] q) = .ok true := by
  intro passes args q results
  have hargs : ∀ x ∈ args, x.Covered results := by decide +kernel
  have hq : q.Covered results := by decide +kernel
  have hids : ∀ id ∈ [2, 1], (results.get? id).isSome = true := by decide
  obtain ⟨hfold, hsingle, -, -⟩ := folding_keeps_verdicts args q [2, 1]
  obtain ⟨verdicts, hverdicts, hall, -⟩ := hfold results [] ⟨7, 0⟩ ⟨"/a.html", none⟩ hargs
  obtain ⟨v, hv, hnegate, hrestrict⟩ := hsingle results [] ⟨7, 0⟩ ⟨"/a.html", none⟩ hq
  obtain rfl : [true, true] = verdicts := Except.ok.inj (Eq.trans rfl hverdicts)
  obtain rfl : true = v := Except.ok.inj (Eq.trans rfl hv)
  refine ⟨hargs, hq, hids, hall, hnegate, ?_⟩
  rw [hrestrict hids]
  decide +kernel

end BoundQuery

end ResultSearch
