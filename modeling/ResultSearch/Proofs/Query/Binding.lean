import ResultSearch.Query.Binding

/-!
# What binding builds

Binding builds leaves about the runs, and puts bound queries together by folding and by tallies.
What is true of such leaves and is kept by folding and by tallies is true of every query bound to
the runs.

* `bindEach_eq_map`, `bindInSome_eq_map`, `bindInEvery_eq_map`, `bindAlong_eq_zipWith`: the passes
  over the arguments of a combinator.
* `bindStatus_eq_any`: a demand on a status is put together by folding too.
* `Inherited.bind`: what is inherited by what is built over runs is true of all that is bound to
  them.
-/

namespace ResultSearch

namespace Binder

attribute [local simp] bind bindEach bindInSome bindInEvery bindAlong

variable {b : Binder}

/-! ## Binding, argument by argument -/

theorem bindEach_eq_map {args : List Query} {runs : List Run} :
    b.bindEach args runs = args.map fun q => b.bind q runs := by
  induction args with
  | nil => rfl
  | cons q rest ih => rw [bindEach, ih, List.map_cons]

theorem bindInSome_eq_map {args : List Query} {runs : List Run} :
    b.bindInSome args runs = args.map fun q => .any (runs.map fun r => b.bind q [r]) := by
  induction args with
  | nil => rfl
  | cons q rest ih => rw [bindInSome, ih, List.map_cons]

theorem bindInEvery_eq_map {args : List Query} {runs : List Run} :
    b.bindInEvery args runs = args.map fun q => .all (runs.map fun r => b.bind q [r]) := by
  induction args with
  | nil => rfl
  | cons q rest ih => rw [bindInEvery, ih, List.map_cons]

theorem bindAlong_eq_zipWith {args : List Query} {runs : List Run} :
    b.bindAlong args runs = args.zipWith (fun q r => b.bind q [r]) runs := by
  induction args generalizing runs with
  | nil => cases runs <;> simp
  | cons q rest ih => cases runs <;> simp [ih]

theorem bindSomeRun_singleton {q : Query} {runs : List Run} :
    b.bindSomeRun [q] runs = b.bind q runs := by rw [bindSomeRun]

theorem bindSomeRun_of_length_ne_one {args : List Query} (h : args.length ≠ 1) {runs : List Run} :
    b.bindSomeRun args runs = .all (b.bindInSome args runs) := by
  match args, h with
  | [], _ => rw [bindSomeRun, bindInSome]
  | [_], h => exact absurd rfl h
  | _ :: _ :: _, _ => rw [bindSomeRun, bindInSome, bindInSome]

theorem disjuncts_map_status {test : StatusTest} {runs : List Run} :
    BoundQuery.disjuncts (runs.map fun r => .status r.id test) =
      some (runs.map fun r => .status r.id test) := by
  induction runs with
  | nil => rfl
  | cons r rest ih => simp [BoundQuery.disjuncts, ih]

/-- A demand on the status in some run is built as folding the single demands would build it. -/
theorem bindStatus_eq_any {product : Option Product} {test : StatusTest} {runs : List Run} :
    bindStatus product test runs =
      .any ((runs.filter fun r => product.all fun p => p.matchesRun r).map fun r =>
        .status r.id test) := by
  rw [bindStatus, BoundQuery.any, disjuncts_map_status]
  generalize (runs.filter fun r => product.all fun p => p.matchesRun r).map (fun r =>
    BoundQuery.status r.id test) = qs
  match qs with
  | [] => rfl
  | [_] => rfl
  | _ :: _ :: _ => rfl

end Binder

namespace BoundQuery

/-! ## What is built over runs -/

/-- The query is put together of no others. -/
def isLeaf : BoundQuery → Bool
  | .and _ => false
  | .or _ => false
  | .not _ => false
  | .tally _ _ _ => false
  | _ => true

/-- What is true of the leaves about some runs is true of what folding and tallies make of them. -/
structure Inherited (ids : List RunId) (P : BoundQuery → Prop) : Prop where
  leaf : ∀ x, x.isLeaf = true → x.mentions ⊆ ids → P x
  negate : ∀ x, P x → P (negate x)
  all : ∀ args, (∀ x ∈ args, P x) → P (all args)
  any : ∀ args, (∀ x ∈ args, P x) → P (any args)
  tally : ∀ comparison count args, (∀ x ∈ args, P x) → P (.tally comparison count args)

namespace Inherited

variable {ids : List RunId} {P : BoundQuery → Prop} {b : Binder}

theorem bindStatus (h : Inherited ids P) {product : Option Product} {test : StatusTest}
    {runs : List Run} (hruns : ∀ r ∈ runs, r.id ∈ ids) :
    P (Binder.bindStatus product test runs) := by
  rw [Binder.bindStatus_eq_any]
  apply h.any
  intro x hx
  obtain ⟨r, hr, rfl⟩ := List.mem_map.1 hx
  exact h.leaf _ rfl (by simpa [mentions] using hruns r ((List.mem_filter.1 hr).1))

theorem bindTriaged (h : Inherited ids P) {product : Option Product} {runs : List Run}
    (hruns : ∀ r ∈ runs, r.id ∈ ids) : P (b.bindTriaged product runs) := by
  apply h.any
  intro x hx
  obtain ⟨r, hr, hx⟩ := List.mem_filterMap.1 hx
  dsimp only at hx
  split at hx
  · cases hx
  · cases hx
    exact h.leaf _ rfl (by simpa [mentions] using hruns r ((List.mem_filter.1 hr).1))

/-- A query bound to one run after the other. -/
theorem each {q : Query} {runs : List Run} (hruns : ∀ r ∈ runs, r.id ∈ ids)
    (ih : ∀ runs, (∀ r ∈ runs, r.id ∈ ids) → P (b.bind q runs)) :
    ∀ x ∈ runs.map fun r => b.bind q [r], P x := by
  intro x hx
  obtain ⟨r, hr, rfl⟩ := List.mem_map.1 hx
  exact ih [r] (List.forall_mem_singleton.2 (hruns r hr))

theorem bindSomeRun (h : Inherited ids P) {args : List Query} {runs : List Run}
    (hruns : ∀ r ∈ runs, r.id ∈ ids)
    (ih : ∀ q ∈ args, ∀ runs, (∀ r ∈ runs, r.id ∈ ids) → P (b.bind q runs)) :
    P (b.bindSomeRun args runs) := by
  by_cases hone : args.length = 1
  · obtain ⟨q, rfl⟩ := List.length_eq_one_iff.1 hone
    rw [Binder.bindSomeRun_singleton]
    exact ih q (List.mem_singleton_self q) runs hruns
  · rw [Binder.bindSomeRun_of_length_ne_one hone, Binder.bindInSome_eq_map]
    apply h.all
    intro x hx
    obtain ⟨q, hq, rfl⟩ := List.mem_map.1 hx
    exact h.any _ (each hruns (ih q hq))

theorem bindConsecutive (h : Inherited ids P) {args : List Query} {runs : List Run}
    (hruns : ∀ r ∈ runs, r.id ∈ ids)
    (ih : ∀ q ∈ args, ∀ runs, (∀ r ∈ runs, r.id ∈ ids) → P (b.bind q runs)) :
    P (b.bind (.consecutive args) runs) := by
  rw [Binder.bind]
  split
  · exact h.leaf _ rfl (List.nil_subset _)
  apply h.any
  intro x hx
  obtain ⟨i, -, rfl⟩ := List.mem_map.1 hx
  apply h.all
  intro y hy
  rw [Binder.bindAlong_eq_zipWith] at hy
  obtain ⟨j, hj⟩ := List.mem_iff_getElem?.1 hy
  obtain ⟨q, r, hq, hr, rfl⟩ := List.getElem?_zipWith_eq_some.1 hj
  have hmem : r ∈ runs := List.mem_of_mem_drop (List.mem_of_getElem? hr)
  exact ih q (List.mem_of_getElem? hq) [r] (List.forall_mem_singleton.2 (hruns r hmem))

mutual

/-- What is inherited by all that is built over some runs is true of a query bound to them. -/
theorem bind (h : Inherited ids P) : (q : Query) → (runs : List Run) →
    (∀ r ∈ runs, r.id ∈ ids) → P (b.bind q runs)
  | .const _, _, _ => h.leaf _ rfl (List.nil_subset _)
  | .testName _, _, _ => h.leaf _ rfl (List.nil_subset _)
  | .subtestName _, _, _ => h.leaf _ rfl (List.nil_subset _)
  | .testPath _, _, _ => h.leaf _ rfl (List.nil_subset _)
  | .status _ _, _, hruns => h.bindStatus hruns
  | .not q, runs, hruns => by
    rw [Binder.bind]
    exact h.negate _ (bind h q runs hruns)
  | .or args, runs, hruns => by
    rw [Binder.bind, Binder.bindEach_eq_map]
    exact h.any _ (List.forall_mem_map.2 fun q hq => bindEach h args q hq runs hruns)
  | .and args, runs, hruns => by
    rw [Binder.bind, Binder.bindEach_eq_map]
    exact h.all _ (List.forall_mem_map.2 fun q hq => bindEach h args q hq runs hruns)
  | .someRun args, runs, hruns => by
    rw [Binder.bind]
    exact h.bindSomeRun hruns (bindEach h args)
  | .everyRun args, runs, hruns => by
    rw [Binder.bind, Binder.bindInEvery_eq_map]
    apply h.all
    intro x hx
    obtain ⟨q, hq, rfl⟩ := List.mem_map.1 hx
    exact h.all _ (each hruns (bindEach h args q hq))
  | .noRun args, runs, hruns => by
    rw [Binder.bind]
    exact h.negate _ (h.bindSomeRun hruns (bindEach h args))
  | .consecutive args, _, hruns => h.bindConsecutive hruns (bindEach h args)
  | .tally _ _ q, runs, hruns => by
    rw [Binder.bind]
    exact h.tally _ _ _ (each hruns (bind h q))
  | .link _, _, _ => h.leaf _ rfl (List.nil_subset _)
  | .triaged _, _, hruns => h.bindTriaged hruns
  | .label _, _, _ => h.leaf _ rfl (List.nil_subset _)
  | .feature _, _, _ => h.leaf _ rfl (List.nil_subset _)
  | .quality _, _, _ => h.leaf _ rfl (List.nil_subset _)

theorem bindEach (h : Inherited ids P) : (args : List Query) → ∀ q ∈ args, ∀ runs,
    (∀ r ∈ runs, r.id ∈ ids) → P (b.bind q runs)
  | [] => by simp
  | q :: rest => by
    rintro x (_ | ⟨_, hx⟩)
    · exact bind h q
    · exact bindEach h rest x hx

end

end Inherited

end BoundQuery

end ResultSearch
