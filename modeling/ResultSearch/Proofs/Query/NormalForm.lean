import ResultSearch.Proofs.Query.Binding

/-!
# Normal forms of bound queries

Folding leaves a bound query in a normal form: under a conjunction, a disjunction or a negation
there is no constant and no query of the same kind, and what has a single operand is that operand.
Everything that binding builds is in this form, also where it builds a query without folding.

* `IsNormal`: nothing is left to fold at any query within a query.
* `isNormal_all`, `isNormal_any`, `isNormal_negate`: folding makes normal forms of normal forms.
* `refold_eq_self_iff`: the normal forms are what folding from the leaves up does not change.
* `isNormal_bind`, `isNormal_restrictTo`: what binding and restricting build is normal.
* `bound_in_normal_form`: all of this of a query of a user, bound to runs.
-/

namespace ResultSearch

namespace BoundQuery

/-! ## Normal forms -/

/-- The queries directly under a query. -/
def operands : BoundQuery → List BoundQuery
  | .and args => args
  | .or args => args
  | .not q => [q]
  | .tally _ _ args => args
  | _ => []

mutual

/-- The query and all the queries within it. -/
def nodes : BoundQuery → List BoundQuery
  | .and args => .and args :: nodesOfEach args
  | .or args => .or args :: nodesOfEach args
  | .not q => .not q :: nodes q
  | .tally comparison count args => .tally comparison count args :: nodesOfEach args
  | q => [q]

/-- All the queries, each followed by those within it. -/
def nodesOfEach : List BoundQuery → List BoundQuery
  | [] => []
  | q :: rest => nodes q ++ nodesOfEach rest

end

/-- The query may stand under a conjunction: it is neither a constant nor a conjunction. -/
def isConjunct : BoundQuery → Bool
  | .const _ => false
  | .and _ => false
  | _ => true

/-- The query may stand under a disjunction: it is neither a constant nor a disjunction. -/
def isDisjunct : BoundQuery → Bool
  | .const _ => false
  | .or _ => false
  | _ => true

/-- The query may stand under a negation: it is neither a constant nor a negation. -/
def isNegatable : BoundQuery → Bool
  | .const _ => false
  | .not _ => false
  | _ => true

/-- Nothing is left to fold at the top of the query. -/
def IsFolded : BoundQuery → Prop
  | .and args => 2 ≤ args.length ∧ ∀ q ∈ args, q.isConjunct = true
  | .or args => 2 ≤ args.length ∧ ∀ q ∈ args, q.isDisjunct = true
  | .not q => q.isNegatable = true
  | _ => True

/-- Nothing is left to fold anywhere in the query. -/
def IsNormal (q : BoundQuery) : Prop := ∀ x ∈ q.nodes, x.IsFolded

/-- A constant is the whole query or an operand of a tally. -/
def ConstantsTallied (q : BoundQuery) : Prop :=
  ∀ x ∈ q.nodes, ∀ v, .const v ∈ x.operands → ∃ comparison count args,
    x = .tally comparison count args

variable {q : BoundQuery} {args : List BoundQuery}

theorem mem_nodesOfEach {x : BoundQuery} : x ∈ nodesOfEach args ↔ ∃ q ∈ args, x ∈ q.nodes := by
  induction args with
  | nil => simp [nodesOfEach]
  | cons q rest ih => simp [nodesOfEach, ih]

theorem mem_nodes_iff {x : BoundQuery} :
    x ∈ q.nodes ↔ x = q ∨ ∃ y ∈ q.operands, x ∈ y.nodes := by
  cases q <;> simp [nodes, operands, mem_nodesOfEach]

theorem isNormal_iff : q.IsNormal ↔ q.IsFolded ∧ ∀ y ∈ q.operands, y.IsNormal := by
  simp only [IsNormal, mem_nodes_iff (q := q)]
  constructor
  · intro h
    exact ⟨h q (.inl rfl), fun y hy x hx => h x (.inr ⟨y, hy, hx⟩)⟩
  · rintro ⟨htop, hunder⟩ x (rfl | ⟨y, hy, hx⟩)
    · exact htop
    · exact hunder y hy x hx

theorem isNormal_of_isLeaf (h : q.isLeaf = true) : q.IsNormal := by
  cases q with
  | and args => cases h
  | or args => cases h
  | not q => cases h
  | tally comparison count args => cases h
  | _ => exact isNormal_iff.2 ⟨trivial, by simp [operands]⟩

theorem isNormal_const {v : Bool} : (const v).IsNormal := isNormal_of_isLeaf rfl

theorem IsNormal.constantsTallied (h : q.IsNormal) : q.ConstantsTallied := by
  intro x hx v hv
  have hfolded : x.IsFolded := h x hx
  cases x with
  | and args => exact absurd (hfolded.2 _ hv) (by simp [isConjunct])
  | or args => exact absurd (hfolded.2 _ hv) (by simp [isDisjunct])
  | not q =>
    obtain rfl : const v = q := List.mem_singleton.1 hv
    exact absurd hfolded (by simp [IsFolded, isNegatable])
  | tally comparison count args => exact ⟨comparison, count, args, rfl⟩
  | _ => simp [operands] at hv

/-! ## Folding makes normal forms -/

theorem isConjunct_of_ne (htrue : q ≠ .const true) (hfalse : q ≠ .const false)
    (hand : ∀ inner, q ≠ .and inner) : q.isConjunct = true := by
  unfold isConjunct
  split
  · next v => cases v <;> simp_all
  · next inner => exact absurd rfl (hand inner)
  · rfl

theorem isDisjunct_of_ne (htrue : q ≠ .const true) (hfalse : q ≠ .const false)
    (hor : ∀ inner, q ≠ .or inner) : q.isDisjunct = true := by
  unfold isDisjunct
  split
  · next v => cases v <;> simp_all
  · next inner => exact absurd rfl (hor inner)
  · rfl

/-- The operands that are left of a conjunction are normal, and nothing is left to fold in them. -/
theorem forall_of_conjuncts {qs : List BoundQuery} (h : conjuncts args = some qs)
    (hargs : ∀ q ∈ args, q.IsNormal) : ∀ q ∈ qs, q.isConjunct = true ∧ q.IsNormal := by
  fun_induction conjuncts args generalizing qs with
  | case1 => cases h; simp
  | case2 rest ih => exact ih h fun q hq => hargs q (List.mem_cons_of_mem _ hq)
  | case3 => cases h
  | case4 inner rest ih =>
    obtain ⟨ps, hps, rfl⟩ := Option.map_eq_some_iff.1 h
    -- The conjunction is normal itself, so that its operands are what can be left.
    obtain ⟨hfolded, hinner⟩ := isNormal_iff.1 (hargs (.and inner) List.mem_cons_self)
    intro q hq
    rcases List.mem_append.1 hq with hq | hq
    · exact ⟨hfolded.2 q hq, hinner q hq⟩
    · exact ih hps (fun q hq => hargs q (List.mem_cons_of_mem _ hq)) q hq
  | case5 q rest htrue hfalse hand ih =>
    obtain ⟨ps, hps, rfl⟩ := Option.map_eq_some_iff.1 h
    intro x hx
    rcases List.mem_cons.1 hx with rfl | hx
    · exact ⟨isConjunct_of_ne htrue hfalse hand, hargs x List.mem_cons_self⟩
    · exact ih hps (fun q hq => hargs q (List.mem_cons_of_mem _ hq)) x hx

theorem forall_of_disjuncts {qs : List BoundQuery} (h : disjuncts args = some qs)
    (hargs : ∀ q ∈ args, q.IsNormal) : ∀ q ∈ qs, q.isDisjunct = true ∧ q.IsNormal := by
  fun_induction disjuncts args generalizing qs with
  | case1 => cases h; simp
  | case2 rest ih => exact ih h fun q hq => hargs q (List.mem_cons_of_mem _ hq)
  | case3 => cases h
  | case4 inner rest ih =>
    obtain ⟨ps, hps, rfl⟩ := Option.map_eq_some_iff.1 h
    obtain ⟨hfolded, hinner⟩ := isNormal_iff.1 (hargs (.or inner) List.mem_cons_self)
    intro q hq
    rcases List.mem_append.1 hq with hq | hq
    · exact ⟨hfolded.2 q hq, hinner q hq⟩
    · exact ih hps (fun q hq => hargs q (List.mem_cons_of_mem _ hq)) q hq
  | case5 q rest hfalse htrue hor ih =>
    obtain ⟨ps, hps, rfl⟩ := Option.map_eq_some_iff.1 h
    intro x hx
    rcases List.mem_cons.1 hx with rfl | hx
    · exact ⟨isDisjunct_of_ne htrue hfalse hor, hargs x List.mem_cons_self⟩
    · exact ih hps (fun q hq => hargs q (List.mem_cons_of_mem _ hq)) x hx

theorem two_le_length {qs : List BoundQuery} (hnil : qs ≠ []) (hone : ∀ q, qs ≠ [q]) :
    2 ≤ qs.length := by
  match qs with
  | [] => exact absurd rfl hnil
  | [q] => exact absurd rfl (hone q)
  | _ :: _ :: _ => simp

theorem isNormal_all (h : ∀ q ∈ args, q.IsNormal) : (all args).IsNormal := by
  unfold all
  split
  · exact isNormal_const
  · exact isNormal_const
  · next q hq => exact (forall_of_conjuncts hq h q List.mem_cons_self).2
  · next qs hnil hone hqs =>
    have hleft := forall_of_conjuncts hqs h
    have hlength : 2 ≤ qs.length :=
      two_le_length (fun e => hnil (by rw [e])) fun q e => hone q (by rw [e])
    exact isNormal_iff.2 ⟨⟨hlength, fun q hq => (hleft q hq).1⟩, fun q hq => (hleft q hq).2⟩

theorem isNormal_any (h : ∀ q ∈ args, q.IsNormal) : (any args).IsNormal := by
  unfold any
  split
  · exact isNormal_const
  · exact isNormal_const
  · next q hq => exact (forall_of_disjuncts hq h q List.mem_cons_self).2
  · next qs hnil hone hqs =>
    have hleft := forall_of_disjuncts hqs h
    have hlength : 2 ≤ qs.length :=
      two_le_length (fun e => hnil (by rw [e])) fun q e => hone q (by rw [e])
    exact isNormal_iff.2 ⟨⟨hlength, fun q hq => (hleft q hq).1⟩, fun q hq => (hleft q hq).2⟩

theorem isNormal_negate (h : q.IsNormal) : (negate q).IsNormal := by
  unfold negate
  split
  · exact isNormal_const
  · next q => exact (isNormal_iff.1 h).2 q (by simp [operands])
  · next hconst hnot =>
    refine isNormal_iff.2 ⟨?_, by simpa [operands] using h⟩
    unfold IsFolded isNegatable
    split <;> simp_all

/-! ## Normal forms are not folded further -/

theorem conjuncts_eq_some (h : ∀ q ∈ args, q.isConjunct = true) : conjuncts args = some args := by
  induction args with
  | nil => rfl
  | cons q rest ih =>
    have hq : q.isConjunct = true := h q List.mem_cons_self
    have hrest := ih fun x hx => h x (List.mem_cons_of_mem _ hx)
    cases q with
    | const v => cases hq
    | and inner => cases hq
    | _ => simp [conjuncts, hrest]

theorem disjuncts_eq_some (h : ∀ q ∈ args, q.isDisjunct = true) : disjuncts args = some args := by
  induction args with
  | nil => rfl
  | cons q rest ih =>
    have hq : q.isDisjunct = true := h q List.mem_cons_self
    have hrest := ih fun x hx => h x (List.mem_cons_of_mem _ hx)
    cases q with
    | const v => cases hq
    | or inner => cases hq
    | _ => simp [disjuncts, hrest]

theorem all_eq_and (h : (and args).IsFolded) : all args = .and args := by
  obtain ⟨hlength, hargs⟩ := h
  rw [all, conjuncts_eq_some hargs]
  rcases args with _ | ⟨q, _ | ⟨q', rest⟩⟩
  · simp at hlength
  · simp at hlength
  · rfl

theorem any_eq_or (h : (or args).IsFolded) : any args = .or args := by
  obtain ⟨hlength, hargs⟩ := h
  rw [any, disjuncts_eq_some hargs]
  rcases args with _ | ⟨q, _ | ⟨q', rest⟩⟩
  · simp at hlength
  · simp at hlength
  · rfl

theorem negate_eq_not (h : (not q).IsFolded) : negate q = .not q := by
  cases q with
  | const v => cases h
  | not q => cases h
  | _ => rfl

mutual

/-- The query folded anew, from the leaves up. -/
def refold : BoundQuery → BoundQuery
  | .and args => all (refoldEach args)
  | .or args => any (refoldEach args)
  | .not q => negate (refold q)
  | .tally comparison count args => .tally comparison count (refoldEach args)
  | q => q

/-- The queries folded anew one by one. -/
def refoldEach : List BoundQuery → List BoundQuery
  | [] => []
  | q :: rest => refold q :: refoldEach rest

end

mutual

theorem isNormal_refold : (q : BoundQuery) → q.refold.IsNormal
  | .and args => by
    rw [refold]
    exact isNormal_all (isNormal_refoldEach args)
  | .or args => by
    rw [refold]
    exact isNormal_any (isNormal_refoldEach args)
  | .not q => by
    rw [refold]
    exact isNormal_negate (isNormal_refold q)
  | .tally _ _ args => by
    rw [refold]
    exact isNormal_iff.2 ⟨trivial, isNormal_refoldEach args⟩
  | .const _ => isNormal_of_isLeaf rfl
  | .testName _ => isNormal_of_isLeaf rfl
  | .subtestName _ => isNormal_of_isLeaf rfl
  | .testPath _ => isNormal_of_isLeaf rfl
  | .status _ _ => isNormal_of_isLeaf rfl
  | .link _ _ => isNormal_of_isLeaf rfl
  | .triaged _ _ => isNormal_of_isLeaf rfl
  | .label _ _ => isNormal_of_isLeaf rfl
  | .feature _ _ => isNormal_of_isLeaf rfl
  | .quality _ => isNormal_of_isLeaf rfl

theorem isNormal_refoldEach : (args : List BoundQuery) → ∀ q ∈ refoldEach args, q.IsNormal
  | [] => by simp [refoldEach]
  | q :: rest => by
    intro x hx
    rw [refoldEach] at hx
    rcases List.mem_cons.1 hx with rfl | hx
    · exact isNormal_refold q
    · exact isNormal_refoldEach rest x hx

end

mutual

theorem refold_eq_self : (q : BoundQuery) → q.IsNormal → q.refold = q
  | .and args, h => by
    obtain ⟨hfolded, hargs⟩ := isNormal_iff.1 h
    rw [refold, refoldEach_eq_self args hargs, all_eq_and hfolded]
  | .or args, h => by
    obtain ⟨hfolded, hargs⟩ := isNormal_iff.1 h
    rw [refold, refoldEach_eq_self args hargs, any_eq_or hfolded]
  | .not q, h => by
    obtain ⟨hfolded, hq⟩ := isNormal_iff.1 h
    rw [refold, refold_eq_self q (hq q (List.mem_singleton_self q)), negate_eq_not hfolded]
  | .tally _ _ args, h => by rw [refold, refoldEach_eq_self args (isNormal_iff.1 h).2]
  | .const _, _ => rfl
  | .testName _, _ => rfl
  | .subtestName _, _ => rfl
  | .testPath _, _ => rfl
  | .status _ _, _ => rfl
  | .link _ _, _ => rfl
  | .triaged _ _, _ => rfl
  | .label _ _, _ => rfl
  | .feature _ _, _ => rfl
  | .quality _, _ => rfl

theorem refoldEach_eq_self : (args : List BoundQuery) → (∀ q ∈ args, q.IsNormal) →
    refoldEach args = args
  | [], _ => rfl
  | q :: rest, h => by
    rw [refoldEach, refold_eq_self q (h q List.mem_cons_self),
      refoldEach_eq_self rest fun x hx => h x (List.mem_cons_of_mem _ hx)]

end

/-- Folding from the leaves up leaves exactly the normal forms as they are. -/
theorem refold_eq_self_iff : q.refold = q ↔ q.IsNormal :=
  ⟨fun h => h ▸ isNormal_refold q, refold_eq_self q⟩

/-! ## Restricting -/

theorem isNormal_present {id : RunId} : (present id).IsNormal :=
  isNormal_negate (isNormal_of_isLeaf rfl)

theorem isNormal_restrictTo {ids : List RunId} (h : q.IsNormal) : (restrictTo ids q).IsNormal := by
  have hany : (any (ids.map present)).IsNormal := by
    apply isNormal_any
    intro x hx
    obtain ⟨id, -, rfl⟩ := List.mem_map.1 hx
    exact isNormal_present
  unfold restrictTo
  split
  · next args =>
    exact isNormal_all (List.forall_mem_cons.2 ⟨hany, (isNormal_iff.1 h).2⟩)
  · exact isNormal_all (List.forall_mem_cons.2 ⟨hany, List.forall_mem_singleton.2 h⟩)

end BoundQuery

/-! ## Binding -/

namespace Binder

variable {b : Binder}

theorem inherited_isNormal (ids : List RunId) : BoundQuery.Inherited ids BoundQuery.IsNormal where
  leaf _ h _ := BoundQuery.isNormal_of_isLeaf h
  negate _ h := BoundQuery.isNormal_negate h
  all _ h := BoundQuery.isNormal_all h
  any _ h := BoundQuery.isNormal_any h
  tally _ _ _ h := BoundQuery.isNormal_iff.2 ⟨trivial, h⟩

/-- What a query is bound to is in normal form, whatever the runs and the metadata are. -/
theorem isNormal_bind (q : Query) (runs : List Run) : (b.bind q runs).IsNormal :=
  (inherited_isNormal (runs.map Run.id)).bind q runs fun _ => List.mem_map_of_mem

/-- A query bound to runs, restricted to tests with a result or not, is in normal form: constants
occur only as the whole of it or under a tally, and folding it anew does not change it. -/
theorem bound_in_normal_form (b : Binder) (q : Query) (runs : List Run) (ids : List RunId) :
    let bound := b.bind q runs
    let restricted := BoundQuery.restrictTo ids bound
    (bound.IsNormal ∧ bound.ConstantsTallied ∧ bound.refold = bound) ∧
      restricted.IsNormal ∧ restricted.ConstantsTallied ∧ restricted.refold = restricted := by
  intro bound restricted
  have hbound : bound.IsNormal := isNormal_bind q runs
  have hrestricted : restricted.IsNormal := BoundQuery.isNormal_restrictTo hbound
  exact ⟨⟨hbound, hbound.constantsTallied, BoundQuery.refold_eq_self_iff.2 hbound⟩,
    hrestricted, hrestricted.constantsTallied, BoundQuery.refold_eq_self_iff.2 hrestricted⟩

end Binder

end ResultSearch
