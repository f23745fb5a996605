import ResultSearch.Query.Basic
import ResultSearch.Metadata.Basic

/-!
# Bound queries

A query over particular runs: statuses are asked of runs by their ids, and metadata come with the
query. The constructors `all`, `any` and `negate` fold constants and nested trees of their own
kind away.

* `size_all_le`, `size_any_le`, `size_negate_le`: folding does not make a tree larger.
-/

namespace ResultSearch

/-- A query that can be evaluated on the results of runs. -/
inductive BoundQuery where
  | const (value : Bool)
  | testName (pattern : String)
  | subtestName (pattern : String)
  | testPath (path : String)
  | status (run : RunId) (test : StatusTest)
  | and (args : List BoundQuery)
  | or (args : List BoundQuery)
  | not (arg : BoundQuery)
  | tally (comparison : Comparison) (count : Nat) (args : List BoundQuery)
  | link (pattern : String) (metadata : PathValues)
  | triaged (run : RunId) (metadata : PathValues)
  | label (label : String) (metadata : PathValues)
  | feature (feature : String) (data : WebFeatures)
  | quality (quality : Quality)

instance : Inhabited BoundQuery := ⟨.const true⟩

namespace BoundQuery

/-! ## Folding -/

/-- The operands that are left of a conjunction: `true` is dropped, the operands of a conjunction
take its place, and nothing is left with a `false`. -/
def conjuncts : List BoundQuery → Option (List BoundQuery)
  | [] => some []
  | .const true :: rest => conjuncts rest
  | .const false :: _ => none
  | .and inner :: rest => (conjuncts rest).map (inner ++ ·)
  | q :: rest => (conjuncts rest).map (q :: ·)

/-- The operands that are left of a disjunction; nothing is left with a `true`. -/
def disjuncts : List BoundQuery → Option (List BoundQuery)
  | [] => some []
  | .const false :: rest => disjuncts rest
  | .const true :: _ => none
  | .or inner :: rest => (disjuncts rest).map (inner ++ ·)
  | q :: rest => (disjuncts rest).map (q :: ·)

/-- Every operand holds. -/
def all (args : List BoundQuery) : BoundQuery :=
  match conjuncts args with
  | none => .const false
  | some [] => .const true
  | some [q] => q
  | some qs => .and qs

/-- Some operand holds. -/
def any (args : List BoundQuery) : BoundQuery :=
  match disjuncts args with
  | none => .const true
  | some [] => .const false
  | some [q] => q
  | some qs => .or qs

/-- The operand does not hold. -/
def negate : BoundQuery → BoundQuery
  | .const b => .const !b
  | .not q => q
  | q => .not q

/-! ## Measures -/

mutual

/-- The number of leaves and negations; constants count nothing. -/
def size : BoundQuery → Nat
  | .const _ => 0
  | .and args => sizes args
  | .or args => sizes args
  | .tally _ _ args => sizes args
  | .not q => 1 + size q
  | .testName _ => 1
  | .subtestName _ => 1
  | .testPath _ => 1
  | .status _ _ => 1
  | .link _ _ => 1
  | .triaged _ _ => 1
  | .label _ _ => 1
  | .feature _ _ => 1
  | .quality _ => 1

/-- The sizes of all the queries together. -/
def sizes : List BoundQuery → Nat
  | [] => 0
  | q :: rest => size q + sizes rest

end

attribute [local simp] size sizes

mutual

/-- The runs that the leaves speak of, in the order of the leaves. -/
def mentions : BoundQuery → List RunId
  | .status run _ => [run]
  | .triaged run _ => [run]
  | .and args => mentionsAll args
  | .or args => mentionsAll args
  | .tally _ _ args => mentionsAll args
  | .not q => mentions q
  | .const _ => []
  | .testName _ => []
  | .subtestName _ => []
  | .testPath _ => []
  | .link _ _ => []
  | .label _ _ => []
  | .feature _ _ => []
  | .quality _ => []

/-- The runs that the leaves of the queries speak of. -/
def mentionsAll : List BoundQuery → List RunId
  | [] => []
  | q :: rest => mentions q ++ mentionsAll rest

end

/-- Put an id into its place among ascending ids. -/
def insertId (id : RunId) : List RunId → List RunId
  | [] => [id]
  | x :: rest =>
    if x = id then x :: rest
    else if id < x then id :: x :: rest
    else x :: insertId id rest

/-- The runs that the query speaks of, ascending and without repetition. -/
def runIds (q : BoundQuery) : List RunId := q.mentions.foldl (fun acc id => insertId id acc) []

theorem sizes_append (xs ys : List BoundQuery) : sizes (xs ++ ys) = sizes xs + sizes ys := by
  induction xs with
  | nil => simp
  | cons x rest ih => simp [ih, Nat.add_assoc]

theorem sizes_conjuncts {args qs : List BoundQuery} (h : conjuncts args = some qs) :
    sizes qs = sizes args := by
  fun_induction conjuncts args generalizing qs with
  | case1 => simp_all
  | case2 rest ih => simpa using ih h
  | case3 => simp at h
  | case4 inner rest ih =>
    obtain ⟨ps, hp, rfl⟩ := Option.map_eq_some_iff.1 h
    simp [sizes_append, ih hp]
  | case5 q rest _ _ _ ih =>
    obtain ⟨ps, hp, rfl⟩ := Option.map_eq_some_iff.1 h
    simp [ih hp]

theorem sizes_disjuncts {args qs : List BoundQuery} (h : disjuncts args = some qs) :
    sizes qs = sizes args := by
  fun_induction disjuncts args generalizing qs with
  | case1 => simp_all
  | case2 rest ih => simpa using ih h
  | case3 => simp at h
  | case4 inner rest ih =>
    obtain ⟨ps, hp, rfl⟩ := Option.map_eq_some_iff.1 h
    simp [sizes_append, ih hp]
  | case5 q rest _ _ _ ih =>
    obtain ⟨ps, hp, rfl⟩ := Option.map_eq_some_iff.1 h
    simp [ih hp]

theorem size_all_le (args : List BoundQuery) : size (all args) ≤ sizes args := by
  unfold all
  split
  · simp
  · simp
  · next q h => simpa using Nat.le_of_eq (sizes_conjuncts h)
  · next qs _ _ h => simpa using Nat.le_of_eq (sizes_conjuncts h)

theorem size_any_le (args : List BoundQuery) : size (any args) ≤ sizes args := by
  unfold any
  split
  · simp
  · simp
  · next q h => simpa using Nat.le_of_eq (sizes_disjuncts h)
  · next qs _ _ h => simpa using Nat.le_of_eq (sizes_disjuncts h)

theorem size_negate_le (q : BoundQuery) : size (negate q) ≤ 1 + size q := by
  unfold negate
  split
  · simp
  · simp only [size]
    omega
  · simp

end BoundQuery

end ResultSearch
