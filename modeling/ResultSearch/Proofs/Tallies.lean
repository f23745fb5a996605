import Mathlib
import ResultSearch.Proofs.Aggregation

/-!
# What the numbers of a row come to

The counters of a row are words, and the row of a test is found under the hash of its name. Over
fewer than `2 ^ 31` matches no counter wraps, and each is the number of the matches that it is said
to count; the histogram and the counters of the columns count the same passes.

* `sum_mul_countP`, `sum_map_countP`: a histogram sums up as what it counts, and counting by columns
  as counting by matches.
* `Aggregation.answered`, `finish_perm_answered`: one row for each hash, that of its matches.
* `Row.Tallies`, `tallies_ofGroup`: what the numbers of a row are.
* `passing_lt_length_histogramFor`: a match is counted at a place that the histogram has.
* `rows_tally_of_found`: all of it over the rows of some matches, in any order.
-/

namespace ResultSearch

/-! ## Sums over histograms and columns -/

section Sums

variable {α β : Type}

/-- Summed up over its places, each with its weight, a histogram comes to the weights of all that it
counts. -/
theorem sum_mul_countP {l : List α} {place : α → Nat} {width : Nat} (weight : Nat → Nat)
    (h : ∀ a ∈ l, place a < width) :
    ∑ k ∈ Finset.range width, weight k * l.countP (fun a => place a = k) =
      (l.map fun a => weight (place a)).sum := by
  induction l with
  | nil => simp
  | cons a rest ih =>
    have hplace : place a ∈ Finset.range width := Finset.mem_range.2 (h a List.mem_cons_self)
    have hone : ∑ k ∈ Finset.range width, (if place a = k then weight k else 0) =
        weight (place a) := by
      rw [Finset.sum_ite_eq, if_pos hplace]
    simp only [List.countP_cons, Nat.mul_add, Finset.sum_add_distrib, decide_eq_true_eq, mul_ite,
      Nat.mul_one, Nat.mul_zero]
    rw [ih fun x hx => h x (List.mem_cons_of_mem _ hx), hone, List.map_cons, List.sum_cons,
      Nat.add_comm]

theorem countP_eq_sum {l : List α} {p : α → Bool} :
    l.countP p = (l.map fun a => if p a then 1 else 0).sum := by
  induction l with
  | nil => rfl
  | cons a rest ih => rw [List.countP_cons, ih, List.map_cons, List.sum_cons, Nat.add_comm]

/-- Pairs are counted by their first or by their second components. -/
theorem sum_map_countP {l : List α} {r : List β} {p : α → β → Bool} :
    (r.map fun b => l.countP fun a => p a b).sum = (l.map fun a => r.countP (p a)).sum := by
  induction l with
  | nil => simp
  | cons a rest ih =>
    rw [List.map_cons, List.sum_cons, ← ih, countP_eq_sum, ← List.sum_map_add]
    refine congrArg List.sum (List.map_congr_left fun b _ => ?_)
    rw [List.countP_cons, Nat.add_comm]

end Sums

namespace RowOptions

/-- The status of a fingerprint counts: it is one, and not the status `ok` of a test itself where
these are ignored. -/
def Counts (options : RowOptions) (f : Fingerprint) (s : Status) : Prop :=
  s ≠ .unknown ∧ ¬(options.ignoreHarness = true ∧ f.sub = 0 ∧ s = .ok)

/-- The status counts, and as a pass. -/
def CountsAsPass (options : RowOptions) (f : Fingerprint) (s : Status) : Prop :=
  options.Counts f s ∧ (s = .pass ∨ s = .ok)

instance (options : RowOptions) (f : Fingerprint) (s : Status) : Decidable (options.Counts f s) :=
  inferInstanceAs (Decidable (_ ∧ _))

instance (options : RowOptions) (f : Fingerprint) (s : Status) :
    Decidable (options.CountsAsPass f s) :=
  inferInstanceAs (Decidable (_ ∧ _))

/-- In how many columns a fingerprint passes. -/
def passingIn (options : RowOptions) (columns : List RunResults) (f : Fingerprint) : Nat :=
  columns.countP fun results => options.CountsAsPass f (results.get f)

variable {options : RowOptions} {columns : List RunResults} {e : Fingerprint × TestName}

theorem counts_toMatch (s : Status) :
    (Aggregation.toMatch columns e).counts options s = decide (options.Counts e.1 s) := by
  rw [Bool.eq_iff_iff, decide_eq_true_eq, Counts]
  by_cases hsub : e.1.sub = 0 <;> cases hignore : options.ignoreHarness <;>
    simp [Match.counts, Aggregation.toMatch, Fingerprint.isSubtest, hsub, hignore]

theorem countsAsPass_toMatch (columns : List RunResults) (s : Status) :
    ((Aggregation.toMatch columns e).counts options s && s.passes) =
      decide (options.CountsAsPass e.1 s) := by
  rw [counts_toMatch, Bool.eq_iff_iff, decide_eq_true_eq, CountsAsPass]
  simp [Status.passes]

theorem countsIn_toMatch {i : Nat} {results : RunResults} (h : columns[i]? = some results) :
    (Aggregation.toMatch columns e).countsIn options i =
      decide (options.Counts e.1 (results.get e.1)) := by
  rw [Match.countsIn, ← counts_toMatch, Aggregation.toMatch, List.getElem?_map, h]
  rfl

theorem passesIn_toMatch {i : Nat} {results : RunResults} (h : columns[i]? = some results) :
    (Aggregation.toMatch columns e).passesIn options i =
      decide (options.CountsAsPass e.1 (results.get e.1)) := by
  rw [Match.passesIn, ← countsAsPass_toMatch columns, Aggregation.toMatch,
    List.getElem?_map, h]
  rfl

theorem passing_toMatch :
    (Aggregation.toMatch columns e).passing options = options.passingIn columns e.1 := by
  rw [Match.passing, Aggregation.toMatch, List.countP_map, passingIn]
  exact List.countP_congr fun results _ => by
    rw [Function.comp_apply, ← countsAsPass_toMatch columns, Aggregation.toMatch]

end RowOptions

/-! ## Tallies -/

/-- The numbers of a row are those of the matches of a group: the counters of each column, the
histogram and the subtests. -/
structure Row.Tallies (options : RowOptions) (columns : List RunResults)
    (group : List (Fingerprint × TestName)) (row : Row) : Prop where
  test : ∀ e ∈ group, row.test = e.2.test
  width : row.perRun.length = columns.length
  perRun : ∀ (i : Nat) (results : RunResults) (summary : RunSummary),
    columns[i]? = some results → row.perRun[i]? = some summary →
    summary.total.toNat = group.countP (fun e => options.Counts e.1 (results.get e.1)) ∧
    summary.passes.toNat = group.countP (fun e => options.CountsAsPass e.1 (results.get e.1))
  /-- There is a histogram if one is wanted. -/
  interop : row.interop.isSome = options.interop
  /-- The histogram has a place for each number of columns. -/
  places : ∀ h, row.interop = some h → h.length = columns.length + 1
  /-- The entry at `k` counts the matches that pass in exactly `k` columns. -/
  entry : ∀ h, row.interop = some h → ∀ k < h.length,
    (h.getD k 0).toNat = group.countP fun e => options.passingIn columns e.1 = k
  entries : ∀ h, row.interop = some h →
    ∑ k ∈ Finset.range h.length, (h.getD k 0).toNat = group.length
  /-- Weighted by their places the entries are the passes of all columns. -/
  passes : ∀ h, row.interop = some h →
    ∑ k ∈ Finset.range h.length, k * (h.getD k 0).toNat =
      (row.perRun.map fun summary => summary.passes.toNat).sum
  subtests : if options.includeSubtests then
      row.subtests.Pairwise (· ≤ ·) ∧ row.subtests.Perm (group.filterMap fun e => e.2.subtest)
    else row.subtests = []

namespace Row

variable {options : RowOptions} {columns : List RunResults}
  {group : List (Fingerprint × TestName)}

/-- The row of some matches, under a name. -/
def ofGroup (options : RowOptions) (columns : List RunResults) (test : String)
    (group : List (Fingerprint × TestName)) : Row :=
  ofMatches options columns.length test (group.map (Aggregation.toMatch columns))

/-- A counter of a group with few matches does not wrap. -/
theorem toNat_ofNat_countP (hfew : group.length < 2 ^ 31) (p : Fingerprint × TestName → Bool) :
    (UInt32.ofNat (group.countP p)).toNat = group.countP p :=
  UInt32.toNat_ofNat_of_lt <| by
    have hle := List.countP_le_length (p := p) (l := group)
    rw [UInt32.size]
    omega

theorem summary_toMatch (hfew : group.length < 2 ^ 31) {i : Nat} {results : RunResults}
    (h : columns[i]? = some results) :
    let s := summary options (group.map (Aggregation.toMatch columns)) i
    s.total.toNat = group.countP (fun e => options.Counts e.1 (results.get e.1)) ∧
    s.passes.toNat = group.countP (fun e => options.CountsAsPass e.1 (results.get e.1)) := by
  dsimp only [summary]
  rw [List.countP_map, List.countP_map, toNat_ofNat_countP hfew, toNat_ofNat_countP hfew]
  exact ⟨List.countP_congr fun e _ => by rw [Function.comp_apply, RowOptions.countsIn_toMatch h],
    List.countP_congr fun e _ => by rw [Function.comp_apply, RowOptions.passesIn_toMatch h]⟩

theorem passingIn_lt {f : Fingerprint} : options.passingIn columns f < columns.length + 1 :=
  Nat.lt_succ_of_le List.countP_le_length

theorem length_histogram {width : Nat} {l : List Match} :
    (histogram options width l).length = width + 1 := by
  rw [histogram, List.length_map, List.length_range]

theorem eq_histogram_of_interop {test : String} {h : List UInt32}
    (hh : (ofGroup options columns test group).interop = some h) :
    histogram options columns.length (group.map (Aggregation.toMatch columns)) = h := by
  simp only [ofGroup, ofMatches] at hh
  split at hh
  · exact Option.some.inj hh
  · cases hh

theorem getD_histogram_toMatch (hfew : group.length < 2 ^ 31) {k : Nat}
    (hk : k < columns.length + 1) :
    ((histogram options columns.length (group.map (Aggregation.toMatch columns))).getD k 0).toNat =
      group.countP fun e => options.passingIn columns e.1 = k := by
  rw [histogram, List.getD_eq_getElem?_getD, List.getElem?_map, List.getElem?_range hk,
    Option.map_some, Option.getD_some, List.countP_map, toNat_ofNat_countP hfew]
  exact List.countP_congr fun e _ => by rw [Function.comp_apply, RowOptions.passing_toMatch]

/-- Any sum over a histogram is one over the matches that it counts. -/
theorem sum_histogram_toMatch (options : RowOptions) (columns : List RunResults)
    (hfew : group.length < 2 ^ 31) (weight : Nat → Nat) :
    let h := histogram options columns.length (group.map (Aggregation.toMatch columns))
    ∑ k ∈ Finset.range h.length, weight k * (h.getD k 0).toNat =
      (group.map fun e => weight (options.passingIn columns e.1)).sum := by
  dsimp only
  rw [← sum_mul_countP weight fun e _ => passingIn_lt, length_histogram]
  refine Finset.sum_congr rfl fun k hk => ?_
  rw [getD_histogram_toMatch hfew (Finset.mem_range.1 hk)]

theorem sum_passes_ofGroup (hfew : group.length < 2 ^ 31) {test : String} :
    ((ofGroup options columns test group).perRun.map fun summary => summary.passes.toNat).sum =
      (group.map fun e => options.passingIn columns e.1).sum := by
  have hcolumns : ((ofGroup options columns test group).perRun.map
      fun summary => summary.passes.toNat) = columns.map fun results =>
        group.countP fun e => options.CountsAsPass e.1 (results.get e.1) := by
    refine List.ext_getElem (by simp [ofGroup, ofMatches]) fun i hi hi' => ?_
    have hlt : i < columns.length := by simpa using hi'
    simp only [ofGroup, ofMatches, List.getElem_map, List.getElem_range]
    exact (summary_toMatch hfew (List.getElem?_eq_getElem hlt)).2
  rw [hcolumns, sum_map_countP]
  rfl

theorem tallies_ofGroup (hfew : group.length < 2 ^ 31) {test : String}
    (htest : ∀ e ∈ group, test = e.2.test) :
    (ofGroup options columns test group).Tallies options columns group where
  test := htest
  width := by simp [ofGroup, ofMatches]
  perRun i results summary hresults hsummary := by
    have hi : i < columns.length := (List.getElem?_eq_some_iff.1 hresults).1
    simp only [ofGroup, ofMatches, List.getElem?_map, List.getElem?_range hi, Option.map_some,
      Option.some.injEq] at hsummary
    rw [← hsummary]
    exact summary_toMatch hfew hresults
  interop := by cases hi : options.interop <;> simp [ofGroup, ofMatches, hi]
  places h hh := by
    rw [← eq_histogram_of_interop hh, length_histogram]
  entry h hh k hk := by
    rw [← eq_histogram_of_interop hh, length_histogram] at hk
    rw [← eq_histogram_of_interop hh]
    exact getD_histogram_toMatch hfew hk
  entries h hh := by
    have hsum := sum_histogram_toMatch options columns hfew fun _ => 1
    rw [eq_histogram_of_interop hh] at hsum
    simpa using hsum
  passes h hh := by
    have hsum := sum_histogram_toMatch options columns hfew id
    rw [eq_histogram_of_interop hh] at hsum
    exact hsum.trans (sum_passes_ofGroup hfew).symm
  subtests := by
    cases hs : options.includeSubtests with
    | false => simp [ofGroup, ofMatches, hs]
    | true =>
      have hnames : (group.map (Aggregation.toMatch columns)).filterMap Match.subtest =
          group.filterMap fun e => e.2.subtest := by
        rw [List.filterMap_map]
        rfl
      simp only [ofGroup, ofMatches, hs, if_true, hnames]
      exact ⟨Sorting.pairwise_mergeSort (f := id), List.mergeSort_perm _ _⟩

end Row

namespace Aggregation

variable {options : RowOptions} {columns : List RunResults}
  {found found' : List (Fingerprint × TestName)}

/-! ## One row for each hash -/

/-- The row that is answered for a hash, if there are matches under it. -/
def answered (options : RowOptions) (columns : List RunResults)
    (found : List (Fingerprint × TestName)) (hash : UInt64) : Option Row :=
  ((gather options columns found).rows.get? hash).map (finishRow options)

/-- The row is that of the matches under the hash, with the name of the first. -/
theorem answered_eq {hash : UInt64} : answered options columns found hash =
    let group := found.filter fun e => e.1.test = hash
    group.head?.map fun e => Row.ofGroup options columns e.2.test group := by
  rw [answered, get?_rows_gather]
  dsimp only
  cases hgroup : found.filter fun e => e.1.test = hash with
  | nil => rfl
  | cons e rest =>
    simp only [List.head?_cons, Option.map_some]
    exact congrArg some (finishRow_gathered (List.cons_ne_nil _ _))

theorem exists_answered_iff (options : RowOptions) (columns : List RunResults) {hash : UInt64} :
    (∃ row, answered options columns found hash = some row) ↔ ∃ e ∈ found, e.1.test = hash := by
  rw [answered_eq, ← Option.isSome_iff_exists, Option.isSome_map, List.isSome_head?, Ne,
    List.filter_eq_nil_iff]
  simp

theorem mem_keys_gather {hash : UInt64} :
    hash ∈ (gather options columns found).rows.keys ↔ ∃ e ∈ found, e.1.test = hash := by
  rw [← exists_answered_iff options columns, ← Table.contains_iff_mem_keys,
    Table.contains_iff_exists]
  simp [answered]

theorem finish_gather_eq : (gather options columns found).finish options =
    (gather options columns found).rows.keys.filterMap (answered options columns found) := by
  rw [finish, Table.values_eq_filterMap_keys, List.map_filterMap]
  rfl

/-- There is one row for each hash. -/
theorem finish_perm_answered : ((gather options columns found).finish options).Perm
    ((found.map fun e => e.1.test).dedup.filterMap (answered options columns found)) := by
  rw [finish_gather_eq]
  refine List.Perm.filterMap _ ?_
  refine (List.perm_ext_iff_of_nodup (Table.nodup _) (List.nodup_dedup _)).2 fun hash => ?_
  exact mem_keys_gather.trans (List.mem_dedup.trans List.mem_map).symm

/-- The histogram that one more match under a hash is counted in: that of its row so far, or an
empty one. -/
def histogramFor (a : Aggregation) (width : Nat) (hash : UInt64) : List UInt32 :=
  ((a.rows.get? hash).bind Row.interop).getD (List.replicate (width + 1) 0)

theorem length_histogramFor {hash : UInt64} :
    ((gather options columns found).histogramFor columns.length hash).length =
      columns.length + 1 := by
  rw [histogramFor, get?_rows_gather]
  dsimp only
  cases found.filter fun e => e.1.test = hash with
  | nil => exact List.length_replicate
  | cons e rest =>
    cases hi : options.interop <;> simp [gathered, hi, Row.length_histogram]

theorem histogramFor_add {a : Aggregation} {f : Fingerprint} {name : TestName}
    (hi : options.interop = true) :
    (a.add columns options f name).histogramFor columns.length f.test =
      bump (a.histogramFor columns.length f.test)
        (passing options f (columns.map fun results => results.get f)) := by
  rw [histogramFor, add, Table.get?_set_self, Option.bind_some, addToRow, hi, if_pos rfl,
    Option.getD_some, histogramFor]
  cases a.rows.get? f.test <;> rfl

/-- The place at which a match is counted is one that the histogram has. -/
theorem passing_lt_length_histogramFor {e : Fingerprint × TestName} :
    passing options e.1 (columns.map fun results => results.get e.1) <
      ((gather options columns found).histogramFor columns.length e.1.test).length := by
  have hsub : (toMatch columns e).isSubtest = e.1.isSubtest := rfl
  have hplace : passing options e.1 (columns.map fun results => results.get e.1) =
      options.passingIn columns e.1 := (passing_eq hsub).trans RowOptions.passing_toMatch
  rw [length_histogramFor, hplace]
  exact Row.passingIn_lt

variable (hnames : ∀ e ∈ found, ∀ x ∈ found, e.1.test = x.1.test → e.2.test = x.2.test)

include hnames

/-- The first of the matches under a hash gives their row the name that all of them have. -/
theorem answered_of_mem {e : Fingerprint × TestName} (he : e ∈ found) :
    answered options columns found e.1.test =
      some (Row.ofGroup options columns e.2.test (found.filter fun x => x.1.test = e.1.test)) := by
  obtain ⟨row, hrow⟩ := (exists_answered_iff options columns).2 ⟨e, he, rfl⟩
  rw [hrow]
  rw [answered_eq] at hrow
  obtain ⟨x, hhead, rfl⟩ := Option.map_eq_some_iff.1 hrow
  obtain ⟨hx, hhash⟩ := List.mem_filter.1 (List.mem_of_mem_head? hhead)
  rw [hnames x hx e he (of_decide_eq_true hhash)]

/-- The order in which the matches come makes no difference to the row of a hash. -/
theorem answered_eq_of_perm (hperm : found.Perm found') (hash : UInt64) :
    answered options columns found' hash = answered options columns found hash := by
  have hnames' : ∀ e ∈ found', ∀ x ∈ found', e.1.test = x.1.test → e.2.test = x.2.test :=
    fun e he x hx => hnames e (hperm.symm.subset he) x (hperm.symm.subset hx)
  by_cases hany : ∃ e ∈ found, e.1.test = hash
  · obtain ⟨e, he, rfl⟩ := hany
    rw [answered_of_mem hnames he, answered_of_mem hnames' (hperm.subset he), Row.ofGroup,
      Row.ofGroup, Row.ofMatches_perm ((hperm.symm.filter _).map _)]
  · have hany' : ¬∃ e ∈ found', e.1.test = hash := by simpa [hperm.mem_iff] using hany
    rw [← exists_answered_iff options columns, ← Option.ne_none_iff_exists', not_not] at hany hany'
    rw [hany, hany']

theorem finish_perm_of_perm (hperm : found.Perm found') :
    ((gather options columns found').finish options).Perm
      ((gather options columns found).finish options) := by
  have hhashes : (found'.map fun e => e.1.test).dedup.filterMap (answered options columns found) =
      (found'.map fun e => e.1.test).dedup.filterMap (answered options columns found') :=
    List.filterMap_congr fun hash _ => (answered_eq_of_perm hnames hperm hash).symm
  refine (finish_perm_answered.trans ?_).trans finish_perm_answered.symm
  rw [← hhashes]
  exact ((hperm.symm.map _).dedup).filterMap _

theorem tallies_answered (hfew : found.length < 2 ^ 31) {e : Fingerprint × TestName}
    (he : e ∈ found) : ∃ row, answered options columns found e.1.test = some row ∧
      row.Tallies options columns (found.filter fun x => x.1.test = e.1.test) := by
  refine ⟨_, answered_of_mem hnames he, ?_⟩
  refine Row.tallies_ofGroup (Nat.lt_of_le_of_lt (List.length_filter_le _ _) hfew) fun x hx => ?_
  obtain ⟨hx, hhash⟩ := List.mem_filter.1 hx
  exact hnames e he x hx (of_decide_eq_true hhash).symm

/-- Over fewer than `2 ^ 31` matches, with one name for each hash, the rows are the same in any
order of the matches, no match is counted at a place that its histogram lacks, and there is one row
for each hash, with the numbers of the matches under it. -/
theorem rows_tally_of_found (options : RowOptions) (columns : List RunResults)
    (hfew : found.length < 2 ^ 31) :
    (∀ found', found.Perm found' → ((gather options columns found').finish options).Perm
      ((gather options columns found).finish options)) ∧
    (∀ before e after, found = before ++ e :: after →
      let place := passing options e.1 (columns.map fun results => results.get e.1)
      let h := (gather options columns before).histogramFor columns.length e.1.test
      place < h.length ∧ (options.interop = true →
        (gather options columns (before ++ [e])).histogramFor columns.length e.1.test =
          bump h place)) ∧
    ((gather options columns found).finish options).Perm
      ((found.map fun e => e.1.test).dedup.filterMap (answered options columns found)) ∧
    ∀ e ∈ found, ∃ row, answered options columns found e.1.test = some row ∧
      row.Tallies options columns (found.filter fun x => x.1.test = e.1.test) := by
  refine ⟨fun found' hperm => finish_perm_of_perm hnames hperm, fun before e after _ => ?_,
    finish_perm_answered, fun e he => tallies_answered hnames hfew he⟩
  refine ⟨passing_lt_length_histogramFor, fun hi => ?_⟩
  rw [gather_append]
  exact histogramFor_add hi

omit hnames in
/-- A test whose own status `ok` is ignored, with one subtest that passes in both columns and one
that fails, beside another test. -/
theorem rows_tally_of_two_tests :
    let first := RunResults.ofList [(⟨1, 0⟩, .ok), (⟨1, 5⟩, .pass), (⟨2, 0⟩, .fail)]
    let second := RunResults.ofList [(⟨1, 5⟩, .pass), (⟨1, 6⟩, .fail)]
    let found : List (Fingerprint × TestName) := [(⟨1, 0⟩, ⟨"t", none⟩), (⟨1, 6⟩, ⟨"t", some "b"⟩),
      (⟨2, 0⟩, ⟨"u", none⟩), (⟨1, 5⟩, ⟨"t", some "a"⟩)]
    let options : RowOptions := ⟨true, true, true, false, .standard⟩
    (∀ e ∈ found, ∀ x ∈ found, e.1.test = x.1.test → e.2.test = x.2.test) ∧
    found.length < 2 ^ 31 ∧
    ((gather options [first, second] found.reverse).finish options).Perm
      ((gather options [first, second] found).finish options) ∧
    ∃ row, answered options [first, second] found 1 = some row ∧
      row.Tallies options [first, second] [found[0], found[1], found[3]] ∧
      row.perRun = [⟨1, 1⟩, ⟨1, 2⟩] ∧ row.interop = some [2, 0, 1] := by
  intro first second found options
  have hnames : ∀ e ∈ found, ∀ x ∈ found, e.1.test = x.1.test → e.2.test = x.2.test := by decide
  have hfew : found.length < 2 ^ 31 := by decide
  obtain ⟨hperm, -, -, hrows⟩ := rows_tally_of_found hnames options [first, second] hfew
  obtain ⟨row, hrow, htallies⟩ := hrows found[0] List.mem_cons_self
  have hperRun : (answered options [first, second] found 1).map Row.perRun =
      some [⟨1, 1⟩, ⟨1, 2⟩] := by decide
  have hinterop : (answered options [first, second] found 1).map Row.interop =
      some (some [2, 0, 1]) := by decide
  have hrow : answered options [first, second] found 1 = some row := hrow
  rw [hrow] at hperRun hinterop
  exact ⟨hnames, hfew, hperm _ (List.reverse_perm _).symm, row, hrow, htallies,
    Option.some.inj hperRun, Option.some.inj hinterop⟩

end Aggregation

end ResultSearch
