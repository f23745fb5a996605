import Mathlib.Data.List.Dedup
import Mathlib.Data.List.Induction
import Mathlib.Data.List.Perm.Basic
import ResultSearch.Aggregation
import ResultSearch.Proofs.Sorting
import ResultSearch.Proofs.Table

/-!
# What a row counts

A row says how many of the matches of a test have this or that property, whichever order they came
in. `Row.ofMatches` counts them at once; the aggregation, which takes one match after the other and
counts on, comes to the same rows.

* `Row.ofMatches_perm`: a row does not depend on the order of the matches.
* `addToRow_gathered`: one more match counts one more.
* `get?_rows_gather`: the row under a hash is that of the matches under the hash.
* `exists_of_mem_finish`: every row that is answered is one of some matches.
* `finish_gather_perm`: over names that their hashes tell apart there is one row for each test;
  `finish_gather_perm_of_perm`: whichever order the matches come in.
-/

namespace ResultSearch

namespace DiffFilter

/-- The result passes in the second run and not in the first, and that is selected. -/
def gains (filter : DiffFilter) (before after : Status) : Bool :=
  after.passes && !before.passes && if before = .unknown then filter.added else filter.changed

/-- The result is in the second run without passing, is new or did pass in the first run, and that
is selected. -/
def loses (filter : DiffFilter) (before after : Status) : Bool :=
  after ≠ .unknown && !after.passes &&
    if before = .unknown then filter.added else before.passes && filter.changed

/-- The result is in the first run only, and that is selected. -/
def drops (filter : DiffFilter) (before after : Status) : Bool :=
  before ≠ .unknown && after = .unknown && filter.deleted

end DiffFilter

/-! ## Matches -/

/-- What a row learns of a match. -/
structure Match where
  isSubtest : Bool
  subtest : Option String
  /-- One status for each column. -/
  statuses : List Status

namespace Match

variable (options : RowOptions)

/-- A status counts if there is a result, and not only the harness of a test that went well where
these are ignored. -/
def counts (m : Match) (s : Status) : Bool :=
  s ≠ .unknown && (m.isSubtest || s ≠ .ok || !options.ignoreHarness)

/-- Whether the match counts in a column. -/
def countsIn (column : Nat) (m : Match) : Bool := m.statuses[column]?.any (m.counts options)

/-- Whether the match counts in a column and passes there. -/
def passesIn (column : Nat) (m : Match) : Bool :=
  m.statuses[column]?.any fun s => m.counts options s && s.passes

/-- In how many columns the match passes. -/
def passing (m : Match) : Nat := m.statuses.countP fun s => m.counts options s && s.passes

/-- A change between two columns, which are all. -/
def changes (p : Status → Status → Bool) (m : Match) : Bool :=
  match m.statuses with
  | [before, after] => p before after
  | _ => false

end Match

/-! ## Rows of matches -/

namespace Row

/-- How many matches of a group count in a column, and how many of them pass. -/
def summary (options : RowOptions) (group : List Match) (column : Nat) : RunSummary where
  passes := .ofNat (group.countP (Match.passesIn options column))
  total := .ofNat (group.countP (Match.countsIn options column))

/-- How many matches of a group pass in no column, in one, and so on up to all of them. -/
def histogram (options : RowOptions) (columns : Nat) (group : List Match) : List UInt32 :=
  (List.range (columns + 1)).map fun k => .ofNat (group.countP fun m => m.passing options = k)

/-- How many matches of a group gain, lose and drop out between the two columns. -/
def difference (filter : DiffFilter) (group : List Match) : RowDiff where
  newlyPassing := .ofNat (group.countP (Match.changes filter.gains))
  regressions := .ofNat (group.countP (Match.changes filter.loses))
  totalDelta := -.ofNat (group.countP (Match.changes filter.drops))

/-- The row of a test over a number of columns, from all its matches. -/
def ofMatches (options : RowOptions) (columns : Nat) (test : String) (group : List Match) :
    Row where
  test := test
  perRun := (List.range columns).map (summary options group)
  interop := if options.interop then some (histogram options columns group) else none
  subtests :=
    if options.includeSubtests then
      (group.filterMap Match.subtest).mergeSort fun a b => decide (a ≤ b)
    else []
  diff :=
    let d := difference options.diffFilter group
    if options.includeDiff && columns = 2 && (options.diffFilter.unchanged || !d.isEmpty) then
      some d
    else none

theorem ofMatches_perm {options : RowOptions} {columns : Nat} {test : String} {l r : List Match}
    (h : l.Perm r) : ofMatches options columns test l = ofMatches options columns test r := by
  have hsummary : summary options l = summary options r := by
    funext i
    rw [summary, summary, h.countP_eq, h.countP_eq]
  have hhistogram : histogram options columns l = histogram options columns r := by
    refine List.map_congr_left fun k _ => ?_
    rw [h.countP_eq]
  have hdifference : difference options.diffFilter l = difference options.diffFilter r := by
    rw [difference, difference, h.countP_eq, h.countP_eq, h.countP_eq]
  have hsubtests : ((l.filterMap Match.subtest).mergeSort fun a b => decide (a ≤ b)) =
      (r.filterMap Match.subtest).mergeSort fun a b => decide (a ≤ b) :=
    Sorting.mergeSort_eq_mergeSort (f := id) (fun _ _ _ _ => id) (h.filterMap Match.subtest)
  rw [ofMatches, ofMatches, hsummary, hhistogram, hdifference, hsubtests]

end Row

namespace Aggregation

/-! ## One row -/

/-- What a row learns of the match of a fingerprint. -/
def toMatch (columns : List RunResults) (e : Fingerprint × TestName) : Match where
  isSubtest := e.1.isSubtest
  subtest := e.2.subtest
  statuses := columns.map fun results => results.get e.1

/-- A row as far as it has come, before it is finished. -/
def gathered (options : RowOptions) (columns : Nat) (test : String) (group : List Match) : Row where
  test := test
  perRun := (List.range columns).map (Row.summary options group)
  interop :=
    if options.interop && !group.isEmpty then some (Row.histogram options columns group) else none
  subtests := if options.includeSubtests then group.filterMap Match.subtest else []
  diff :=
    if options.includeDiff && columns = 2 && !group.isEmpty then
      some (Row.difference options.diffFilter group)
    else none

variable {options : RowOptions} {columns : List RunResults}

theorem gathered_nil {width : Nat} {test : String} :
    gathered options width test [] = blankRow test width := by
  have hperRun : (List.range width).map (Row.summary options []) = List.replicate width .zero := by
    rw [List.eq_replicate_iff]
    refine ⟨by simp, fun s hs => ?_⟩
    obtain ⟨i, -, rfl⟩ := List.mem_map.1 hs
    rfl
  rw [gathered, blankRow, hperRun]
  simp

theorem finishRow_gathered {width : Nat} {test : String} {group : List Match} (h : group ≠ []) :
    finishRow options (gathered options width test group) =
      Row.ofMatches options width test group := by
  have hne : group.isEmpty = false := by simpa using h
  rw [finishRow, gathered, Row.ofMatches, hne]
  simp only [Bool.not_false, Bool.and_true, Row.mk.injEq, true_and]
  refine ⟨?_, ?_⟩
  · split
    · rfl
    · exact List.mergeSort_nil
  · cases options.includeDiff && decide (width = 2) with
    | false => rfl
    | true =>
      rw [if_pos rfl, Bool.true_and]
      rfl

theorem counts_eq {f : Fingerprint} {m : Match} (h : m.isSubtest = f.isSubtest) (s : Status) :
    counts options f s = m.counts options s := by
  rw [counts, Match.counts, h]
  cases options.ignoreHarness <;> cases f.isSubtest <;> simp

theorem passing_eq {f : Fingerprint} {m : Match} (h : m.isSubtest = f.isSubtest) :
    passing options f m.statuses = m.passing options := by
  rw [passing, Match.passing]
  simp only [counts_eq h]

theorem countStatus_summary {f : Fingerprint} {m : Match} (h : m.isSubtest = f.isSubtest)
    {group : List Match} {i : Nat} {s : Status} (hs : m.statuses[i]? = some s) :
    countStatus options f (Row.summary options group i) s =
      Row.summary options (group ++ [m]) i := by
  rw [countStatus, counts_eq h, Row.summary, Row.summary, List.countP_append, List.countP_append,
    List.countP_singleton, List.countP_singleton, Match.countsIn, Match.passesIn, hs,
    Option.any_some, Option.any_some]
  cases m.counts options s with
  | false => simp
  | true => cases hpasses : s.passes <;> simp [RunSummary.count]

theorem histogram_nil {columns : Nat} :
    Row.histogram options columns [] = List.replicate (columns + 1) 0 := by
  rw [Row.histogram, List.eq_replicate_iff]
  refine ⟨by simp, fun n hn => ?_⟩
  obtain ⟨k, -, rfl⟩ := List.mem_map.1 hn
  rfl

theorem difference_nil {filter : DiffFilter} : Row.difference filter [] = .zero := by
  simp only [Row.difference, List.countP_nil]
  decide

/-- One more match that passes in some number of columns is one more at that place. -/
theorem bump_histogram {columns : Nat} {group : List Match} {m : Match} :
    bump (Row.histogram options columns group) (m.passing options) =
      Row.histogram options columns (group ++ [m]) := by
  refine List.ext_getElem (by simp [bump, Row.histogram]) fun k hk hk' => ?_
  simp only [bump, Row.histogram, List.getElem_modify, List.getElem_map, List.getElem_range,
    List.countP_append, List.countP_singleton, UInt32.ofNat_add, decide_eq_true_eq]
  split
  · rfl
  · exact (UInt32.add_zero _).symm

theorem append_difference {filter : DiffFilter} {group : List Match} {m : Match}
    {before after : Status} (h : m.statuses = [before, after]) :
    (Row.difference filter group).append before after filter =
      Row.difference filter (group ++ [m]) := by
  have hchanges (p : Status → Status → Bool) : m.changes p = p before after := by
    rw [Match.changes, h]
  have hunknown : Status.unknown.passes = false := rfl
  simp only [Row.difference, List.countP_append, List.countP_singleton, hchanges, RowDiff.append,
    DiffFilter.gains, DiffFilter.loses, DiffFilter.drops]
  by_cases hb : before = .unknown
  · by_cases ha : after = .unknown
    · simp [hb, ha, hunknown]
    · cases filter.added <;> cases after.passes <;> simp [hb, ha, hunknown]
  · by_cases ha : after = .unknown
    · cases filter.deleted
      · simp [hb, ha, hunknown]
      · simp [hb, ha, hunknown, Int32.neg_add, Int32.sub_eq_add_neg]
    · cases filter.changed <;> cases before.passes <;> cases after.passes <;> simp [hb, ha]

variable {group : List Match} {e : Fingerprint × TestName}

theorem perRun_step : List.zipWith (countStatus options e.1)
    ((List.range columns.length).map (Row.summary options group))
      (columns.map fun results => results.get e.1) =
    (List.range columns.length).map (Row.summary options (group ++ [toMatch columns e])) := by
  refine List.ext_getElem (by simp) fun i hi hi' => ?_
  have hlt : i < columns.length := by simpa using hi'
  rw [List.getElem_zipWith, List.getElem_map, List.getElem_map, List.getElem_range,
    List.getElem_map, List.getElem_range]
  apply countStatus_summary rfl
  rw [toMatch, List.getElem?_map, List.getElem?_eq_getElem hlt]
  rfl

theorem interop_step {test : String} : (if options.interop then
      some (bump ((gathered options columns.length test group).interop.getD
        (List.replicate (columns.length + 1) 0)) (passing options e.1 (toMatch columns e).statuses))
    else (gathered options columns.length test group).interop) =
    if options.interop then
      some (Row.histogram options columns.length (group ++ [toMatch columns e])) else none := by
  have hsub : (toMatch columns e).isSubtest = e.1.isSubtest := rfl
  cases hi : options.interop with
  | false => simp [gathered, hi]
  | true =>
    rw [passing_eq hsub, ← bump_histogram, gathered, hi]
    cases group with
    | nil => simp [histogram_nil]
    | cons m rest => rfl

/-- One more match counts one more in every part of the row. -/
theorem addToRow_gathered {test : String} :
    addToRow columns options e.1 e.2 (gathered options columns.length test group) =
      gathered options columns.length test (group ++ [toMatch columns e]) := by
  have hempty : (!(group ++ [toMatch columns e]).isEmpty) = true := by simp
  refine (Row.mk.injEq ..).mpr ⟨rfl, perRun_step, ?_, ?_, ?_⟩
  · rw [hempty, Bool.and_true]
    exact interop_step
  · cases hs : options.includeSubtests <;> cases he : e.2.subtest <;>
      simp [gathered, toMatch, hs, he]
  · rw [hempty, Bool.and_true]
    by_cases htwo : columns.length = 2
    · obtain ⟨before, after, rfl⟩ := List.length_eq_two.1 htwo
      cases hd : options.includeDiff with
      | false => simp [gathered, hd]
      | true =>
        rw [← append_difference (m := toMatch [before, after] e) rfl, gathered, hd]
        cases group with
        | nil => simp [difference_nil]
        | cons m rest => rfl
    · split
      · next before after hpair =>
        have hlength := congrArg List.length hpair
        rw [List.length_map] at hlength
        exact absurd hlength htwo
      · simp [gathered, htwo]

/-! ## All rows -/

/-- The aggregation of some matches, one after the other. -/
def gather (options : RowOptions) (columns : List RunResults)
    (found : List (Fingerprint × TestName)) : Aggregation :=
  found.foldl (fun a e => a.add columns options e.1 e.2) empty

variable {found : List (Fingerprint × TestName)}

theorem gather_append {e : Fingerprint × TestName} : gather options columns (found ++ [e]) =
    (gather options columns found).add columns options e.1 e.2 := by
  rw [gather, List.foldl_append]
  rfl

/-- The row under a hash is that of the matches under it, with the name of the first. -/
theorem get?_rows_gather (hash : UInt64) : (gather options columns found).rows.get? hash =
    let group := found.filter fun e => e.1.test = hash
    group.head?.map fun e =>
      gathered options columns.length e.2.test (group.map (toMatch columns)) := by
  induction found using List.reverseRecOn with
  | nil => rfl
  | append_singleton l e ih =>
    rw [gather_append, add, Table.get?_set, List.filter_append]
    by_cases hash_eq : hash = e.1.test
    · subst hash_eq
      rw [if_pos rfl, ih]
      cases hgroup : l.filter fun x => x.1.test = e.1.test with
      | nil =>
        have hfirst : addToRow columns options e.1 e.2 (blankRow e.2.test columns.length) =
            gathered options columns.length e.2.test [toMatch columns e] := by
          rw [← gathered_nil, addToRow_gathered]
          rfl
        simp [hfirst]
      | cons x rest =>
        simp only [List.head?_cons, Option.map_some, Option.getD_some, addToRow_gathered]
        simp
    · have hne : (decide (e.1.test = hash)) = false := decide_eq_false (Ne.symm hash_eq)
      rw [if_neg hash_eq, ih, List.filter_cons, hne]
      simp

/-- A row that is answered is that of the matches under some hash. -/
theorem exists_of_mem_finish {row : Row} (h : row ∈ (gather options columns found).finish options) :
    ∃ hash e rest, (found.filter fun e => e.1.test = hash) = e :: rest ∧
      row = Row.ofMatches options columns.length e.2.test ((e :: rest).map (toMatch columns)) := by
  obtain ⟨unfinished, hmem, rfl⟩ := List.mem_map.1 h
  obtain ⟨⟨hash, row⟩, hentry, rfl⟩ := List.mem_map.1 hmem
  have hget := Table.get?_eq_some_iff.2 hentry
  rw [get?_rows_gather] at hget
  obtain ⟨e, hhead, rfl⟩ := Option.map_eq_some_iff.1 hget
  obtain ⟨rest, hgroup⟩ := List.head?_eq_some_iff.1 hhead
  refine ⟨hash, e, rest, hgroup, ?_⟩
  rw [hgroup]
  exact finishRow_gathered (List.cons_ne_nil _ _)

section Naming

variable (hash : NameHash) (hname : ∀ e ∈ found, e.1.test = hash e.2.test)
  (hinj : ∀ e ∈ found, ∀ x ∈ found, hash e.2.test = hash x.2.test → e.2.test = x.2.test)

include hname hinj

/-- With names that their hashes tell apart the row of a test is that of its matches. -/
theorem get?_rows_gather_of_mem {e : Fingerprint × TestName} (he : e ∈ found) :
    (gather options columns found).rows.get? (hash e.2.test) =
      some (gathered options columns.length e.2.test
        ((found.filter fun x => x.2.test = e.2.test).map (toMatch columns))) := by
  have hgroup : (found.filter fun x => x.1.test = hash e.2.test) =
      found.filter fun x => x.2.test = e.2.test := by
    refine List.filter_congr fun x hx => ?_
    rw [hname x hx, decide_eq_decide]
    exact ⟨hinj x hx e he, congrArg hash⟩
  rw [get?_rows_gather, hgroup]
  dsimp only
  -- The group is not empty, as `e` is in it, and its first match has the same test.
  cases hhead : (found.filter fun x => x.2.test = e.2.test).head? with
  | none =>
    have hnil := List.head?_eq_none_iff.1 hhead
    exact absurd (decide_eq_true rfl) (List.filter_eq_nil_iff.1 hnil e he)
  | some x =>
    have htest := of_decide_eq_true (List.mem_filter.1 (List.mem_of_mem_head? hhead)).2
    rw [Option.map_some, htest]

theorem entries_gather_perm : (gather options columns found).rows.entries.Perm
    ((found.map fun e => e.2.test).dedup.map fun test =>
      (hash test, gathered options columns.length test
        ((found.filter fun e => e.2.test = test).map (toMatch columns)))) := by
  refine (List.perm_ext_iff_of_nodup (List.Nodup.of_map _ (Table.nodup _)) ?_).2 fun p => ?_
  · refine (List.nodup_dedup _).map_on fun t ht t' ht' heq => ?_
    obtain ⟨e, he, rfl⟩ := List.mem_map.1 (List.mem_dedup.1 ht)
    obtain ⟨x, hx, rfl⟩ := List.mem_map.1 (List.mem_dedup.1 ht')
    exact hinj e he x hx (congrArg Prod.fst heq)
  · obtain ⟨h, row⟩ := p
    rw [← Table.get?_eq_some_iff, List.mem_map]
    constructor
    · intro hget
      have hany := (get?_rows_gather h).symm.trans hget
      obtain ⟨e, hhead, -⟩ := Option.map_eq_some_iff.1 hany
      obtain ⟨he, hhash⟩ := List.mem_filter.1 (List.mem_of_mem_head? hhead)
      obtain rfl := (hname e he).symm.trans (of_decide_eq_true hhash)
      refine ⟨e.2.test, List.mem_dedup.2 (List.mem_map_of_mem he), ?_⟩
      rw [get?_rows_gather_of_mem hash hname hinj he] at hget
      rw [Option.some.inj hget]
    · rintro ⟨t, ht, heq⟩
      obtain ⟨e, he, rfl⟩ := List.mem_map.1 (List.mem_dedup.1 ht)
      obtain ⟨rfl, rfl⟩ := Prod.mk.inj heq
      exact get?_rows_gather_of_mem hash hname hinj he

/-- With names that their hashes tell apart there is one row for each test, that of its matches. -/
theorem finish_gather_perm :
    ((gather options columns found).finish options).Perm
      ((found.map fun e => e.2.test).dedup.map fun test =>
        Row.ofMatches options columns.length test
          ((found.filter fun e => e.2.test = test).map (toMatch columns))) := by
  have hfinish : ((gather options columns found).finish options).Perm _ :=
    ((entries_gather_perm hash hname hinj).map Prod.snd).map (finishRow options)
  rw [List.map_map, List.map_map] at hfinish
  refine hfinish.trans (List.Perm.of_eq (List.map_congr_left fun t ht => ?_))
  obtain ⟨e, he, rfl⟩ := List.mem_map.1 (List.mem_dedup.1 ht)
  apply finishRow_gathered
  rw [Ne, List.map_eq_nil_iff, List.filter_eq_nil_iff]
  exact fun hnone => hnone e he (decide_eq_true rfl)

end Naming

/-- The order in which the matches come makes no difference. -/
theorem finish_gather_perm_of_perm {found' : List (Fingerprint × TestName)} (hash : NameHash)
    (hperm : found.Perm found') (hname : ∀ e ∈ found', e.1.test = hash e.2.test)
    (hinj : ∀ e ∈ found', ∀ x ∈ found', hash e.2.test = hash x.2.test → e.2.test = x.2.test) :
    ((gather options columns found).finish options).Perm
      ((found'.map fun e => e.2.test).dedup.map fun test =>
        Row.ofMatches options columns.length test
          ((found'.filter fun e => e.2.test = test).map (toMatch columns))) := by
  have hrows : ((gather options columns found).finish options).Perm _ :=
    finish_gather_perm hash (fun e he => hname e (hperm.subset he))
      fun e he x hx => hinj e (hperm.subset he) x (hperm.subset hx)
  refine hrows.trans (((hperm.map _).dedup.map _).trans (List.Perm.of_eq ?_))
  exact List.map_congr_left fun t _ => Row.ofMatches_perm ((hperm.filter _).map _)

end Aggregation

end ResultSearch
