import ResultSearch.Metadata.Basic
import ResultSearch.Proofs.Table

/-!
# The metadata of a test

A path covers a test if it is the test's name or if it ends in a star and the test begins with what
comes before; capitals and small letters are alike. What a table knows of a test are the entries of
all paths that cover it.

* `mem_valuesFor_ofList`: the values of a test are those that were attached to a covering path.
* `anyValue_collect`: a value that is collected from a table is found for a test exactly if an entry
  of a covering path yields it.
-/

namespace ResultSearch

namespace PathValues

/-- Whether the values of a path are values of a test. -/
def covers (path test : String) : Bool :=
  Text.lower path = Text.lower test ||
    ((Text.lower path).toList.getLast? = some '*' &&
      (Text.lower path).toList.dropLast.isPrefixOf (Text.lower test).toList)

theorem unstar?_eq_none_iff {path : String} :
    unstar? path = none ↔ path.toList.getLast? ≠ some '*' := by
  simp [unstar?, Text.dropLast?]

theorem unstar?_eq_some_iff {path stem : String} :
    unstar? path = some stem ↔
      path.toList.getLast? = some '*' ∧ String.ofList path.toList.dropLast = stem := by
  simp only [unstar?, Text.dropLast?]
  split <;> simp_all

/-- A path without a star covers the one test that it names. -/
theorem covers_of_unstar?_eq_none {path test : String} (h : unstar? (Text.lower path) = none) :
    covers path test = true ↔ Text.lower path = Text.lower test := by
  simp [covers, unstar?_eq_none_iff.1 h]

/-- A path with a star covers what begins with its stem; if it is itself the name of a test, that
test is among them. -/
theorem covers_of_unstar?_eq_some {path test stem : String}
    (h : unstar? (Text.lower path) = some stem) :
    covers path test = true ↔ Text.startsWith (Text.lower test) stem = true := by
  obtain ⟨hstar, rfl⟩ := unstar?_eq_some_iff.1 h
  simp only [covers, hstar, Text.startsWith, String.toList_ofList, decide_true, Bool.true_and,
    Bool.or_eq_true, decide_eq_true_eq, List.isPrefixOf_iff_prefix, or_iff_right_iff_imp]
  intro heq
  rw [← heq]
  exact List.dropLast_prefix _

/-! ## Values -/

theorem mem_valuesFor {p : PathValues} {test v : String} :
    v ∈ p.valuesFor test ↔ v ∈ (p.exact.get? (Text.lower test)).getD [] ∨
      ∃ stem, Text.startsWith (Text.lower test) stem = true ∧ v ∈ (p.stars.get? stem).getD [] := by
  rw [valuesFor, List.mem_append, List.mem_flatMap]
  refine or_congr_right ⟨?_, ?_⟩
  · rintro ⟨⟨stem, vs⟩, he, hv⟩
    obtain ⟨he, hstem⟩ := List.mem_filter.1 he
    exact ⟨stem, hstem, by rw [Table.get?_eq_some_iff.2 he]; exact hv⟩
  · rintro ⟨stem, hstem, hv⟩
    cases hs : p.stars.get? stem with
    | none => simp [hs] at hv
    | some vs =>
      rw [hs] at hv
      exact ⟨(stem, vs), List.mem_filter.2 ⟨Table.get?_eq_some_iff.1 hs, hstem⟩, hv⟩

theorem mem_valuesFor_insert {p : PathValues} {path value test v : String} :
    v ∈ (p.insert path value).valuesFor test ↔
      v ∈ p.valuesFor test ∨ (v = value ∧ covers path test = true) := by
  rw [mem_valuesFor, mem_valuesFor, insert]
  cases h : unstar? (Text.lower path) with
  | none =>
    rw [covers_of_unstar?_eq_none h]
    simp only [Table.get?_set]
    by_cases hp : Text.lower test = Text.lower path
    · simp [hp, or_assoc, or_comm]
    · simp [hp, Ne.symm hp]
  | some stem =>
    rw [covers_of_unstar?_eq_some h]
    simp only [Table.get?_setSorted]
    constructor
    · rintro (hv | ⟨stem', hs, hv⟩)
      · exact .inl (.inl hv)
      · by_cases he : stem' = stem
        · subst he
          rw [if_pos rfl, Option.getD_some, List.mem_append, List.mem_singleton] at hv
          rcases hv with hv | hv
          · exact .inl (.inr ⟨stem', hs, hv⟩)
          · exact .inr ⟨hv, hs⟩
        · rw [if_neg he] at hv
          exact .inl (.inr ⟨stem', hs, hv⟩)
    · rintro ((hv | ⟨stem', hs, hv⟩) | ⟨rfl, hs⟩)
      · exact .inl hv
      · refine .inr ⟨stem', hs, ?_⟩
        by_cases he : stem' = stem
        · subst he
          simp [hv]
        · rwa [if_neg he]
      · exact .inr ⟨stem, hs, by simp⟩

/-- The values of a test are those that were attached to a path that covers it. -/
theorem mem_valuesFor_ofList {l : List (String × String)} {test v : String} :
    v ∈ (ofList l).valuesFor test ↔ ∃ path, (path, v) ∈ l ∧ covers path test = true := by
  have h (p : PathValues) : v ∈ (l.foldl (fun p e => p.insert e.1 e.2) p).valuesFor test ↔
      v ∈ p.valuesFor test ∨ ∃ path, (path, v) ∈ l ∧ covers path test = true := by
    induction l generalizing p with
    | nil => simp
    | cons e rest ih =>
      obtain ⟨path, value⟩ := e
      rw [List.foldl_cons, ih, mem_valuesFor_insert]
      constructor
      · rintro ((hv | ⟨rfl, hc⟩) | ⟨path', hm, hc⟩)
        · exact .inl hv
        · exact .inr ⟨path, List.mem_cons_self, hc⟩
        · exact .inr ⟨path', List.mem_cons_of_mem _ hm, hc⟩
      · rintro (hv | ⟨path', hm, hc⟩)
        · exact .inl (.inl hv)
        · rcases List.mem_cons.1 hm with he | hm
          · cases he
            exact .inl (.inr ⟨rfl, hc⟩)
          · exact .inr ⟨path', hm, hc⟩
  rw [ofList, h]
  simp [valuesFor, empty, Table.empty, Table.get?, Table.find]

theorem valuesFor_of_isEmpty {p : PathValues} (h : p.isEmpty = true) (test : String) :
    p.valuesFor test = [] := by
  simp only [isEmpty, Bool.and_eq_true, Table.isEmpty, List.isEmpty_iff] at h
  simp [valuesFor, Table.get?, h.1, h.2, Table.find]

end PathValues

namespace Metadata

/-- The entries of all paths that cover a test. -/
def about (table : MetadataTable) (test : String) : List MetadataLink :=
  (table.entries.filter fun e => PathValues.covers e.1 test).flatMap Prod.snd

theorem mem_valuesFor_collect {table : MetadataTable} {yields : MetadataLink → Option String}
    {test v : String} :
    v ∈ (collect table yields).valuesFor test ↔ ∃ l ∈ about table test, yields l = some v := by
  simp only [collect, PathValues.mem_valuesFor_ofList, about, List.mem_flatMap, List.mem_filterMap,
    List.mem_filter, Option.map_eq_some_iff]
  constructor
  · rintro ⟨path, ⟨e, he, l, hl, w, hw, hp⟩, hc⟩
    cases hp
    exact ⟨l, ⟨e, ⟨he, hc⟩, hl⟩, hw⟩
  · rintro ⟨l, ⟨e, ⟨he, hc⟩, hl⟩, hw⟩
    exact ⟨e.1, ⟨e, he, l, hl, v, hw, rfl⟩, hc⟩

/-- Some value of a test is as wanted exactly if an entry about the test yields such a value. -/
theorem anyValue_collect {table : MetadataTable} {yields : MetadataLink → Option String}
    {test : String} {q : String → Bool} :
    (collect table yields).anyValue test q = (about table test).any fun l => (yields l).any q := by
  rw [PathValues.anyValue, Bool.eq_iff_iff, List.any_eq_true, List.any_eq_true]
  constructor
  · rintro ⟨v, hv, hq⟩
    obtain ⟨l, hl, hy⟩ := mem_valuesFor_collect.1 hv
    exact ⟨l, hl, by rw [hy]; exact hq⟩
  · rintro ⟨l, hl, hq⟩
    obtain ⟨v, hy, hq⟩ := (Option.any_eq_true _ _).1 hq
    exact ⟨v, mem_valuesFor_collect.2 ⟨l, hl, hy⟩, hq⟩

end Metadata

end ResultSearch
