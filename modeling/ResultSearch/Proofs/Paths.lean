import Mathlib.Data.List.Perm.Basic
import ResultSearch.Proofs.Document.Values
import ResultSearch.Proofs.Metadata

/-!
# The values of a test in order

The values of a test are those of the paths that cover it, each as often as it was attached. Those
of the test's own path come first, then those of stars from the shortest stem to the longest, and
values of one path or one stem come in the order in which they were attached.

The stars are kept in the order of their stems as texts. Of the stems that cover a test each begins
the next one, so this is the order of their lengths.

* `byKey`: a list put together from its parts under some keys.
* `Holds`, `holds_ofList`: which values are kept where.
* `Listed`: the order in which values are listed.
-/

namespace ResultSearch

/-! ## Parts by key -/

section ByKey

variable {α κ : Type} [DecidableEq κ] {key : α → κ} {keys : List κ} {l : List α}

/-- The parts of a list under some keys, one after the other. -/
def byKey (key : α → κ) (keys : List κ) (l : List α) : List α :=
  keys.flatMap fun k => l.filter fun a => key a = k

theorem byKey_perm_filter (h : keys.Nodup) :
    (byKey key keys l).Perm (l.filter fun a => key a ∈ keys) := by
  induction keys with
  | nil => simp [byKey]
  | cons k keys ih =>
    obtain ⟨hk, hkeys⟩ := List.nodup_cons.1 h
    have hfirst : (l.filter fun a => key a ∈ k :: keys).filter (fun a => key a = k) =
        l.filter fun a => key a = k := by
      rw [List.filter_filter]
      refine List.filter_congr fun a _ => ?_
      by_cases ha : key a = k <;> simp [ha]
    have hrest : (l.filter fun a => key a ∈ k :: keys).filter (fun a => !decide (key a = k)) =
        l.filter fun a => key a ∈ keys := by
      rw [List.filter_filter]
      refine List.filter_congr fun a _ => ?_
      by_cases ha : key a = k <;> simp [ha, hk]
    rw [byKey, List.flatMap_cons, ← hfirst]
    refine List.Perm.trans (List.Perm.append_left _ (ih hkeys)) ?_
    rw [← hrest]
    exact List.filter_append_perm _ _

/-- If every key of the list is among the keys, the parts are all of the list. -/
theorem byKey_perm (h : keys.Nodup) (hl : ∀ a ∈ l, key a ∈ keys) : (byKey key keys l).Perm l := by
  refine (byKey_perm_filter h).trans (List.Perm.of_eq ?_)
  exact List.filter_eq_self.2 fun a ha => decide_eq_true (hl a ha)

theorem filter_byKey_of_not_mem {k : κ} (hk : k ∉ keys) :
    (byKey key keys l).filter (fun a => key a = k) = [] := by
  refine List.filter_eq_nil_iff.2 fun a ha => ?_
  obtain ⟨k', hk', ha⟩ := List.mem_flatMap.1 ha
  rw [of_decide_eq_true (List.mem_filter.1 ha).2, decide_eq_true_eq]
  exact fun heq => hk (heq ▸ hk')

/-- The part under a key is as it was. -/
theorem filter_byKey (h : keys.Nodup) (hl : ∀ a ∈ l, key a ∈ keys) (k : κ) :
    (byKey key keys l).filter (fun a => key a = k) = l.filter fun a => key a = k := by
  by_cases hk : k ∈ keys
  · obtain ⟨before, after, rfl⟩ := List.append_of_mem hk
    have hparts : byKey key (before ++ k :: after) l =
        byKey key before l ++ ((l.filter fun a => key a = k) ++ byKey key after l) := by
      rw [byKey, List.flatMap_append, List.flatMap_cons]
      rfl
    have hbefore : k ∉ before := fun hmem =>
      (List.nodup_append.1 h).2.2 k hmem k List.mem_cons_self rfl
    have hafter : k ∉ after := (List.nodup_cons.1 (List.nodup_append.1 h).2.1).1
    rw [hparts, List.filter_append, List.filter_append, filter_byKey_of_not_mem hbefore,
      filter_byKey_of_not_mem hafter, List.filter_filter, List.nil_append, List.append_nil]
    simp only [Bool.and_self]
  · rw [filter_byKey_of_not_mem hk]
    refine (List.filter_eq_nil_iff.2 fun a ha => ?_).symm
    rw [decide_eq_true_eq]
    exact fun heq => hk (heq ▸ hl a ha)

theorem pairwise_byKey {rank : κ → Nat} (h : keys.Pairwise fun a b => rank a < rank b) :
    (byKey key keys l).Pairwise fun a b => rank (key a) ≤ rank (key b) := by
  have hkey {k : κ} {a : α} (ha : a ∈ l.filter fun a => key a = k) : key a = k :=
    of_decide_eq_true (List.mem_filter.1 ha).2
  refine List.pairwise_flatMap.2 ⟨fun k _ => ?_, h.imp fun hlt a ha b hb => ?_⟩
  · refine List.pairwise_of_forall_mem_list fun a ha b hb => Nat.le_of_eq ?_
    rw [hkey ha, hkey hb]
  · rw [hkey ha, hkey hb]
    exact Nat.le_of_lt hlt

end ByKey

/-- Of two texts that begin a third one, the one that comes first in order is the shorter one. -/
theorem Text.length_lt_of_lt {whole a b : String} (ha : Text.startsWith whole a = true)
    (hb : Text.startsWith whole b = true) (hlt : a < b) : a.length < b.length := by
  rw [Text.startsWith, List.isPrefixOf_iff_prefix] at ha hb
  by_contra hle
  obtain ⟨rest, hrest⟩ : b.toList <+: a.toList :=
    List.prefix_of_prefix_length_le hb ha (Nat.le_of_not_lt hle)
  rw [String.lt_iff, ← hrest] at hlt
  exact List.le_append_left hlt

namespace PathValues

variable {attached : List (String × String)} {p : PathValues} {test : String}

/-! ## What is kept -/

/-- The stem before the star of a path; `none` for a path that names one test. -/
def stemOf (path : String) : Option String := unstar? (Text.lower path)

theorem insert_of_whole {path value : String} (h : stemOf path = none) :
    p.insert path value = ⟨p.exact.set (Text.lower path)
      ((p.exact.get? (Text.lower path)).getD [] ++ [value]), p.stars⟩ := by
  rw [stemOf] at h
  simp only [insert, h]

theorem insert_of_star {path value stem : String} (h : stemOf path = some stem) :
    p.insert path value = ⟨p.exact, p.stars.setSorted Json.keyBefore stem
      ((p.stars.get? stem).getD [] ++ [value])⟩ := by
  rw [stemOf] at h
  simp only [insert, h]

/-- What was attached is kept by path and by stem, each in the order in which it was attached. -/
structure Holds (p : PathValues) (attached : List (String × String)) : Prop where
  exact : ∀ name, (p.exact.get? name).getD [] =
    (attached.filter fun e => stemOf e.1 = none ∧ Text.lower e.1 = name).map Prod.snd
  stars : ∀ stem, (p.stars.get? stem).getD [] =
    (attached.filter fun e => stemOf e.1 = some stem).map Prod.snd
  ascend : Table.Ascends p.stars.entries

theorem Holds.insert (h : p.Holds attached) (path value : String) :
    (p.insert path value).Holds (attached ++ [(path, value)]) := by
  cases hpath : stemOf path with
  | none =>
    rw [insert_of_whole hpath]
    refine ⟨fun name => ?_, fun stem => ?_, h.ascend⟩
    · rw [Table.get?_set, List.filter_append, List.map_append, ← h.exact]
      by_cases hname : name = Text.lower path
      · simp [hname, hpath]
      · simp [hname, Ne.symm hname]
    · simp [h.stars, hpath]
  | some stem' =>
    rw [insert_of_star hpath]
    refine ⟨fun name => ?_, fun stem => ?_, Table.ascends_putSorted h.ascend⟩
    · simp [h.exact, hpath]
    · rw [Table.get?_setSorted, List.filter_append, List.map_append, ← h.stars]
      by_cases hstem : stem = stem'
      · simp [hstem, hpath]
      · simp [hstem, hpath, Ne.symm hstem]

theorem holds_empty : empty.Holds [] := ⟨fun _ => rfl, fun _ => rfl, List.Pairwise.nil⟩

theorem holds_ofList (attached : List (String × String)) : (ofList attached).Holds attached := by
  induction attached using List.reverseRecOn with
  | nil => exact holds_empty
  | append_singleton attached e ih =>
    rw [ofList, List.foldl_append]
    exact ih.insert e.1 e.2

/-! ## What is listed -/

/-- How far into its tests' names a path goes, the test's own path before all stars. -/
def reach : Option String → Nat
  | none => 0
  | some stem => stem.length + 1

/-- What was attached to a test, in the order of its values: whole paths, then stars by the lengths
of their stems, and what has one stem in the order in which it was attached. -/
structure Listed (attached : List (String × String)) (test : String)
    (listed : List (String × String)) : Prop where
  perm : listed.Perm (attached.filter fun e => covers e.1 test)
  pairwise : listed.Pairwise fun a b => reach (stemOf a.1) ≤ reach (stemOf b.1)
  stable : ∀ stem, (listed.filter fun e => stemOf e.1 = stem) =
    (attached.filter fun e => covers e.1 test).filter fun e => stemOf e.1 = stem

/-- The stems under which the values of a test are kept, `none` for those of its own path. -/
def stemsOf (p : PathValues) (test : String) : List (Option String) :=
  none :: (p.stars.entries.filter fun e => Text.startsWith (Text.lower test) e.1).map fun e =>
    some e.1

namespace Holds

/-- The part of what was attached to a test that has no star, and that has a stem. -/
theorem filter_whole : (attached.filter fun e => covers e.1 test).filter
    (fun e => stemOf e.1 = none) =
      attached.filter fun e => stemOf e.1 = none ∧ Text.lower e.1 = Text.lower test := by
  rw [List.filter_filter]
  refine List.filter_congr fun e _ => ?_
  rw [Bool.eq_iff_iff]
  by_cases hstem : stemOf e.1 = none
  · simp [hstem, covers_of_unstar?_eq_none hstem]
  · simp [hstem]

theorem filter_star {stem : String} (h : Text.startsWith (Text.lower test) stem = true) :
    (attached.filter fun e => covers e.1 test).filter (fun e => stemOf e.1 = some stem) =
      attached.filter fun e => stemOf e.1 = some stem := by
  rw [List.filter_filter]
  refine List.filter_congr fun e _ => ?_
  by_cases hstem : stemOf e.1 = some stem
  · simp [hstem, covers_of_unstar?_eq_some hstem, h]
  · simp [hstem]

theorem valuesFor_eq (h : p.Holds attached) : p.valuesFor test =
    (byKey (fun e => stemOf e.1) (p.stemsOf test)
      (attached.filter fun e => covers e.1 test)).map Prod.snd := by
  have hstars : (p.stars.entries.filter fun e => Text.startsWith (Text.lower test) e.1).flatMap
      Prod.snd = (p.stars.entries.filter fun e => Text.startsWith (Text.lower test) e.1).flatMap
        fun e => ((attached.filter fun e => covers e.1 test).filter fun x =>
          stemOf x.1 = some e.1).map Prod.snd := by
    refine List.flatMap_congr fun e he => ?_
    obtain ⟨he, hstem⟩ := List.mem_filter.1 he
    rw [filter_star hstem, ← h.stars, Table.get?_eq_some_iff.2 he, Option.getD_some]
  rw [valuesFor, hstars, byKey, stemsOf, List.flatMap_cons, List.map_append, filter_whole,
    ← h.exact, List.flatMap_map, List.map_flatMap]

theorem pairwise_stemsOf (h : p.Holds attached) :
    (p.stemsOf test).Pairwise fun a b => reach a < reach b := by
  refine List.pairwise_cons.2 ⟨fun stem hstem => ?_, ?_⟩
  · obtain ⟨e, -, rfl⟩ := List.mem_map.1 hstem
    exact Nat.succ_pos _
  · rw [List.pairwise_map]
    refine List.Pairwise.imp_of_mem (fun {a b} ha hb hab => ?_)
      (h.ascend.sublist List.filter_sublist)
    exact Nat.succ_lt_succ
      (Text.length_lt_of_lt (List.mem_filter.1 ha).2 (List.mem_filter.1 hb).2 hab)

/-- Whatever was attached to a test is kept under one of its stems. -/
theorem mem_stemsOf (h : p.Holds attached) {e : String × String}
    (he : e ∈ attached.filter fun e => covers e.1 test) : stemOf e.1 ∈ p.stemsOf test := by
  obtain ⟨he, hcovers⟩ := List.mem_filter.1 he
  cases hstem : stemOf e.1 with
  | none => exact List.mem_cons_self
  | some stem =>
    have hvalues : (p.stars.get? stem).getD [] ≠ [] := by
      rw [h.stars]
      exact List.ne_nil_of_mem
        (List.mem_map_of_mem (List.mem_filter.2 ⟨he, decide_eq_true hstem⟩))
    obtain ⟨values, hkept⟩ : ∃ values, p.stars.get? stem = some values := by
      cases hget : p.stars.get? stem with
      | none => exact absurd (by rw [hget]; rfl) hvalues
      | some values => exact ⟨values, rfl⟩
    refine List.mem_cons_of_mem _ (List.mem_map.2 ⟨(stem, values), ?_, rfl⟩)
    exact List.mem_filter.2 ⟨Table.get?_eq_some_iff.1 hkept,
      (covers_of_unstar?_eq_some hstem).1 hcovers⟩

theorem listed (h : p.Holds attached) : Listed attached test
    (byKey (fun e => stemOf e.1) (p.stemsOf test)
      (attached.filter fun e => covers e.1 test)) := by
  have hnodup : (p.stemsOf test).Nodup := h.pairwise_stemsOf.imp fun hlt heq =>
    Nat.ne_of_lt hlt (congrArg reach heq)
  exact ⟨byKey_perm hnodup fun _ => h.mem_stemsOf, pairwise_byKey h.pairwise_stemsOf,
    filter_byKey hnodup fun _ => h.mem_stemsOf⟩

end Holds

/-- Whatever was attached, the values of a test are what was attached to the paths that cover it:
each as often as it was, the test's own path first, then the stars from the shortest stem to the
longest, and under each of them in the order in which it was attached. -/
theorem values_listed (attached : List (String × String)) (test : String) :
    ∃ listed, Listed attached test listed ∧
      (ofList attached).valuesFor test = listed.map Prod.snd :=
  ⟨_, (holds_ofList attached).listed, (holds_ofList attached).valuesFor_eq⟩

example : (ofList [("/a/*", "directory"), ("/A*", "letter"), ("/A/b.html", "test"), ("*", "all"),
    ("/a*", "letter again"), ("/c*", "other")]).valuesFor "/a/B.html" =
      ["test", "all", "letter", "letter again", "directory"] := by
  decide +kernel

end PathValues

end ResultSearch
