import Mathlib.Data.List.Induction
import Mathlib.Data.List.Nodup
import ResultSearch.Table

/-!
# Looking into tables

A table is read through `get?`: what it answers is what the entries hold, and every operation is
known by what `get?` answers after it.

* `get?_eq_some_iff`: a key has a value exactly if the pair is an entry.
* `get?_set`, `get?_setSorted`, `get?_erase`, `get?_foldl_erase`: one equation for each operation.
* `get?_mapValues`, `mapValues_set`: changing every value.
* `get?_ofList`: of two pairs with one key the later one counts; `get?_ofList_of_nodup` says it for
  lists that hold each key once, which are the entries of their tables (`entries_ofList`).
-/

namespace ResultSearch.Table

variable {κ α β : Type} [DecidableEq κ]

/-! ## Lists of pairs -/

theorem find_eq_none_iff {k : κ} {l : List (κ × α)} : find k l = none ↔ k ∉ l.map Prod.fst := by
  induction l with
  | nil => simp [find]
  | cons p rest ih =>
    obtain ⟨k', v'⟩ := p
    by_cases h : k' = k
    · simp [find, h]
    · rw [find, if_neg h, ih, List.map_cons, List.mem_cons, not_or]
      exact ⟨fun hk => ⟨Ne.symm h, hk⟩, fun hk => hk.2⟩

/-- Without repeated keys the first pair of a key is its only one. -/
theorem find_eq_some_iff {k : κ} {v : α} {l : List (κ × α)} (hl : (l.map Prod.fst).Nodup) :
    find k l = some v ↔ (k, v) ∈ l := by
  induction l with
  | nil => simp [find]
  | cons p rest ih =>
    obtain ⟨k', v'⟩ := p
    rw [List.map_cons, List.nodup_cons] at hl
    by_cases h : k' = k
    · subst h
      have hrest : (k', v) ∉ rest := fun hm => hl.1 (List.mem_map.2 ⟨_, hm, rfl⟩)
      simp only [find, if_true, Option.some.injEq, List.mem_cons, Prod.mk.injEq, true_and, hrest,
        or_false]
      exact eq_comm
    · rw [find, if_neg h, ih hl.2, List.mem_cons, Prod.mk.injEq]
      exact ⟨Or.inr, fun hm => hm.resolve_left fun e => h e.1.symm⟩

theorem find_append {k : κ} {l r : List (κ × α)} :
    find k (l ++ r) = (find k l).or (find k r) := by
  induction l with
  | nil => rfl
  | cons p rest ih =>
    obtain ⟨k', v'⟩ := p
    by_cases h : k' = k
    · simp [find, h]
    · simp [find, h, ih]

/-- Two lists with the same pairs, each key once, answer the same. -/
theorem find_congr {k : κ} {l r : List (κ × α)} (hl : (l.map Prod.fst).Nodup)
    (hr : (r.map Prod.fst).Nodup) (h : ∀ v, (k, v) ∈ l ↔ (k, v) ∈ r) : find k l = find k r := by
  ext v
  exact (find_eq_some_iff hl).trans ((h v).trans (find_eq_some_iff hr).symm)

theorem find_map {f : α → β} {k : κ} {l : List (κ × α)} :
    find k (l.map fun p => (p.1, f p.2)) = (find k l).map f := by
  induction l with
  | nil => rfl
  | cons p rest ih =>
    obtain ⟨k', v'⟩ := p
    by_cases h : k' = k <;> simp [find, h, ih]

/-- Renaming the keys keeps what is found if no other key takes the new name of `k`. -/
theorem find_map_key {ι : Type} [DecidableEq ι] {g : κ → ι} {k : κ} {l : List (κ × α)}
    (hg : ∀ p ∈ l, g p.1 = g k → p.1 = k) :
    find (g k) (l.map fun p => (g p.1, p.2)) = find k l := by
  induction l with
  | nil => rfl
  | cons p rest ih =>
    obtain ⟨k', v'⟩ := p
    have hrest := ih fun p hp => hg p (List.mem_cons_of_mem _ hp)
    rw [List.map_cons, find, find]
    by_cases h : k' = k
    · simp [h]
    · rw [if_neg fun he => h (hg _ List.mem_cons_self he), if_neg h, hrest]

theorem mem_of_find_eq_some {k : κ} {v : α} {l : List (κ × α)} (h : find k l = some v) :
    (k, v) ∈ l := by
  induction l with
  | nil => cases h
  | cons p rest ih =>
    obtain ⟨k', v'⟩ := p
    rw [find] at h
    split at h
    · next hk => cases h; rw [hk]; exact List.mem_cons_self
    · exact List.mem_cons_of_mem _ (ih h)

theorem find_filter {q : κ → Bool} {k : κ} {l : List (κ × α)} :
    find k (l.filter fun p => q p.1) = if q k then find k l else none := by
  induction l with
  | nil => simp [find]
  | cons p rest ih =>
    obtain ⟨k', v'⟩ := p
    by_cases h : k' = k
    · subst h
      by_cases hq : q k' = true
      · simp [hq, find]
      · simpa [List.filter_cons, hq] using ih
    · by_cases hq : q k' = true
      · simp [hq, find, h, ih]
      · simp [hq, find, h, ih]

omit [DecidableEq κ] in
theorem nodup_map_filter {q : κ × α → Bool} {f : κ × α → κ × β} {l : List (κ × α)}
    (hf : ∀ p, (f p).1 = p.1) (hl : (l.map Prod.fst).Nodup) :
    (((l.filter q).map f).map Prod.fst).Nodup := by
  rw [List.map_map, show Prod.fst ∘ f = Prod.fst from funext hf]
  exact nodup_filter hl

/-! ## Tables -/

theorem get?_eq_some_iff {t : Table κ α} {k : κ} {v : α} :
    t.get? k = some v ↔ (k, v) ∈ t.entries :=
  find_eq_some_iff t.nodup

theorem get?_eq_none_iff {t : Table κ α} {k : κ} : t.get? k = none ↔ k ∉ t.keys :=
  find_eq_none_iff

theorem contains_iff_mem_keys {t : Table κ α} {k : κ} : t.contains k = true ↔ k ∈ t.keys := by
  rw [contains, ← not_iff_not, Bool.not_eq_true, Option.isSome_eq_false_iff,
    Option.isNone_iff_eq_none, get?_eq_none_iff]

theorem contains_iff_exists {t : Table κ α} {k : κ} :
    t.contains k = true ↔ ∃ v, t.get? k = some v :=
  Option.isSome_iff_exists

theorem contains_eq_false_iff {t : Table κ α} {k : κ} : t.contains k = false ↔ t.get? k = none := by
  rw [contains, Option.isSome_eq_false_iff, Option.isNone_iff_eq_none]

theorem values_eq_filterMap_keys {t : Table κ α} : t.values = t.keys.filterMap t.get? := by
  rw [values, keys, List.filterMap_map, ← List.filterMap_eq_map]
  refine List.filterMap_congr fun p hp => ?_
  exact (get?_eq_some_iff.2 hp).symm

theorem get?_set {t : Table κ α} {k x : κ} {v : α} :
    (t.set k v).get? x = if x = k then some v else t.get? x := by
  split
  · next h => rw [h, get?_set_self]
  · next h => exact get?_set_of_ne t v h

theorem get?_erase {t : Table κ α} {k x : κ} :
    (t.erase k).get? x = if x = k then none else t.get? x := by
  split
  · next h => rw [h, get?_erase_self]
  · next h => exact get?_erase_of_ne t h

theorem get?_foldl_erase {t : Table κ α} {ks : List κ} {x : κ} :
    (ks.foldl erase t).get? x = if x ∈ ks then none else t.get? x := by
  induction ks generalizing t with
  | nil => simp
  | cons k rest ih =>
    rw [List.foldl_cons, ih, get?_erase]
    by_cases hk : x = k <;> by_cases hx : x ∈ rest <;> simp [hk, hx]

theorem get?_mapValues {f : α → β} {t : Table κ α} {k : κ} :
    (t.mapValues f).get? k = (t.get? k).map f :=
  find_map

theorem put_map {f : α → β} {k : κ} {v : α} {l : List (κ × α)} :
    put k (f v) (l.map fun p => (p.1, f p.2)) = (put k v l).map fun p => (p.1, f p.2) := by
  induction l with
  | nil => rfl
  | cons p rest ih =>
    obtain ⟨k', v'⟩ := p
    by_cases h : k' = k <;> simp [put, h, ih]

theorem mapValues_set {f : α → β} {t : Table κ α} {k : κ} {v : α} :
    (t.set k v).mapValues f = (t.mapValues f).set k (f v) :=
  ext put_map.symm

theorem find_putSorted {before : κ → κ → Bool} {k x : κ} {v : α} {l : List (κ × α)} :
    find x (putSorted before k v l) = if x = k then some v else find x l := by
  induction l with
  | nil => simp [putSorted, find, eq_comm]
  | cons p rest ih =>
    obtain ⟨k', v'⟩ := p
    rw [putSorted]
    split
    · next h => subst h; by_cases hx : x = k' <;> simp [find, hx, eq_comm]
    · next h =>
      split
      · rw [find, putSorted.drop]
        by_cases hx : x = k
        · simp [hx]
        · rw [if_neg (Ne.symm hx), if_neg hx, find_filter_of_ne hx]
      · rw [find, ih, find]
        by_cases hx : x = k
        · subst hx; simp [h]
        · simp [hx]

theorem get?_setSorted {before : κ → κ → Bool} {t : Table κ α} {k x : κ} {v : α} :
    (t.setSorted before k v).get? x = if x = k then some v else t.get? x :=
  find_putSorted

theorem get?_foldl_set {l : List (κ × α)} {t : Table κ α} {k : κ} :
    (l.foldl (fun t p => t.set p.1 p.2) t).get? k = (find k l.reverse).or (t.get? k) := by
  induction l generalizing t with
  | nil => rfl
  | cons p rest ih =>
    rw [List.foldl_cons, ih, List.reverse_cons, find_append, get?_set, Option.or_assoc]
    by_cases h : p.1 = k
    · simp [find, h]
    · simp [find, h, Ne.symm h]

theorem get?_ofList {l : List (κ × α)} {k : κ} : (ofList l).get? k = find k l.reverse := by
  rw [ofList, get?_foldl_set, get?_empty, Option.or_none]

theorem get?_ofList_of_nodup {l : List (κ × α)} (hl : (l.map Prod.fst).Nodup) {k : κ} :
    (ofList l).get? k = find k l := by
  rw [get?_ofList]
  refine find_congr ?_ hl fun v => List.mem_reverse
  rw [List.map_reverse]
  exact List.nodup_reverse.2 hl

/-- A key that is there keeps its place. -/
theorem keys_set_of_get? {t : Table κ α} {k : κ} {v w : α} (h : t.get? k = some w) :
    (t.set k v).keys = t.keys := by
  have hput (l : List (κ × α)) (hk : k ∈ l.map Prod.fst) :
      (put k v l).map Prod.fst = l.map Prod.fst := by
    induction l with
    | nil => cases hk
    | cons p rest ih =>
      obtain ⟨k', v'⟩ := p
      by_cases hkey : k' = k
      · simp [put, hkey]
      · rw [put, if_neg hkey, List.map_cons, List.map_cons,
          ih ((List.mem_cons.1 hk).resolve_left (Ne.symm hkey))]
  exact hput t.entries (List.mem_map_of_mem (get?_eq_some_iff.1 h))

/-- A new key comes last. -/
theorem put_of_not_mem {k : κ} {v : α} {l : List (κ × α)} (h : k ∉ l.map Prod.fst) :
    put k v l = l ++ [(k, v)] := by
  induction l with
  | nil => rfl
  | cons p rest ih =>
    obtain ⟨k', v'⟩ := p
    rw [List.map_cons, List.mem_cons, not_or] at h
    rw [put, if_neg (Ne.symm h.1), ih h.2]
    rfl

/-- A list that holds each key once is that of its table. -/
theorem entries_ofList {l : List (κ × α)} (hl : (l.map Prod.fst).Nodup) :
    (ofList l).entries = l := by
  induction l using List.reverseRecOn with
  | nil => rfl
  | append_singleton l p ih =>
    rw [List.map_append, List.map_singleton, List.nodup_append] at hl
    obtain ⟨hl, -, hp⟩ := hl
    have hnew : p.1 ∉ l.map Prod.fst := fun hmem => hp _ hmem _ (List.mem_singleton_self _) rfl
    have hlast : (ofList (l ++ [p])).entries = put p.1 p.2 (ofList l).entries := by
      rw [ofList, List.foldl_append]
      rfl
    rw [hlast, ih hl, put_of_not_mem hnew]

end ResultSearch.Table
