/-!
# Finite tables

A finite map kept as a list of key/value pairs without repeated keys. `set` keeps the place of a
key that is already there and appends a new one, so the order of a table is the order in which its
keys first arrived; `setSorted` keeps the keys in the order of a given comparison instead.

* `get?_set_self`, `get?_set_of_ne`: a write is read back and disturbs no other key.
* `get?_erase_self`, `get?_erase_of_ne`: the same for removal.
-/

namespace ResultSearch

/-- A finite map as a list of pairs, each key once. -/
structure Table (κ : Type) (α : Type) where
  entries : List (κ × α)
  nodup : (entries.map Prod.fst).Nodup

namespace Table

variable {κ α : Type}

@[ext] theorem ext {s t : Table κ α} (h : s.entries = t.entries) : s = t := by
  cases s; cases t; cases h; rfl

/-- The map without keys. -/
def empty : Table κ α := ⟨[], List.nodup_nil⟩

instance : Inhabited (Table κ α) := ⟨empty⟩

instance [DecidableEq κ] [DecidableEq α] : DecidableEq (Table κ α) := fun s t =>
  if h : s.entries = t.entries then isTrue (ext h)
  else isFalse fun e => h (e ▸ rfl)

/-- The keys in their order. -/
def keys (t : Table κ α) : List κ := t.entries.map Prod.fst

/-- The values in the order of their keys. -/
def values (t : Table κ α) : List α := t.entries.map Prod.snd

/-- The number of keys. -/
def size (t : Table κ α) : Nat := t.entries.length

/-- Whether there is no key. -/
def isEmpty (t : Table κ α) : Bool := t.entries.isEmpty

section Lists

variable [DecidableEq κ]

/-- The value paired with `k`, if any. -/
def find (k : κ) : List (κ × α) → Option α
  | [] => none
  | (k', v) :: rest => if k' = k then some v else find k rest

/-- Replace the value of `k` in place, or append the pair. -/
def put (k : κ) (v : α) : List (κ × α) → List (κ × α)
  | [] => [(k, v)]
  | (k', v') :: rest => if k' = k then (k, v) :: rest else (k', v') :: put k v rest

/-- Replace the value of `k`, or insert the pair before the first key that `k` precedes. -/
def putSorted (before : κ → κ → Bool) (k : κ) (v : α) : List (κ × α) → List (κ × α)
  | [] => [(k, v)]
  | (k', v') :: rest =>
    if k' = k then (k, v) :: rest
    else if before k k' then (k, v) :: drop k ((k', v') :: rest)
    else (k', v') :: putSorted before k v rest
where
  /-- The pairs with another key. -/
  drop (k : κ) (l : List (κ × α)) : List (κ × α) := l.filter (fun p => p.1 ≠ k)

theorem mem_keys_put {k x : κ} {v : α} {l : List (κ × α)} :
    x ∈ (put k v l).map Prod.fst ↔ x = k ∨ x ∈ l.map Prod.fst := by
  induction l with
  | nil => simp [put]
  | cons p rest ih =>
    obtain ⟨k', v'⟩ := p
    by_cases h : k' = k
    · simp [put, h]
    · simp only [put, h, if_false, List.map_cons, List.mem_cons, ih]
      grind

theorem nodup_put {k : κ} {v : α} {l : List (κ × α)} (h : (l.map Prod.fst).Nodup) :
    ((put k v l).map Prod.fst).Nodup := by
  induction l with
  | nil => simp [put]
  | cons p rest ih =>
    obtain ⟨k', v'⟩ := p
    simp only [List.map_cons, List.nodup_cons] at h
    by_cases hk : k' = k
    · subst hk
      simpa [put] using h
    · rw [put, if_neg hk, List.map_cons, List.nodup_cons]
      refine ⟨fun hm => ?_, ih h.2⟩
      exact (mem_keys_put.1 hm).elim hk h.1

theorem mem_keys_filter {k x : κ} {l : List (κ × α)} :
    x ∈ (l.filter (fun p => p.1 ≠ k)).map Prod.fst ↔ x ≠ k ∧ x ∈ l.map Prod.fst := by
  simp only [List.mem_map, List.mem_filter, decide_eq_true_eq]
  grind

omit [DecidableEq κ] in
theorem nodup_filter {q : κ × α → Bool} {l : List (κ × α)} (h : (l.map Prod.fst).Nodup) :
    ((l.filter q).map Prod.fst).Nodup :=
  List.Sublist.nodup (List.Sublist.map _ List.filter_sublist) h

theorem mem_keys_putSorted {before : κ → κ → Bool} {k x : κ} {v : α} {l : List (κ × α)} :
    x ∈ (putSorted before k v l).map Prod.fst ↔ x = k ∨ x ∈ l.map Prod.fst := by
  induction l with
  | nil => simp [putSorted]
  | cons p rest ih =>
    obtain ⟨k', v'⟩ := p
    by_cases h : k' = k
    · simp [putSorted, h]
    · by_cases hb : before k k' = true
      · rw [putSorted, if_neg h, if_pos hb, List.map_cons, List.mem_cons, putSorted.drop,
          mem_keys_filter]
        grind
      · rw [putSorted, if_neg h, if_neg hb, List.map_cons, List.mem_cons, ih, List.map_cons,
          List.mem_cons]
        grind

theorem nodup_putSorted {before : κ → κ → Bool} {k : κ} {v : α} {l : List (κ × α)}
    (h : (l.map Prod.fst).Nodup) : ((putSorted before k v l).map Prod.fst).Nodup := by
  induction l with
  | nil => simp [putSorted]
  | cons p rest ih =>
    obtain ⟨k', v'⟩ := p
    have hc := h
    simp only [List.map_cons, List.nodup_cons] at h
    by_cases hk : k' = k
    · subst hk
      simpa [putSorted] using h
    · by_cases hb : before k k' = true
      · rw [putSorted, if_neg hk, if_pos hb, List.map_cons, List.nodup_cons]
        refine ⟨fun hm => ?_, nodup_filter hc⟩
        exact (mem_keys_filter.1 hm).1 rfl
      · rw [putSorted, if_neg hk, if_neg hb, List.map_cons, List.nodup_cons]
        refine ⟨fun hm => ?_, ih h.2⟩
        exact (mem_keys_putSorted.1 hm).elim hk h.1

end Lists

variable [DecidableEq κ]

/-- The value of `k`, if it has one. -/
def get? (t : Table κ α) (k : κ) : Option α := find k t.entries

/-- Whether `k` has a value. -/
def contains (t : Table κ α) (k : κ) : Bool := (t.get? k).isSome

/-- Write the value of `k`; a new key comes last. -/
def set (t : Table κ α) (k : κ) (v : α) : Table κ α := ⟨put k v t.entries, nodup_put t.nodup⟩

/-- Write the value of `k`; a new key comes before the first key that it precedes. -/
def setSorted (before : κ → κ → Bool) (t : Table κ α) (k : κ) (v : α) : Table κ α :=
  ⟨putSorted before k v t.entries, nodup_putSorted t.nodup⟩

/-- Take `k` and its value away. -/
def erase (t : Table κ α) (k : κ) : Table κ α :=
  ⟨t.entries.filter (fun p => p.1 ≠ k), nodup_filter t.nodup⟩

/-- The table of a list of pairs; of two pairs with one key the later counts. -/
def ofList (l : List (κ × α)) : Table κ α := l.foldl (fun t p => t.set p.1 p.2) empty

/-- Like `ofList`, with the keys in the order of `before`. -/
def ofListSorted (before : κ → κ → Bool) (l : List (κ × α)) : Table κ α :=
  l.foldl (fun t p => t.setSorted before p.1 p.2) empty

/-- Change every value, keeping keys and order. -/
def mapValues {β : Type} (f : α → β) (t : Table κ α) : Table κ β :=
  ⟨t.entries.map (fun p => (p.1, f p.2)), by
    have h : (t.entries.map (fun p => (p.1, f p.2))).map Prod.fst = t.entries.map Prod.fst := by
      simp [List.map_map, Function.comp_def]
    rw [h]; exact t.nodup⟩

@[simp] theorem get?_empty (k : κ) : (empty : Table κ α).get? k = none := rfl

theorem find_put_self {k : κ} {v : α} {l : List (κ × α)} : find k (put k v l) = some v := by
  induction l with
  | nil => simp [put, find]
  | cons p rest ih =>
    obtain ⟨k', v'⟩ := p
    by_cases h : k' = k <;> simp [put, find, h, ih]

theorem find_put_of_ne {k x : κ} {v : α} {l : List (κ × α)} (hx : x ≠ k) :
    find x (put k v l) = find x l := by
  induction l with
  | nil => simp [put, find, Ne.symm hx]
  | cons p rest ih =>
    obtain ⟨k', v'⟩ := p
    by_cases h : k' = k
    · simp [put, find, h, Ne.symm hx]
    · rw [put, if_neg h, find, find, ih]

theorem find_filter_self {k : κ} {l : List (κ × α)} :
    find k (l.filter (fun p => p.1 ≠ k)) = none := by
  induction l with
  | nil => rfl
  | cons p rest ih =>
    obtain ⟨k', v'⟩ := p
    by_cases h : k' = k
    · simpa [List.filter_cons, h] using ih
    · simpa [List.filter_cons, h, find] using ih

theorem find_filter_of_ne {k x : κ} {l : List (κ × α)} (hx : x ≠ k) :
    find x (l.filter (fun p => p.1 ≠ k)) = find x l := by
  induction l with
  | nil => rfl
  | cons p rest ih =>
    obtain ⟨k', v'⟩ := p
    by_cases h : k' = k
    · simpa [List.filter_cons, h, find, Ne.symm hx] using ih
    · by_cases h' : k' = x
      · simp [find, h' ▸ h, h']
      · simpa [List.filter_cons, h, find, h'] using ih

@[simp] theorem get?_set_self (t : Table κ α) (k : κ) (v : α) : (t.set k v).get? k = some v :=
  find_put_self

theorem get?_set_of_ne (t : Table κ α) {k x : κ} (v : α) (hx : x ≠ k) :
    (t.set k v).get? x = t.get? x :=
  find_put_of_ne hx

@[simp] theorem get?_erase_self (t : Table κ α) (k : κ) : (t.erase k).get? k = none :=
  find_filter_self

theorem get?_erase_of_ne (t : Table κ α) {k x : κ} (hx : x ≠ k) :
    (t.erase k).get? x = t.get? x :=
  find_filter_of_ne hx

end Table

end ResultSearch
