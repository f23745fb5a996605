import ResultSearch.Document.Report
import ResultSearch.Proofs.Outcome
import ResultSearch.Proofs.Sorting
import ResultSearch.Table

/-!
# Values written and read

A kind of value is read from JSON and written to it by two functions that know nothing of each other.
They fit if every value that was read is written so that it is read again. Lists, optional members
and records fit if their parts do.

* `Faithful`: what was read is written so that it is read again.
* `ofListSorted_entries`: a sorted table is the table of its entries.
* `faithful_settle`: a settled value stays as it is.
* `faithful_listOf`, `orDefault_optional`, `record?_fields`: lists, members that may be left out, and
  records.
-/

namespace ResultSearch

/-! ## Sorted tables -/

namespace Table

variable {α : Type} {k : String} {v : α} {l : List (String × α)}

/-- The keys ascend. -/
def Ascends (l : List (String × α)) : Prop := l.Pairwise fun p q => p.1 < q.1

theorem mem_putSorted {before : String → String → Bool} {p : String × α}
    (h : p ∈ putSorted before k v l) : p = (k, v) ∨ p ∈ l := by
  induction l with
  | nil => exact .inl (List.mem_singleton.1 h)
  | cons first rest ih =>
    rw [putSorted] at h
    split at h
    · exact (List.mem_cons.1 h).imp_right (List.mem_cons_of_mem _)
    · split at h
      · exact (List.mem_cons.1 h).imp_right fun h => (List.mem_filter.1 h).1
      · rcases List.mem_cons.1 h with rfl | h
        · exact .inr List.mem_cons_self
        · exact (ih h).imp_right (List.mem_cons_of_mem _)

theorem ascends_putSorted (h : Ascends l) : Ascends (putSorted Json.keyBefore k v l) := by
  induction l with
  | nil => exact List.pairwise_singleton _ _
  | cons first rest ih =>
    obtain ⟨hfirst, hrest⟩ := List.pairwise_cons.1 h
    rw [putSorted]
    split
    · next heq => exact List.pairwise_cons.2 ⟨fun p hp => heq ▸ hfirst p hp, hrest⟩
    · next hne =>
      split
      · next hbefore =>
        have hlt : k < first.1 := of_decide_eq_true hbefore
        refine List.pairwise_cons.2 ⟨fun p hp => ?_, h.sublist List.filter_sublist⟩
        rcases List.mem_cons.1 (List.mem_filter.1 hp).1 with rfl | hp
        · exact hlt
        · exact String.lt_trans hlt (hfirst p hp)
      · next hbefore =>
        have hle : first.1 ≤ k := String.not_lt.1 fun hlt => hbefore (decide_eq_true hlt)
        refine List.pairwise_cons.2 ⟨fun p hp => ?_, ih hrest⟩
        rcases mem_putSorted hp with rfl | hp
        · exact String.not_le.1 fun hge => hne (String.le_antisymm hle hge)
        · exact hfirst p hp

/-- A key that all others precede comes last. -/
theorem putSorted_of_lt (h : ∀ p ∈ l, p.1 < k) :
    putSorted Json.keyBefore k v l = l ++ [(k, v)] := by
  induction l with
  | nil => rfl
  | cons first rest ih =>
    have hlt : first.1 < k := h first List.mem_cons_self
    have hbefore : ¬ Json.keyBefore k first.1 = true := fun hgt =>
      String.lt_irrefl _ (String.lt_trans hlt (of_decide_eq_true hgt))
    rw [putSorted, if_neg fun heq => String.lt_irrefl _ (heq ▸ hlt), if_neg hbefore,
      ih fun p hp => h p (List.mem_cons_of_mem _ hp)]
    rfl

/-- The entries of a sorted table are put in one after the other. -/
theorem entries_ofListSorted (l : List (String × α)) :
    (ofListSorted Json.keyBefore l).entries =
      l.foldl (fun acc p => putSorted Json.keyBefore p.1 p.2 acc) [] := by
  have hfold (t : Table String α) : (l.foldl (fun t p => t.setSorted Json.keyBefore p.1 p.2) t).entries =
      l.foldl (fun acc p => putSorted Json.keyBefore p.1 p.2 acc) t.entries := by
    induction l generalizing t with
    | nil => rfl
    | cons p rest ih => exact ih _
  exact hfold empty

theorem ascends_ofListSorted (l : List (String × α)) :
    Ascends (ofListSorted Json.keyBefore l).entries := by
  rw [entries_ofListSorted]
  exact List.foldlRecOn _ _ List.Pairwise.nil fun acc hacc p _ => ascends_putSorted hacc

theorem mem_ofListSorted {p : String × α} (h : p ∈ (ofListSorted Json.keyBefore l).entries) :
    p ∈ l := by
  rw [entries_ofListSorted] at h
  refine List.foldlRecOn (motive := fun acc => p ∈ acc → p ∈ l) _ _ (fun h => absurd h List.not_mem_nil)
    (fun acc hacc q hq h => ?_) h
  rcases mem_putSorted h with rfl | h
  · exact hq
  · exact hacc h

/-- A sorted table is the table of its entries. -/
theorem ofListSorted_entries {t : Table String α} (h : Ascends t.entries) :
    ofListSorted Json.keyBefore t.entries = t := by
  refine ext ?_
  rw [entries_ofListSorted]
  exact Sorting.foldl_of_ascending (f := Prod.fst) (fun l p => putSorted_of_lt) h

end Table

namespace Json

/-! ## Settled values -/

section Settled

variable {key : String} {value j k : Json} {members ms : List (String × Json)}

theorem putMember_eq_putSorted (h : Table.Ascends members) :
    putMember key value members = Table.putSorted keyBefore key value members := by
  induction members with
  | nil => rfl
  | cons first rest ih =>
    obtain ⟨hfirst, hrest⟩ := List.pairwise_cons.1 h
    rw [putMember, Table.putSorted, ih hrest]
    split
    · rfl
    · next hne =>
      split
      · next hbefore =>
        have hlt : key < first.1 := of_decide_eq_true hbefore
        have hkept : Table.putSorted.drop key (first :: rest) = first :: rest := by
          refine List.filter_eq_self.2 fun p hp => decide_eq_true ?_
          rcases List.mem_cons.1 hp with rfl | hp
          · exact hne
          · exact fun heq => String.lt_irrefl _ (String.lt_trans hlt (heq ▸ hfirst p hp))
        rw [hkept]
      · rfl

theorem sortMembers_eq (members : List (String × Json)) :
    sortMembers members = (Table.ofListSorted keyBefore members).entries := by
  have hfold (acc : List (String × Json)) (hacc : Table.Ascends acc) :
      members.foldl (fun acc m => putMember m.1 m.2 acc) acc =
        members.foldl (fun acc m => Table.putSorted keyBefore m.1 m.2 acc) acc := by
    induction members generalizing acc with
    | nil => rfl
    | cons m rest ih =>
      rw [List.foldl_cons, List.foldl_cons, putMember_eq_putSorted hacc]
      exact ih _ (Table.ascends_putSorted hacc)
  rw [Table.entries_ofListSorted]
  exact hfold [] List.Pairwise.nil

theorem sortMembers_sortMembers (members : List (String × Json)) :
    sortMembers (sortMembers members) = sortMembers members := by
  rw [sortMembers_eq members, sortMembers_eq,
    Table.ofListSorted_entries (Table.ascends_ofListSorted members)]

theorem settleMembers?_of_settled (h : ∀ m ∈ ms, settle? m.2 = some m.2) :
    settleMembers? ms = some ms := by
  induction ms with
  | nil => rfl
  | cons m rest ih =>
    rw [settleMembers?, h m List.mem_cons_self, ih fun m hm => h m (List.mem_cons_of_mem _ hm)]
    rfl

mutual

/-- A settled value stays as it is. -/
theorem settle?_settled : ∀ {j k : Json}, settle? j = some k → settle? k = some k
  | .null, _, h => Option.some.inj h ▸ rfl
  | .bool _, _, h => Option.some.inj h ▸ rfl
  | .int _, _, h => Option.some.inj h ▸ rfl
  | .float _, _, h => Option.some.inj h ▸ rfl
  | .str _, _, h => Option.some.inj h ▸ rfl
  | .arr items, k, h => by
    obtain ⟨settled, hsettled, rfl⟩ := Option.map_eq_some_iff.1 h
    rw [settle?, settleItems?_settled hsettled]
    rfl
  | .obj members, k, h => by
    obtain ⟨settled, hsettled, rfl⟩ := Option.map_eq_some_iff.1 h
    have hmembers : settleMembers? (sortMembers settled) = some (sortMembers settled) := by
      refine settleMembers?_of_settled fun m hm => ?_
      rw [sortMembers_eq] at hm
      exact settleMembers?_settled hsettled m (Table.mem_ofListSorted hm)
    rw [settle?, hmembers, Option.map_some, sortMembers_sortMembers]
  | .unreadable, _, h => nomatch h

theorem settleItems?_settled : ∀ {items settled : List Json}, settleItems? items = some settled →
    settleItems? settled = some settled
  | [], _, h => Option.some.inj h ▸ rfl
  | j :: rest, settled, h => by
    obtain ⟨k, hk, h⟩ := Option.bind_eq_some_iff.1 h
    obtain ⟨tail, htail, h⟩ := Option.bind_eq_some_iff.1 h
    obtain rfl := Option.some.inj h
    rw [settleItems?, settle?_settled hk, settleItems?_settled htail]
    rfl

theorem settleMembers?_settled : ∀ {members settled : List (String × Json)},
    settleMembers? members = some settled → ∀ m ∈ settled, settle? m.2 = some m.2
  | [], _, h, m, hm => by
    obtain rfl := Option.some.inj h
    cases hm
  | (key, j) :: rest, settled, h, m, hm => by
    obtain ⟨k, hk, h⟩ := Option.bind_eq_some_iff.1 h
    obtain ⟨tail, htail, h⟩ := Option.bind_eq_some_iff.1 h
    obtain rfl := Option.some.inj h
    rcases List.mem_cons.1 hm with rfl | hm
    · exact settle?_settled hk
    · exact settleMembers?_settled htail m hm

end

end Settled

/-! ## What is written is read -/

/-- What was read is written so that it is read again. -/
def Faithful {α : Type} (read : Json → Option α) (write : α → Json) : Prop :=
  ∀ ⦃j v⦄, read j = some v → read (write v) = some v

section Faithful

variable {α : Type} {read : Json → Option α} {write : α → Json}

theorem faithful_of_read_write (h : ∀ v, read (write v) = some v) : Faithful read write :=
  fun _ v _ => h v

theorem faithful_string : Faithful string? .str := faithful_of_read_write fun _ => rfl

theorem faithful_int64 : Faithful int64? .int := by
  intro j n h
  cases j with
  | int m =>
    obtain ⟨hm, hn⟩ := Option.ite_none_right_eq_some.1 h
    obtain rfl := Option.some.inj hn
    exact h
  | _ => cases h

/-- A settled value is written as it is. -/
theorem faithful_settle : Faithful settle? id := fun _ _ => settle?_settled

/-- The values of a pass each come from some step. -/
theorem exists_of_mem_mapM {β : Type} {f : β → Option α} {l : List β} {r : List α}
    (h : l.mapM f = some r) {a : α} (ha : a ∈ r) : ∃ b, f b = some a := by
  induction l generalizing r with
  | nil =>
    obtain rfl := Option.some.inj h
    cases ha
  | cons b rest ih =>
    rw [List.mapM_cons] at h
    obtain ⟨first, hfirst, h⟩ := Option.bind_eq_some_iff.1 h
    obtain ⟨tail, htail, h⟩ := Option.bind_eq_some_iff.1 h
    obtain rfl := Option.some.inj h
    rcases List.mem_cons.1 ha with rfl | ha
    · exact ⟨b, hfirst⟩
    · exact ih htail ha

/-- A pass over what was written for some values comes to the values. -/
theorem mapM_map_of_forall {β : Type} {f : β → Option α} {g : α → β} {l : List α}
    (h : ∀ a ∈ l, f (g a) = some a) : (l.map g).mapM f = some l := by
  induction l with
  | nil => rfl
  | cons a rest ih =>
    rw [List.map_cons, List.mapM_cons, h a List.mem_cons_self,
      ih fun b hb => h b (List.mem_cons_of_mem _ hb)]
    rfl

theorem faithful_listOf (h : Faithful read write) :
    Faithful (listOf? read) fun l => .arr (l.map write) := by
  intro j l hl
  cases j with
  | arr items =>
    refine mapM_map_of_forall (f := read) fun v hv => ?_
    obtain ⟨item, hitem⟩ := exists_of_mem_mapM (f := read) hl hv
    exact h hitem
  | _ => cases hl

/-- A mapping into a sorted table is written entry by entry. -/
theorem faithful_mapping (h : Faithful read write) :
    Faithful (fun j => (mapping? read j).map (Table.ofListSorted keyBefore))
      fun t => .obj (t.entries.map fun e => (e.1, write e.2)) := by
  intro j t ht
  obtain ⟨l, hl, rfl⟩ := Option.map_eq_some_iff.1 ht
  cases j with
  | obj members =>
    obtain ⟨t, htable⟩ : ∃ t, t = Table.ofListSorted keyBefore l := ⟨_, rfl⟩
    have hentries : mapping? read (.obj (t.entries.map fun e => (e.1, write e.2))) =
        some t.entries := by
      refine mapM_map_of_forall (f := fun m : String × Json => (read m.2).map fun v => (m.1, v))
        fun e he => ?_
      rw [htable] at he
      obtain ⟨m, hm⟩ := exists_of_mem_mapM hl (Table.mem_ofListSorted he)
      obtain ⟨v, hv, rfl⟩ := Option.map_eq_some_iff.1 hm
      rw [h hv]
      rfl
    have hsorted : Table.Ascends t.entries := htable ▸ Table.ascends_ofListSorted l
    dsimp only
    rw [← htable, hentries, Option.map_some, Table.ofListSorted_entries hsorted]
  | _ => cases hl

/-- A member that may be left out is written in any case. -/
theorem Faithful.orDefault (h : Faithful read write) {default v : α}
    (hdefault : read (write default) = some default) {given : Option Json}
    (hv : Json.orDefault default read given = some v) :
    Json.orDefault default read (some (write v)) = some v := by
  show read (write v) = some v
  cases given with
  | none =>
    obtain rfl := Option.some.inj hv
    exact hdefault
  | some j => exact h hv

theorem optional?_of_ne_null {j : Json} (h : j ≠ .null) : optional? read j = (read j).map some := by
  cases j with
  | null => exact absurd rfl h
  | _ => rfl

/-- A member that is written only if it has a value is read again, if its values are. -/
theorem orDefault_optional {v : Option α} (h : ∀ a ∈ v, read (write a) = some a)
    (hnull : ∀ a, write a ≠ .null) : orDefault none (optional? read) (v.map write) = some v := by
  cases v with
  | none => rfl
  | some a =>
    show optional? read (write a) = some (some a)
    rw [optional?_of_ne_null (hnull a), h a rfl]
    rfl

/-- A member that is written only if it has a value. -/
theorem Faithful.optional (h : Faithful read write) (hnull : ∀ v, write v ≠ .null)
    {given : Option Json} {v : Option α} (hv : Json.orDefault none (optional? read) given = some v) :
    Json.orDefault none (optional? read) (v.map write) = some v := by
  refine orDefault_optional (fun a ha => ?_) hnull
  obtain rfl := ha
  cases given with
  | none => cases hv
  | some j =>
    by_cases hj : j = .null
    · subst hj
      cases hv
    · have hread : optional? read j = some (some a) := hv
      rw [optional?_of_ne_null hj] at hread
      obtain ⟨a', ha', heq⟩ := Option.map_eq_some_iff.1 hread
      obtain rfl := Option.some.inj heq
      exact h ha'

end Faithful

/-! ## Records -/

section Records

variable {names : List String} {values : List (Option Json)}

/-- The members of a record, without those that have no value. -/
def fields (names : List String) (values : List (Option Json)) : List (String × Json) :=
  (names.zip values).filterMap fun f => f.2.map fun j => (f.1, j)

theorem mem_names_of_mem_fields {m : String × Json} (h : m ∈ fields names values) : m.1 ∈ names := by
  obtain ⟨f, hf, hm⟩ := List.mem_filterMap.1 h
  obtain ⟨j, -, rfl⟩ := Option.map_eq_some_iff.1 hm
  exact (List.of_mem_zip hf).1

theorem fields_cons {name : String} {value : Option Json} :
    fields (name :: names) (value :: values) =
      (value.map fun j => (name, j)).toList ++ fields names values := by
  rw [fields, List.zip_cons_cons, List.filterMap_cons]
  cases value <;> rfl

theorem single?_fields_self {name : String} {value : Option Json} (h : name ∉ names) :
    single? (fields (name :: names) (value :: values)) name = some value := by
  have hrest : (fields names values).filter (fun m => m.1 = name) = [] := by
    refine List.filter_eq_nil_iff.2 fun m hm => ?_
    rw [decide_eq_true_iff]
    rintro rfl
    exact h (mem_names_of_mem_fields hm)
  rw [single?, fields_cons, List.filter_append, hrest]
  cases value <;> simp

theorem single?_fields_of_ne {name key : String} {value : Option Json} (h : name ≠ key) :
    single? (fields (name :: names) (value :: values)) key = single? (fields names values) key := by
  rw [single?, single?, fields_cons, List.filter_append]
  cases value <;> simp [h]

/-- A record is read as it was written. -/
theorem record?_fields (hnames : names.Nodup) (hlength : names.length = values.length) :
    record? names (.obj (fields names values)) = some values := by
  have hread : names.mapM (single? (fields names values)) = some values := by
    induction names generalizing values with
    | nil =>
      obtain rfl := List.length_eq_zero_iff.1 hlength.symm
      rfl
    | cons name names ih =>
      cases values with
      | nil => cases hlength
      | cons value values =>
        obtain ⟨hname, hnames⟩ := List.nodup_cons.1 hnames
        have hrest : names.mapM (single? (fields (name :: names) (value :: values))) =
            some values := by
          rw [← ih hnames (Nat.succ.inj hlength)]
          exact Outcome.mapM_congr fun key hkey => single?_fields_of_ne fun heq => hname (heq ▸ hkey)
        rw [List.mapM_cons, single?_fields_self hname, hrest]
        rfl
  exact hread

theorem fullRecord?_fields (hnames : names.Nodup) (hlength : names.length = values.length) :
    fullRecord? names (.obj (fields names values)) = some values :=
  record?_fields hnames hlength

end Records

end Json

end ResultSearch
