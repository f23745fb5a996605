import Mathlib.Algebra.Group.Nat.Defs
import ResultSearch.Query.Fragment
import ResultSearch.Proofs.Outcome

/-!
# The queries that can be written

A fragment has no tag, and a shape that refuses it leaves it to the shapes after it. Nevertheless
only well-formed queries come out of fragments, and all of them do: for every query but the
constants there is a fragment that no earlier shape takes away, at every place in a larger one.

* `Query.Writable`: no constants, no empty lists, products with a spelling, numbers that fit.
* `Made`, `made_of_shape`, `Made.exists_shape`: what the shapes make of the members.
* `sound_read`: what values mean is writable.
* `exists_spells`: a writable query has a fragment.
* `parse_eq_ok_iff_writable`: both together.
-/

namespace ResultSearch

/-! ## Names and specs -/

/-- Some text spells the product. -/
def Product.IsSpelled (p : Product) : Prop := ∃ spec, Product.parse spec = .ok p

/-- The empty text spells no product. -/
theorem Product.IsSpelled.exists_ne_empty {p : Product} (h : p.IsSpelled) :
    ∃ spec, spec ≠ "" ∧ Product.parse spec = .ok p := by
  obtain ⟨spec, hspec⟩ := h
  refine ⟨spec, ?_, hspec⟩
  rintro rfl
  have hempty : Product.parse "" = .error (.invalidProduct "") := by decide +kernel
  rw [hempty] at hspec
  cases hspec

theorem Status.parse_name (s : Status) : Status.parse s.name = .ok s := by
  cases s <;> decide +kernel

theorem Quality.parse_name (q : Quality) : Quality.parse q.name = .ok q := by
  cases q <;> decide +kernel

/-! ## Well-formed queries -/

namespace Query

mutual

/-- Well-formed: there are no constants, every list of arguments has a member, every product has a
spelling, and every number fits 64 bits. -/
def Writable : Query → Prop
  | .const _ => False
  | .testName _ => True
  | .subtestName _ => True
  | .testPath _ => True
  | .status product _ => ∀ p ∈ product, p.IsSpelled
  | .not q => Writable q
  | .or args => args ≠ [] ∧ WritableEach args
  | .and args => args ≠ [] ∧ WritableEach args
  | .someRun args => args ≠ [] ∧ WritableEach args
  | .everyRun args => args ≠ [] ∧ WritableEach args
  | .noRun args => args ≠ [] ∧ WritableEach args
  | .consecutive args => args ≠ [] ∧ WritableEach args
  | .tally _ count q => count < 2 ^ 64 ∧ Writable q
  | .link _ => True
  | .triaged product => ∀ p ∈ product, p.IsSpelled
  | .label _ => True
  | .feature _ => True
  | .quality _ => True

/-- All the queries are well-formed. -/
def WritableEach : List Query → Prop
  | [] => True
  | q :: rest => Writable q ∧ WritableEach rest

end

end Query

namespace Fragment

open Query (Writable WritableEach)

attribute [local simp] Writable WritableEach

/-! ## Looking up members -/

theorem exists_mem_of_part? {parts : Parts} {key : String} {p : Part}
    (h : part? parts key = some p) : ∃ e ∈ parts, e.2 = p := by
  obtain ⟨e, he, rfl⟩ := Option.map_eq_some_iff.1 h
  exact ⟨e, List.mem_reverse.1 (List.mem_of_find?_eq_some he), rfl⟩

theorem part?_singleton (k key : String) (p : Part) :
    part? [(k, p)] key = if k = key then some p else none := by
  by_cases h : k = key <;> simp [part?, h]

theorem part?_pair (k k' key : String) (p p' : Part) :
    part? [(k, p), (k', p')] key =
      if k' = key then some p' else if k = key then some p else none := by
  by_cases h' : k' = key <;> by_cases h : k = key <;> simp [part?, h, h']

/-- Whatever is chosen, some shape accepts the members. -/
theorem exists_of_choose {parts : Parts} {l : List Shape} {q : Query}
    (h : choose parts l = .ok q) : ∃ shape ∈ l, shape.2 parts = .ok q := by
  induction l with
  | nil => cases h
  | cons shape rest ih =>
    have hlater : choose parts rest = .ok q → ∃ s ∈ shape :: rest, s.2 parts = .ok q := by
      intro hrest
      obtain ⟨s, hs, hq⟩ := ih hrest
      exact ⟨s, List.mem_cons_of_mem _ hs, hq⟩
    rw [choose] at h
    split at h
    · split at h
      · next q' hq' =>
        obtain rfl := Except.ok.inj h
        exact ⟨shape, List.mem_cons_self, hq'⟩
      · exact hlater h
    · exact hlater h

/-! ## What the shapes make -/

/-- What the shape of a key makes of the members. -/
inductive Made (parts : Parts) : String → Query → Prop
  | pattern {s : String} : text parts "pattern" = .ok s → Made parts "pattern" (.testName s)
  | subtest {s : String} : text parts "subtest" = .ok s → Made parts "subtest" (.subtestName s)
  | path {s : String} : text parts "path" = .ok s → Made parts "path" (.testPath s)
  | status {name : String} {status : Status} {p : Option Product} :
      text parts "status" = .ok name → Status.parse name = .ok status → product parts = .ok p →
        Made parts "status" (.status p (.is status))
  | statusNot {part : Part} {members : List (String × Json)} {name : String} {status : Status}
      {p : Option Product} :
      part? parts "status" = some part → part.value = .obj members →
        Json.member? members "not" = some (.str name) → Status.parse name = .ok status →
          product parts = .ok p → Made parts "status" (.status p (.isNot status))
  | not {arg : Query} : nested parts "not" = .ok arg → Made parts "not" (.not arg)
  | or {args : List Query} : nestedList parts "or" = .ok args → Made parts "or" (.or args)
  | and {args : List Query} : nestedList parts "and" = .ok args → Made parts "and" (.and args)
  | someRun {args : List Query} :
      nestedList parts "exists" = .ok args → Made parts "exists" (.someRun args)
  | everyRun {args : List Query} :
      nestedList parts "all" = .ok args → Made parts "all" (.everyRun args)
  | noRun {args : List Query} : nestedList parts "none" = .ok args → Made parts "none" (.noRun args)
  | consecutive {args : List Query} :
      nestedList parts "sequential" = .ok args → Made parts "sequential" (.consecutive args)
  | exactly {n : Nat} {arg : Query} : count parts "count" = .ok n → nested parts "where" = .ok arg →
      Made parts "count" (.tally .exactly n arg)
  | lessThan {n : Nat} {arg : Query} :
      count parts "lessThan" = .ok n → nested parts "where" = .ok arg →
        Made parts "lessThan" (.tally .lessThan n arg)
  | moreThan {n : Nat} {arg : Query} :
      count parts "moreThan" = .ok n → nested parts "where" = .ok arg →
        Made parts "moreThan" (.tally .moreThan n arg)
  | link {s : String} : text parts "link" = .ok s → Made parts "link" (.link s)
  | quality {name : String} {quality : Quality} :
      text parts "is" = .ok name → Quality.parse name = .ok quality →
        Made parts "is" (.quality quality)
  | triaged : text parts "triaged" = .ok "" → Made parts "triaged" (.triaged none)
  | triagedProduct {spec : String} {p : Product} :
      text parts "triaged" = .ok spec → spec ≠ "" → Product.parse spec = .ok p →
        Made parts "triaged" (.triaged (some p))
  | label {s : String} : text parts "label" = .ok s → Made parts "label" (.label s)
  | feature {s : String} : text parts "feature" = .ok s → Made parts "feature" (.feature s)

section Made

variable {parts : Parts} {key : String} {q : Query}

theorem status_eq_ok_iff {name : String} {test : Status → StatusTest} :
    (do let status ← Status.parse name
        return .status (← product parts) (test status)) = Except.ok q ↔
      ∃ status p, Status.parse name = .ok status ∧ product parts = .ok p ∧
        q = .status p (test status) := by
  constructor
  · intro h
    obtain ⟨status, hstatus, h⟩ := Outcome.bind_eq_ok_iff.1 h
    obtain ⟨p, hp, h⟩ := Outcome.bind_eq_ok_iff.1 h
    exact ⟨status, p, hstatus, hp, (Except.ok.inj h).symm⟩
  · rintro ⟨status, p, hstatus, hp, rfl⟩
    rw [hstatus, Outcome.ok_bind, hp]
    rfl

theorem made_of_statusIs (h : statusIs parts = .ok q) : Made parts "status" q := by
  obtain ⟨name, hname, h⟩ := Outcome.bind_eq_ok_iff.1 h
  obtain ⟨status, p, hstatus, hp, rfl⟩ := status_eq_ok_iff.1 h
  exact .status hname hstatus hp

theorem made_of_statusIsNot (h : statusIsNot parts = .ok q) : Made parts "status" q := by
  rw [statusIsNot] at h
  split at h
  · next members hvalue =>
    obtain ⟨part, hpart, hvalue⟩ := Option.map_eq_some_iff.1 hvalue
    split at h
    · next name hname =>
      obtain ⟨status, p, hstatus, hp, rfl⟩ := status_eq_ok_iff.1 h
      exact .statusNot hpart hvalue hname hstatus hp
    · cases h
  · cases h

theorem tally_eq_ok_iff {comparison : Comparison} : tally comparison key parts = .ok q ↔
    ∃ n arg, count parts key = .ok n ∧ nested parts "where" = .ok arg ∧
      q = .tally comparison n arg := by
  constructor
  · intro h
    obtain ⟨n, hn, h⟩ := Outcome.bind_eq_ok_iff.1 h
    obtain ⟨arg, harg, h⟩ := Outcome.bind_eq_ok_iff.1 h
    exact ⟨n, arg, hn, harg, (Except.ok.inj h).symm⟩
  · rintro ⟨n, arg, hn, harg, rfl⟩
    rw [tally, hn, Outcome.ok_bind, harg]
    rfl

theorem made_of_quality
    (h : (do return .quality (← Quality.parse (← text parts "is"))) = Except.ok q) :
    Made parts "is" q := by
  obtain ⟨name, hname, h⟩ := Outcome.bind_eq_ok_iff.1 h
  obtain ⟨quality, hquality, h⟩ := Outcome.bind_eq_ok_iff.1 h
  obtain rfl := Except.ok.inj h
  exact .quality hname hquality

theorem made_of_triaged (h : triaged parts = .ok q) : Made parts "triaged" q := by
  obtain ⟨spec, hspec, h⟩ := Outcome.bind_eq_ok_iff.1 h
  split at h
  · next hempty =>
    obtain rfl := Except.ok.inj h
    exact .triaged (hempty ▸ hspec)
  · next hne =>
    obtain ⟨p, hp, h⟩ := Outcome.bind_eq_ok_iff.1 h
    obtain rfl := Except.ok.inj h
    exact .triagedProduct hspec hne hp

/-- What is made of the members is made by one of the shapes, in this way. -/
theorem made_of_shape {shape : Shape} (hs : shape ∈ shapes) (h : shape.2 parts = .ok q) :
    Made parts shape.1 q := by
  have hmap {α : Type} {make : α → Query} {read : Except QueryError α} {k : String}
      (hread : make <$> read = .ok q) (hmade : ∀ a, read = .ok a → Made parts k (make a)) :
      Made parts k q := by
    obtain ⟨a, ha, rfl⟩ := Outcome.map_eq_ok_iff.1 hread
    exact hmade a ha
  have htally {comparison : Comparison} {k : String} (hread : tally comparison k parts = .ok q)
      (hmade : ∀ n arg, count parts k = .ok n → nested parts "where" = .ok arg →
        Made parts k (.tally comparison n arg)) : Made parts k q := by
    obtain ⟨n, arg, hn, harg, rfl⟩ := tally_eq_ok_iff.1 hread
    exact hmade n arg hn harg
  simp only [shapes, List.mem_cons, List.not_mem_nil, or_false] at hs
  rcases hs with rfl | rfl | rfl | rfl | rfl | rfl | rfl | rfl | rfl | rfl | rfl | rfl | rfl | rfl |
    rfl | rfl | rfl | rfl | rfl | rfl
  · exact hmap h fun _ => .pattern
  · exact hmap h fun _ => .subtest
  · exact hmap h fun _ => .path
  · exact made_of_statusIs h
  · exact made_of_statusIsNot h
  · exact hmap h fun _ => .not
  · exact hmap h fun _ => .or
  · exact hmap h fun _ => .and
  · exact hmap h fun _ => .someRun
  · exact hmap h fun _ => .everyRun
  · exact hmap h fun _ => .noRun
  · exact hmap h fun _ => .consecutive
  · exact htally h fun _ _ => .exactly
  · exact htally h fun _ _ => .lessThan
  · exact htally h fun _ _ => .moreThan
  · exact hmap h fun _ => .link
  · exact made_of_quality h
  · exact made_of_triaged h
  · exact hmap h fun _ => .label
  · exact hmap h fun _ => .feature

/-- The shapes make all of it. -/
theorem Made.exists_shape (h : Made parts key q) :
    ∃ shape ∈ shapes, shape.1 = key ∧ shape.2 parts = .ok q := by
  have hplace (i : Nat) (hi : i < shapes.length) (hkey : shapes[i].1 = key)
      (hmade : shapes[i].2 parts = .ok q) :
      ∃ shape ∈ shapes, shape.1 = key ∧ shape.2 parts = .ok q :=
    ⟨_, List.getElem_mem hi, hkey, hmade⟩
  cases h with
  | pattern hs => exact hplace 0 (by decide) rfl (congrArg (Query.testName <$> ·) hs)
  | subtest hs => exact hplace 1 (by decide) rfl (congrArg (Query.subtestName <$> ·) hs)
  | path hs => exact hplace 2 (by decide) rfl (congrArg (Query.testPath <$> ·) hs)
  | status hname hstatus hp =>
    refine hplace 3 (by decide) rfl ?_
    show statusIs parts = _
    rw [statusIs, hname]
    exact status_eq_ok_iff.2 ⟨_, _, hstatus, hp, rfl⟩
  | statusNot hpart hvalue hname hstatus hp =>
    refine hplace 4 (by decide) rfl ?_
    show statusIsNot parts = _
    rw [statusIsNot, hpart, Option.map_some, hvalue]
    dsimp only
    rw [hname]
    exact status_eq_ok_iff.2 ⟨_, _, hstatus, hp, rfl⟩
  | not harg => exact hplace 5 (by decide) rfl (congrArg (Query.not <$> ·) harg)
  | or hargs => exact hplace 6 (by decide) rfl (congrArg (Query.or <$> ·) hargs)
  | and hargs => exact hplace 7 (by decide) rfl (congrArg (Query.and <$> ·) hargs)
  | someRun hargs => exact hplace 8 (by decide) rfl (congrArg (Query.someRun <$> ·) hargs)
  | everyRun hargs => exact hplace 9 (by decide) rfl (congrArg (Query.everyRun <$> ·) hargs)
  | noRun hargs => exact hplace 10 (by decide) rfl (congrArg (Query.noRun <$> ·) hargs)
  | consecutive hargs => exact hplace 11 (by decide) rfl (congrArg (Query.consecutive <$> ·) hargs)
  | exactly hn harg =>
    exact hplace 12 (by decide) rfl (tally_eq_ok_iff.2 ⟨_, _, hn, harg, rfl⟩)
  | lessThan hn harg =>
    exact hplace 13 (by decide) rfl (tally_eq_ok_iff.2 ⟨_, _, hn, harg, rfl⟩)
  | moreThan hn harg =>
    exact hplace 14 (by decide) rfl (tally_eq_ok_iff.2 ⟨_, _, hn, harg, rfl⟩)
  | link hs => exact hplace 15 (by decide) rfl (congrArg (Query.link <$> ·) hs)
  | quality hname hquality =>
    refine hplace 16 (by decide) rfl ?_
    show (text parts "is" >>= fun name => Query.quality <$> Quality.parse name) = Except.ok _
    rw [hname, Outcome.ok_bind, hquality]
    rfl
  | triaged hspec =>
    refine hplace 17 (by decide) rfl ?_
    show Fragment.triaged parts = _
    rw [Fragment.triaged, hspec]
    rfl
  | triagedProduct hspec hne hp =>
    refine hplace 17 (by decide) rfl ?_
    show Fragment.triaged parts = _
    rw [Fragment.triaged, hspec, Outcome.ok_bind, if_neg hne, hp]
    rfl
  | label hs => exact hplace 18 (by decide) rfl (congrArg (Query.label <$> ·) hs)
  | feature hs => exact hplace 19 (by decide) rfl (congrArg (Query.feature <$> ·) hs)

end Made

/-! ## What fragments mean is well-formed -/

/-- What the value of a member means is well-formed. -/
structure Part.Sound (p : Part) : Prop where
  query : ∀ q, p.query = .ok q → q.Writable
  queries : ∀ qs, p.queries = .ok qs → qs ≠ [] ∧ WritableEach qs

section Shapes

variable {parts : Parts} {key : String} {q : Query}

theorem writable_of_nested (h : ∀ e ∈ parts, e.2.Sound) (hq : nested parts key = .ok q) :
    q.Writable := by
  rw [nested] at hq
  split at hq
  · next p hp =>
    obtain ⟨e, he, rfl⟩ := exists_mem_of_part? hp
    exact (h e he).query q hq
  · cases hq

theorem writable_of_nestedList {qs : List Query} (h : ∀ e ∈ parts, e.2.Sound)
    (hqs : nestedList parts key = .ok qs) : qs ≠ [] ∧ WritableEach qs := by
  rw [nestedList] at hqs
  split at hqs
  · next p hp =>
    obtain ⟨e, he, rfl⟩ := exists_mem_of_part? hp
    exact (h e he).queries qs hqs
  · cases hqs

/-- The product of a status demand is spelled under one of its two names. -/
theorem isSpelled_of_product {product? : Option Product} (h : product parts = .ok product?) :
    ∀ p ∈ product?, p.IsSpelled := by
  rintro p rfl
  obtain ⟨first, -, h⟩ := Outcome.bind_eq_ok_iff.1 h
  have hspec : ∃ spec, (if spec = "" then pure none else some <$> Product.parse spec) =
      (.ok (some p) : Except QueryError (Option Product)) := by
    split at h <;> obtain ⟨spec, -, h⟩ := Outcome.bind_eq_ok_iff.1 h <;> exact ⟨spec, h⟩
  obtain ⟨spec, hspec⟩ := hspec
  split at hspec
  · cases hspec
  · obtain ⟨p', hp', heq⟩ := Outcome.map_eq_ok_iff.1 hspec
    obtain rfl := Option.some.inj heq
    exact ⟨spec, hp'⟩

theorem lt_of_nat64? {j : Json} {n : Nat} (h : j.nat64? = some n) : n < 2 ^ 64 := by
  cases j with
  | int value =>
    by_cases hbounds : 0 ≤ value ∧ value ≤ Json.maxUnsigned
    · obtain rfl : value.toNat = n := by simpa [Json.nat64?, Json.intIn?, hbounds] using h
      rw [Json.maxUnsigned] at hbounds
      omega
    · simp [Json.nat64?, Json.intIn?, hbounds] at h
  | _ => cases h

theorem lt_of_count {n : Nat} (h : count parts key = .ok n) : n < 2 ^ 64 := by
  rw [count] at h
  split at h
  · next n' hn' =>
    obtain rfl := Except.ok.inj h
    obtain ⟨p, -, hp⟩ := Option.bind_eq_some_iff.1 hn'
    exact lt_of_nat64? hp
  · cases h

/-- Every shape makes well-formed queries of sound members. -/
theorem Made.writable (hq : Made parts key q) (h : ∀ e ∈ parts, e.2.Sound) : q.Writable := by
  cases hq with
  | status _ _ hp | statusNot _ _ _ _ hp => exact isSpelled_of_product hp
  | @not arg harg =>
    show arg.Writable
    exact writable_of_nested h harg
  | or hargs | and hargs | someRun hargs | everyRun hargs | noRun hargs | consecutive hargs =>
    exact writable_of_nestedList h hargs
  | exactly hn harg | lessThan hn harg | moreThan hn harg =>
    exact ⟨lt_of_count hn, writable_of_nested h harg⟩
  | triaged => simp
  | triagedProduct _ _ hp => simpa using ⟨_, hp⟩
  | pattern | subtest | path | link | quality | label | feature => trivial

end Shapes

mutual

/-- Whatever a value means, as a fragment or as a list of fragments, is well-formed. -/
theorem sound_read : ∀ j : Json, (Part.mk j (read j).1 (read j).2).Sound
  | .obj members =>
    { query := fun q hq => by
        obtain ⟨shape, hs, hq⟩ := exists_of_choose (by simpa only [read] using hq)
        exact (made_of_shape hs hq).writable (sound_readMembers members)
      queries := fun qs hqs => by simp [read] at hqs }
  | .arr items =>
    { query := fun q hq => by cases items <;> simp [read] at hq
      queries := fun qs hqs => by
        cases items with
        | nil => simp [read] at hqs
        | cons j rest =>
          obtain ⟨q, hq, hqs⟩ := Outcome.bind_eq_ok_iff.1 (by simpa only [read] using hqs)
          obtain ⟨qs', hqs', hqs⟩ := Outcome.bind_eq_ok_iff.1 hqs
          obtain rfl := Except.ok.inj hqs
          exact ⟨by simp, (sound_read j).query q hq, writableEach_of_readItems rest hqs'⟩ }
  | .null | .bool _ | .int _ | .float _ | .str _ | .unreadable =>
    { query := fun q hq => by simp [read] at hq
      queries := fun qs hqs => by simp [read] at hqs }

theorem writableEach_of_readItems :
    ∀ (items : List Json) {qs : List Query}, readItems items = .ok qs → WritableEach qs
  | [], qs, h => by
    obtain rfl := Except.ok.inj h
    trivial
  | j :: rest, qs, h => by
    obtain ⟨q, hq, h⟩ := Outcome.bind_eq_ok_iff.1 (by simpa only [readItems] using h)
    obtain ⟨qs', hqs', h⟩ := Outcome.bind_eq_ok_iff.1 h
    obtain rfl := Except.ok.inj h
    exact ⟨(sound_read j).query q hq, writableEach_of_readItems rest hqs'⟩

theorem sound_readMembers :
    ∀ (members : List (String × Json)), ∀ e ∈ readMembers members, e.2.Sound
  | [] => by simp [readMembers]
  | (key, j) :: rest => by
    simp only [readMembers, List.forall_mem_cons]
    exact ⟨sound_read j, sound_readMembers rest⟩

end

/-! ## Every well-formed query has a fragment -/

/-- The value has its keys in order, each of them once, and means the query. -/
def Spells (j : Json) (q : Query) : Prop := j.settle? = some j ∧ parse j = .ok q

/-- The values one by one. -/
def SpellsEach (js : List Json) (qs : List Query) : Prop :=
  Json.settleItems? js = some js ∧ readItems js = .ok qs

/-- The part that a value is read as. -/
def part (j : Json) : Part := ⟨j, (read j).1, (read j).2⟩

theorem part_value (j : Json) : (part j).value = j := rfl

section Spelling

variable {key key' : String} {j j' : Json} {q : Query}

theorem Spells.query (h : Spells j q) : (part j).query = .ok q := h.2

/-- A list of fragments means something only if it has a member. -/
theorem SpellsEach.queries {js : List Json} {qs : List Query} (h : SpellsEach js qs)
    (hne : qs ≠ []) : (part (.arr js)).queries = .ok qs := by
  cases js with
  | nil => exact absurd (Except.ok.inj h.2).symm hne
  | cons j rest => simpa [part, read, readItems] using h.2

theorem sortMembers_pair (h : key < key') :
    Json.sortMembers [(key, j), (key', j')] = [(key, j), (key', j')] := by
  have hne : key ≠ key' := fun heq => String.lt_irrefl key' (heq ▸ h)
  have hlt : ¬ key' < key := String.lt_asymm h
  simp [Json.sortMembers, Json.putMember, Json.keyBefore, hne, hlt]

theorem spells_obj (hj : j.settle? = some j) (h : choose [(key, part j)] shapes = .ok q) :
    Spells (.obj [(key, j)]) q :=
  ⟨by simp [Json.settle?, Json.settleMembers?, hj, Json.sortMembers, Json.putMember],
    by simpa [parse, read, readMembers, part] using h⟩

theorem spells_obj_pair (hkeys : key < key') (hj : j.settle? = some j) (hj' : j'.settle? = some j')
    (h : choose [(key, part j), (key', part j')] shapes = .ok q) :
    Spells (.obj [(key, j), (key', j')]) q :=
  ⟨by simp [Json.settle?, Json.settleMembers?, hj, hj', sortMembers_pair hkeys],
    by simpa [parse, read, readMembers, part] using h⟩

end Spelling

attribute [local simp] choose shapes part?_singleton part?_pair part_value Outcome.ok_bind
  Outcome.error_bind Outcome.pure_eq_ok

/-! ### Demands on a status -/

/-- A member that names the product, also if there is none. -/
theorem exists_product {product? : Option Product} (h : ∀ p ∈ product?, p.IsSpelled) :
    ∃ spec, ∀ status,
      product [("product", part (.str spec)), ("status", status)] = .ok product? := by
  cases product? with
  | none => exact ⟨"", fun status => by simp [product, textOrEmpty]⟩
  | some p =>
    obtain ⟨spec, hne, hspec⟩ := (h p rfl).exists_ne_empty
    exact ⟨spec, fun status => by simp [product, textOrEmpty, hne, hspec]⟩

theorem exists_spells_status {product? : Option Product} (h : ∀ p ∈ product?, p.IsSpelled)
    (test : StatusTest) : ∃ j, Spells j (.status product? test) := by
  obtain ⟨spec, hspec⟩ := exists_product h
  have hkeys : "product" < "status" := by decide +kernel
  cases test with
  | is status =>
    refine ⟨.obj [("product", .str spec), ("status", .str status.name)],
      spells_obj_pair hkeys rfl rfl ?_⟩
    simp [statusIs, text, Status.parse_name, hspec]
  | isNot status =>
    refine ⟨.obj [("product", .str spec), ("status", .obj [("not", .str status.name)])],
      spells_obj_pair hkeys rfl rfl ?_⟩
    simp [statusIs, statusIsNot, text, Status.parse_name, hspec, Json.member?]

/-! ### Lists and numbers -/

theorem exists_spells_list (key : String) {args : List Query} {q : Query} (hne : args ≠ [])
    (h : ∃ js, SpellsEach js args)
    (hshape : ∀ p : Part, p.queries = .ok args → choose [(key, p)] shapes = .ok q) :
    ∃ j, Spells j q := by
  obtain ⟨js, hjs⟩ := h
  refine ⟨.obj [(key, .arr js)], spells_obj ?_ (hshape _ (hjs.queries hne))⟩
  simp [Json.settle?, hjs.1]

theorem nat64?_int {n : Nat} (h : n < 2 ^ 64) : (Json.int n).nat64? = some n := by
  have hbounds : (0 : Int) ≤ n ∧ (n : Int) ≤ Json.maxUnsigned := by
    rw [Json.maxUnsigned]
    omega
  simp [Json.nat64?, Json.intIn?, hbounds]

theorem exists_spells_tally {comparison : Comparison} {n : Nat} {q : Query} (hn : n < 2 ^ 64)
    (h : ∃ j, Spells j q) : ∃ j, Spells j (.tally comparison n q) := by
  obtain ⟨j, hj⟩ := h
  cases comparison with
  | exactly =>
    refine ⟨.obj [("count", .int n), ("where", j)],
      spells_obj_pair (by decide +kernel) rfl hj.1 ?_⟩
    simp [tally, count, nested, nat64?_int hn, hj.query]
  | moreThan =>
    refine ⟨.obj [("moreThan", .int n), ("where", j)],
      spells_obj_pair (by decide +kernel) rfl hj.1 ?_⟩
    simp [tally, count, nested, nat64?_int hn, hj.query]
  | lessThan =>
    refine ⟨.obj [("lessThan", .int n), ("where", j)],
      spells_obj_pair (by decide +kernel) rfl hj.1 ?_⟩
    simp [tally, count, nested, nat64?_int hn, hj.query]

/-! ### All queries -/

mutual

/-- Every well-formed query has a fragment. A fragment with one key, or with the few that one shape
reads, leaves no choice to the order of the shapes. -/
theorem exists_spells : ∀ q : Query, q.Writable → ∃ j, Spells j q
  | .const _, h => h.elim
  | .testName s, _ => ⟨.obj [("pattern", .str s)], spells_obj rfl (by simp [text])⟩
  | .subtestName s, _ => ⟨.obj [("subtest", .str s)], spells_obj rfl (by simp [text])⟩
  | .testPath s, _ => ⟨.obj [("path", .str s)], spells_obj rfl (by simp [text])⟩
  | .status _ test, h => exists_spells_status h test
  | .not q, h => by
    obtain ⟨j, hj⟩ := exists_spells q h
    exact ⟨.obj [("not", j)], spells_obj hj.1 (by simp [nested, hj.query])⟩
  | .or args, h =>
    exists_spells_list "or" h.1 (exists_spellsEach args h.2) fun p hp => by simp [nestedList, hp]
  | .and args, h =>
    exists_spells_list "and" h.1 (exists_spellsEach args h.2) fun p hp => by simp [nestedList, hp]
  | .someRun args, h =>
    exists_spells_list "exists" h.1 (exists_spellsEach args h.2) fun p hp => by
      simp [nestedList, hp]
  | .everyRun args, h =>
    exists_spells_list "all" h.1 (exists_spellsEach args h.2) fun p hp => by simp [nestedList, hp]
  | .noRun args, h =>
    exists_spells_list "none" h.1 (exists_spellsEach args h.2) fun p hp => by simp [nestedList, hp]
  | .consecutive args, h =>
    exists_spells_list "sequential" h.1 (exists_spellsEach args h.2) fun p hp => by
      simp [nestedList, hp]
  | .tally _ _ q, h => exists_spells_tally h.1 (exists_spells q h.2)
  | .link s, _ => ⟨.obj [("link", .str s)], spells_obj rfl (by simp [text])⟩
  | .triaged none, _ => ⟨.obj [("triaged", .str "")], spells_obj rfl (by simp [triaged, text])⟩
  | .triaged (some p), h => by
    obtain ⟨spec, hne, hspec⟩ := (h p rfl).exists_ne_empty
    exact ⟨.obj [("triaged", .str spec)], spells_obj rfl (by simp [triaged, text, hne, hspec])⟩
  | .label s, _ => ⟨.obj [("label", .str s)], spells_obj rfl (by simp [text])⟩
  | .feature s, _ => ⟨.obj [("feature", .str s)], spells_obj rfl (by simp [text])⟩
  | .quality quality, _ =>
    ⟨.obj [("is", .str quality.name)], spells_obj rfl (by simp [text, Quality.parse_name])⟩

theorem exists_spellsEach : ∀ qs : List Query, WritableEach qs → ∃ js, SpellsEach js qs
  | [], _ => ⟨[], rfl, rfl⟩
  | q :: rest, h => by
    obtain ⟨j, hj⟩ := exists_spells q h.1
    obtain ⟨js, hjs⟩ := exists_spellsEach rest h.2
    refine ⟨j :: js, ?_, ?_⟩
    · simp [Json.settleItems?, hj.1, hjs.1]
    · have hq : (read j).1 = .ok q := hj.2
      simp [readItems, hq, hjs.2]

end

/-- Fragments mean the well-formed queries and nothing else: a query is what some value means
exactly if it is well-formed, and then it is what a value with ordered keys, each given once, means. -/
theorem parse_eq_ok_iff_writable (q : Query) :
    ((∃ j, parse j = .ok q) ↔ q.Writable) ∧
      ((∃ j, j.settle? = some j ∧ parse j = .ok q) ↔ q.Writable) := by
  have hsound : ∀ j, parse j = .ok q → q.Writable := fun j hq => (sound_read j).query q hq
  have hcomplete : q.Writable → ∃ j, j.settle? = some j ∧ parse j = .ok q := exists_spells q
  refine ⟨⟨fun ⟨j, hj⟩ => hsound j hj, fun h => ?_⟩, fun ⟨j, _, hj⟩ => hsound j hj, hcomplete⟩
  obtain ⟨j, -, hj⟩ := hcomplete h
  exact ⟨j, hj⟩

end Fragment

end ResultSearch
