import Mathlib.Data.List.Forall2

/-!
# Outcomes

An operation that may fail has an outcome, a value or an error. The lemmas take a composed outcome
that succeeded apart into the outcomes of its parts.

* `bind_eq_ok_iff`, `mapM_eq_ok_iff`: what a success is made of.
* `mapM_eq_error`: a pass fails with the first step that does.
* `of_foldlM`: what every step of a run keeps, the run keeps.
-/

namespace ResultSearch.Outcome

variable {ε α β : Type}

theorem ok_bind {a : α} {f : α → Except ε β} : (Except.ok a >>= f) = f a := rfl

theorem error_bind {e : ε} {f : α → Except ε β} : (Except.error e >>= f) = .error e := rfl

theorem pure_eq_ok {a : α} : (pure a : Except ε α) = .ok a := rfl

theorem map_eq_ok_iff {x : Except ε α} {f : α → β} {b : β} :
    f <$> x = .ok b ↔ ∃ a, x = .ok a ∧ f a = b := by
  cases x <;> simp [Functor.map, Except.map]

theorem bind_eq_ok_iff {x : Except ε α} {f : α → Except ε β} {b : β} :
    x >>= f = .ok b ↔ ∃ a, x = .ok a ∧ f a = .ok b := by
  cases x <;> simp [bind, Except.bind]

/-- What is made of a value is there if the value is. -/
theorem exists_bind_eq_ok {x : Except ε α} {f : α → β} (h : ∃ a, x = .ok a) :
    ∃ b, (do let a ← x; return f a : Except ε β) = .ok b := by
  obtain ⟨a, rfl⟩ := h
  exact ⟨f a, rfl⟩

/-- A pass over a list succeeds exactly with the values of the single steps. -/
theorem mapM_eq_ok_iff {f : α → Except ε β} {l : List α} {r : List β} :
    l.mapM f = .ok r ↔ List.Forall₂ (fun a b => f a = .ok b) l r := by
  induction l generalizing r with
  | nil => cases r <;> simp [pure, Except.pure]
  | cons a rest ih =>
    rw [List.mapM_cons, bind_eq_ok_iff]
    constructor
    · rintro ⟨b, hb, h⟩
      obtain ⟨bs, hbs, h⟩ := bind_eq_ok_iff.1 h
      obtain rfl : b :: bs = r := Except.ok.inj h
      exact .cons hb (ih.1 hbs)
    · rintro (_ | ⟨hb, hbs⟩)
      exact ⟨_, hb, bind_eq_ok_iff.2 ⟨_, ih.2 hbs, rfl⟩⟩

/-- A pass over a list fails with the first step that does. -/
theorem mapM_eq_error {f : α → Except ε β} {before after : List α} {a : α} {e : ε}
    (hbefore : ∀ x ∈ before, ∃ b, f x = .ok b) (ha : f a = .error e) :
    (before ++ a :: after).mapM f = .error e := by
  induction before with
  | nil =>
    rw [List.nil_append, List.mapM_cons, ha]
    rfl
  | cons x rest ih =>
    obtain ⟨b, hb⟩ := hbefore x List.mem_cons_self
    rw [List.cons_append, List.mapM_cons, hb, ok_bind,
      ih fun y hy => hbefore y (List.mem_cons_of_mem _ hy)]
    rfl

/-- What stands at a place of one list is related to what stands there in the other. -/
theorem getElem?_of_forall₂ {R : α → β → Prop} {l : List α} {r : List β} (h : List.Forall₂ R l r)
    {i : Nat} {b : β} (hb : r[i]? = some b) : ∃ a, l[i]? = some a ∧ R a b := by
  induction h generalizing i with
  | nil => cases hb
  | @cons a _ _ _ hab _ ih =>
    cases i with
    | zero =>
      obtain rfl := Option.some.inj hb
      exact ⟨a, rfl, hab⟩
    | succ i => exact ih hb

/-- What is related to the same list is related, place by place. -/
theorem forall₂_of_common {γ : Type} {R : α → β → Prop} {S : α → γ → Prop} {T : β → γ → Prop}
    {l : List α} {m : List β} {n : List γ} (h : List.Forall₂ R l m) (h' : List.Forall₂ S l n)
    (hT : ∀ a b c, R a b → S a c → T b c) : List.Forall₂ T m n := by
  induction h generalizing n with
  | nil =>
    cases h'
    exact .nil
  | cons hab _ ih =>
    cases h' with
    | cons hac hrest => exact .cons (hT _ _ _ hab hac) (ih hrest)

/-- What is made of the values of a pass is made of what it went through. -/
theorem map_of_mapM {γ : Type} {f : α → Except ε β} {l : List α} {r : List β} {g : β → γ}
    {k : α → γ} (h : l.mapM f = .ok r) (hgk : ∀ a ∈ l, ∀ b, f a = .ok b → g b = k a) : r.map g = l.map k := by
  have hsteps := mapM_eq_ok_iff.1 h
  clear h
  induction hsteps with
  | nil => rfl
  | cons hb _ ih =>
    rw [List.map_cons, List.map_cons, hgk _ List.mem_cons_self _ hb,
      ih fun a ha => hgk a (List.mem_cons_of_mem _ ha)]

/-- Two passes with the same steps come to the same. -/
theorem mapM_congr {m : Type → Type} [Monad m] [LawfulMonad m] {f g : α → m β} {l : List α}
    (h : ∀ a ∈ l, f a = g a) : l.mapM f = l.mapM g := by
  induction l with
  | nil => rfl
  | cons a rest ih =>
    rw [List.mapM_cons, List.mapM_cons, h a List.mem_cons_self,
      ih fun x hx => h x (List.mem_cons_of_mem _ hx)]

/-- A pass succeeds if every step does. -/
theorem exists_mapM_eq_ok {f : α → Except ε β} {l : List α} (h : ∀ a ∈ l, ∃ b, f a = .ok b) :
    ∃ r, l.mapM f = .ok r := by
  induction l with
  | nil => exact ⟨[], rfl⟩
  | cons a rest ih =>
    obtain ⟨b, hb⟩ := h a List.mem_cons_self
    obtain ⟨bs, hbs⟩ := ih fun x hx => h x (List.mem_cons_of_mem _ hx)
    refine ⟨b :: bs, ?_⟩
    rw [List.mapM_cons, hb, hbs]
    rfl

/-- What holds at first and is kept by every step that can be taken holds in the end. -/
theorem of_foldlM {f : β → α → Option β} {P : β → Prop} {l : List α} {b b' : β}
    (h : l.foldlM f b = some b') (hb : P b)
    (hstep : ∀ b a b', a ∈ l → P b → f b a = some b' → P b') : P b' := by
  induction l generalizing b with
  | nil => exact Option.some.inj h ▸ hb
  | cons a rest ih =>
    obtain ⟨next, hnext, hrest⟩ := Option.bind_eq_some_iff.1 h
    exact ih hrest (hstep b a next List.mem_cons_self hb hnext)
      fun b a b' ha => hstep b a b' (List.mem_cons_of_mem _ ha)

/-- A run that fails does so at one of its steps. -/
theorem exists_of_foldlM_eq_error {f : β → α → Except ε β} {l : List α} {b : β} {e : ε}
    (h : l.foldlM f b = .error e) : ∃ a ∈ l, ∃ b', f b' a = .error e := by
  induction l generalizing b with
  | nil => cases h
  | cons a rest ih =>
    rw [List.foldlM_cons] at h
    cases hstep : f b a with
    | error e' =>
      rw [hstep] at h
      exact ⟨a, List.mem_cons_self, b, hstep.trans h⟩
    | ok next =>
      rw [hstep] at h
      obtain ⟨a', ha', hfail⟩ := ih h
      exact ⟨a', List.mem_cons_of_mem _ ha', hfail⟩

end ResultSearch.Outcome
