import ResultSearch.Session.Loading

/-!
# What is hooked to loads

While the report of a run is loaded what is hooked to the load is done, one thing after the other.

* `HookClosed`: what holds between a session before and after each of the things that can be hooked.
* `HookClosed.exists_loading`: then it holds between a session and the one in which the report is
  there.
-/

namespace ResultSearch.Session

variable {s s' s'' : Session} {R R' : Session → Session → Prop}

theorem watch?_of_currentWatch? {m : Nat} {w : Watch} (h : s.currentWatch? = some (m, w)) :
    s.watch? m = some w := by
  obtain ⟨id, -, h⟩ := Option.bind_eq_some_iff.1 h
  obtain ⟨w', hw, h⟩ := Option.bind_eq_some_iff.1 h
  obtain ⟨rfl, rfl⟩ := Prod.mk.inj (Option.some.inj h)
  exact hw

/-- A relation between sessions that covers whatever can be hooked to a load, and the log of it. -/
structure HookClosed (R : Session → Session → Prop) : Prop where
  refl : ∀ s, R s s
  trans : ∀ {s s' s''}, R s s' → R s' s'' → R s s''
  evictAny : ∀ s, R s s.evictAny.2
  stop : ∀ {s s' : Session} {monitor : Nat} {w : Watch}, s.watch? monitor = some w →
    s.stopMonitor monitor w = .ok s' → R s s'
  check : ∀ (s : Session) settings, R s (s.check settings).2
  logged : ∀ (s : Session) heapBytes hookOutcomes loads,
    R s { s with heapBytes, hookOutcomes, loads }

namespace HookClosed

theorem runHook (h : HookClosed R) (s : Session) (hook : Hook) : R s (s.runHook hook).2 := by
  cases hook with
  | evictAny =>
    have hevict := h.evictAny s
    rw [Session.runHook]
    generalize s.evictAny = evicted at hevict ⊢
    match evicted, hevict with
    | (.ok _, _), hevict => exact hevict
    | (.error _, _), hevict => exact hevict
  | stopMonitor =>
    rw [Session.runHook]
    split
    · exact h.refl s
    · next hcurrent =>
      split
      · next hstop => exact h.stop (watch?_of_currentWatch? hcurrent) hstop
      · exact h.refl s
  | check =>
    rw [Session.runHook]
    split
    · exact h.refl s
    · exact h.check s _
  | heap bytes => exact h.logged s bytes s.hookOutcomes s.loads
  | size => exact h.refl s

theorem runHooks (h : HookClosed R) (s : Session) (hooks : List Hook) : R s (s.runHooks hooks) := by
  unfold Session.runHooks
  induction hooks generalizing s with
  | nil => exact h.refl s
  | cons hook rest ih =>
    have hkept := h.logged (s.runHook hook).2 (s.runHook hook).2.heapBytes
      ((s.runHook hook).2.hookOutcomes ++ [(s.runHook hook).1]) (s.runHook hook).2.loads
    rw [List.foldl_cons]
    exact h.trans (h.trans (h.runHook s hook) hkept) (ih _)

/-- The session in which the report of a run is there, and what loading it came to. -/
theorem exists_loading (h : HookClosed R) (s : Session) (r : Run) :
    ∃ (loading : Session) (loaded : Loaded),
      R s loading ∧ s.completeLoad r = loading.deliver r loaded := by
  have hlogged := h.logged s s.heapBytes s.hookOutcomes (s.loads ++ [r.id])
  exact ⟨_, _, h.trans hlogged (h.runHooks _ _), rfl⟩

theorem and (h : HookClosed R) (h' : HookClosed R') : HookClosed fun s s' => R s s' ∧ R' s s' where
  refl s := ⟨h.refl s, h'.refl s⟩
  trans := fun ⟨h₁, h₁'⟩ ⟨h₂, h₂'⟩ => ⟨h.trans h₁ h₂, h'.trans h₁' h₂'⟩
  evictAny s := ⟨h.evictAny s, h'.evictAny s⟩
  stop hw hstop := ⟨h.stop hw hstop, h'.stop hw hstop⟩
  check s settings := ⟨h.check s settings, h'.check s settings⟩
  logged s _ _ _ := ⟨h.logged s _ _ _, h'.logged s _ _ _⟩

end HookClosed

end ResultSearch.Session
