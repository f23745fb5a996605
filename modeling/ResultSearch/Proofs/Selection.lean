import Mathlib.Data.List.Basic
import ResultSearch.Product

/-!
# The runs that a spec selects

The version of a spec counts by whole dotted components: `6` selects `6.1` and not `60.1`. A spec
that asks for less selects more runs: it may leave out the revision, some of the labels and the last
components of the version.

* `split_append_sep`, `split_prefix_iff`: the pieces of a text before a separator come first, and a
  text gives the first pieces of another one if with a separator at their ends it begins it.
* `matchesRun_iff`: the runs that a spec selects.
* `Narrows`: one spec asks for all that another one asks for.
-/

namespace ResultSearch

/-! ## Pieces that come first -/

namespace Text

variable {α : Type} {sep : α}

theorem join_cons {piece : List α} {pieces : List (List α)} (h : pieces ≠ []) :
    join sep (piece :: pieces) = piece ++ sep :: join sep pieces := by
  obtain ⟨next, rest, rfl⟩ := List.exists_cons_of_ne_nil h
  rfl

theorem join_append {xs ys : List (List α)} (hxs : xs ≠ []) (hys : ys ≠ []) :
    join sep (xs ++ ys) = join sep xs ++ sep :: join sep ys := by
  induction xs with
  | nil => exact absurd rfl hxs
  | cons x rest ih =>
    by_cases hrest : rest = []
    · rw [hrest, List.singleton_append, join_cons hys, join]
    · rw [List.cons_append, join_cons (List.append_ne_nil_of_left_ne_nil hrest ys), ih hrest,
        join_cons hrest, List.append_assoc, List.cons_append]

variable [DecidableEq α]

/-- The pieces of what comes before a separator come first, whatever they are. -/
theorem split_append_sep (l rest : List α) :
    split sep (l ++ sep :: rest) = split sep l ++ split sep rest := by
  induction l with
  | nil => exact split_append List.not_mem_nil rest
  | cons c l ih =>
    obtain ⟨first, pieces, hl⟩ := List.exists_cons_of_ne_nil (split_ne_nil sep l)
    rw [List.cons_append, split, ih, split, hl, List.cons_append]
    dsimp only
    split <;> rfl

/-- The pieces of one text are the first pieces of another one if, with a separator at the end of
both, it begins the other one. -/
theorem split_prefix_iff {a b : List α} :
    split sep a <+: split sep b ↔ a ++ [sep] <+: b ++ [sep] := by
  constructor
  · rintro ⟨rest, hrest⟩
    have hb : join sep (split sep a ++ rest) = b := by rw [hrest, join_split]
    by_cases hempty : rest = []
    · subst hempty
      rw [List.append_nil, join_split] at hb
      exact hb ▸ List.prefix_refl _
    · rw [join_append (split_ne_nil sep a) hempty, join_split] at hb
      exact ⟨join sep rest ++ [sep], by rw [← hb]; simp⟩
  · rintro ⟨rest, hrest⟩
    rcases List.eq_nil_or_concat rest with rfl | ⟨rest, c, rfl⟩
    · rw [List.append_nil] at hrest
      exact List.append_cancel_right hrest ▸ List.prefix_refl _
    · have hconcat : (a ++ sep :: rest) ++ [c] = b ++ [sep] := by rw [← hrest]; simp
      obtain ⟨hb, -⟩ := List.append_inj' hconcat rfl
      rw [← hb, split_append_sep]
      exact List.prefix_append _ _

end Text

/-! ## Selecting -/

namespace Product

/-- The dotted components of a version. -/
def components (version : String) : List (List Char) := Text.split '.' version.toList

theorem versionMatches_iff {wanted actual : String} :
    versionMatches wanted actual = true ↔ components wanted <+: components actual := by
  rw [versionMatches, Text.startsWith, List.isPrefixOf_iff_prefix, String.toList_append,
    String.toList_append, components, components, Text.split_prefix_iff]
  rfl

theorem matchesRun_iff {p : Product} {r : Run} : p.matchesRun r = true ↔
    r.browserName = p.browser ∧ (∀ rev ∈ p.revision, rev = r.revision) ∧
      (∀ l ∈ p.labels, l ∈ r.labels) ∧
      ∀ v ∈ p.version, components v <+: components r.browserVersion := by
  simp only [matchesRun, Bool.and_eq_true, decide_eq_true_eq, Option.all_eq_true, List.all_eq_true,
    Run.hasLabel, List.contains_iff_mem, versionMatches_iff, and_assoc]
  rfl

/-- One spec asks for all that another one asks for. -/
structure Narrows (p q : Product) : Prop where
  browser : q.browser = p.browser
  revision : q.revision = none ∨ q.revision = p.revision
  labels : q.labels ⊆ p.labels
  version : ∀ v ∈ q.version, ∃ w ∈ p.version, components v <+: components w

instance (p q : Product) : Decidable (Narrows p q) :=
  decidable_of_iff (q.browser = p.browser ∧ (q.revision = none ∨ q.revision = p.revision) ∧
      q.labels ⊆ p.labels ∧ ∀ v ∈ q.version, ∃ w ∈ p.version, components v <+: components w)
    ⟨fun ⟨h₁, h₂, h₃, h₄⟩ => ⟨h₁, h₂, h₃, h₄⟩,
      fun h => ⟨h.browser, h.revision, h.labels, h.version⟩⟩

theorem Narrows.matchesRun {p q : Product} (h : p.Narrows q) {r : Run}
    (hr : p.matchesRun r = true) : q.matchesRun r = true := by
  obtain ⟨hbrowser, hrevision, hlabels, hversion⟩ := matchesRun_iff.1 hr
  refine matchesRun_iff.2 ⟨hbrowser.trans h.browser.symm, fun rev hrev => ?_,
    fun l hl => hlabels l (h.labels hl), fun v hv => ?_⟩
  · rcases h.revision with hnone | hsame
    · rw [hnone] at hrev
      cases hrev
    · exact hrevision rev (hsame ▸ hrev)
  · obtain ⟨w, hw, hbegins⟩ := h.version v hv
    exact hbegins.trans (hversion w hw)

/-- A spec selects the runs of its browser with its revision, its labels and a version of which its
own has the first components; a spec that asks for less selects all of these runs too. -/
theorem selection_by_components (p q : Product) (r : Run) :
    (∀ v, p.version = some v → (versionMatches v r.browserVersion = true ↔
      components v <+: components r.browserVersion)) ∧
    (p.matchesRun r = true ↔ r.browserName = p.browser ∧
      (p.revision = none ∨ p.revision = some r.revision) ∧ (∀ l ∈ p.labels, l ∈ r.labels) ∧
      ∀ v ∈ p.version, components v <+: components r.browserVersion) ∧
    (p.Narrows q → p.matchesRun r = true → q.matchesRun r = true) := by
  refine ⟨fun _ _ => versionMatches_iff, ?_, fun h => h.matchesRun⟩
  rw [matchesRun_iff]
  refine and_congr_right' (and_congr_left' ?_)
  cases p.revision <;> simp

/-- A version with a word and another one with an empty component; less is asked for by leaving out
a label, the revision and the last component. -/
theorem selection_by_components_of_versions_with_words :
    let p : Product := ⟨"chrome", some "60.0.1 beta", some "linux", none, ["master", "stable"],
      some "0123456789"⟩
    let q : Product := ⟨"chrome", some "60.0", none, none, ["stable"], none⟩
    let r : Run := { Run.blank with
      browserName := "chrome", browserVersion := "60.0.1 beta..2", revision := "0123456789"
      labels := ["stable", "x", "master"] }
    p.version = some "60.0.1 beta" ∧ p.Narrows q ∧ p.matchesRun r = true ∧
      versionMatches "60.0.1 beta" r.browserVersion = true ∧ q.matchesRun r = true ∧
      ¬components "60.0.1" <+: components r.browserVersion := by
  intro p q r
  have hnarrows : p.Narrows q := by decide +kernel
  obtain ⟨hversion, hselects, hless⟩ := selection_by_components p q r
  have hfirst : components "60.0.1 beta" <+: components r.browserVersion := by decide +kernel
  have hp : p.matchesRun r = true :=
    hselects.2 ⟨rfl, by decide, by decide, fun v hv => Option.some.inj hv ▸ hfirst⟩
  exact ⟨rfl, hnarrows, hp, (hversion _ rfl).2 hfirst, hless hnarrows hp, by decide +kernel⟩

end Product

end ResultSearch
