/-!
# Cutting texts

`split` cuts a list at every occurrence of a separator and `join` puts the pieces back;
`cutAt` cuts at the first occurrence only.

* `join_split`: the pieces, joined, are the list again.
* `split_join`: pieces without separators, joined, are cut into the same pieces.
* `cutAt_append`, `dropLast?_concat`: what was put around a separator or before a last character.
-/

namespace ResultSearch.Text

variable {α : Type} [DecidableEq α]

/-- The pieces between the separators; always at least one. -/
def split (sep : α) : List α → List (List α)
  | [] => [[]]
  | c :: rest =>
    match split sep rest with
    | [] => [[c]]
    | piece :: pieces => if c = sep then [] :: piece :: pieces else (c :: piece) :: pieces

/-- The pieces with a separator between each two. -/
def join (sep : α) : List (List α) → List α
  | [] => []
  | [piece] => piece
  | piece :: pieces => piece ++ sep :: join sep pieces

/-- What comes before and after the first separator, if there is one. -/
def cutAt (sep : α) : List α → Option (List α × List α)
  | [] => none
  | c :: rest =>
    if c = sep then some ([], rest) else (cutAt sep rest).map fun p => (c :: p.1, p.2)

theorem split_ne_nil (sep : α) (l : List α) : split sep l ≠ [] := by
  cases l with
  | nil => simp [split]
  | cons c rest =>
    rw [split]
    split
    · simp
    · split <;> simp

theorem join_split (sep : α) (l : List α) : join sep (split sep l) = l := by
  induction l with
  | nil => rfl
  | cons c rest ih =>
    rw [split]
    split
    · next h => exact absurd h (split_ne_nil sep rest)
    · next piece pieces h =>
      rw [h] at ih
      by_cases hc : c = sep
      · simp [hc, join, ih]
      · cases pieces with
        | nil => simpa [hc, join] using ih
        | cons p ps => simpa [hc, join] using ih

/-- Whether the list ends in `c`, and what comes before it. -/
def dropLast? (c : α) (l : List α) : Option (List α) :=
  if l.getLast? = some c then some l.dropLast else none

theorem not_mem_of_mem_split {sep : α} {l piece : List α} (h : piece ∈ split sep l) :
    sep ∉ piece := by
  induction l generalizing piece with
  | nil =>
    obtain rfl := List.mem_singleton.1 h
    exact List.not_mem_nil
  | cons c rest ih =>
    rw [split] at h
    split at h
    · next hnil => exact absurd hnil (split_ne_nil sep rest)
    · next first pieces hsplit =>
      have hfirst : sep ∉ first := ih (hsplit ▸ List.mem_cons_self)
      split at h
      · rcases List.mem_cons.1 h with rfl | h
        · exact List.not_mem_nil
        · exact ih (hsplit ▸ h)
      · next hc =>
        rcases List.mem_cons.1 h with rfl | h
        · exact List.not_mem_cons_of_ne_of_not_mem (Ne.symm hc) hfirst
        · exact ih (hsplit ▸ List.mem_cons_of_mem _ h)

theorem subset_of_mem_split {sep : α} {l piece : List α} (h : piece ∈ split sep l) :
    piece ⊆ l := by
  induction l generalizing piece with
  | nil =>
    obtain rfl := List.mem_singleton.1 h
    exact List.nil_subset _
  | cons c rest ih =>
    rw [split] at h
    split at h
    · next hnil => exact absurd hnil (split_ne_nil sep rest)
    · next first pieces hsplit =>
      have hfirst : first ⊆ rest := ih (hsplit ▸ List.mem_cons_self)
      split at h
      · rcases List.mem_cons.1 h with rfl | h
        · exact List.nil_subset _
        · exact List.subset_cons_of_subset _ (ih (hsplit ▸ h))
      · rcases List.mem_cons.1 h with rfl | h
        · exact List.cons_subset_cons _ hfirst
        · exact List.subset_cons_of_subset _ (ih (hsplit ▸ List.mem_cons_of_mem _ h))

theorem split_of_not_mem {sep : α} {l : List α} (h : sep ∉ l) : split sep l = [l] := by
  induction l with
  | nil => rfl
  | cons c rest ih =>
    obtain ⟨hc, hrest⟩ := List.ne_and_not_mem_of_not_mem_cons h
    rw [split, ih hrest]
    exact if_neg hc.symm

theorem split_append {sep : α} {l : List α} (h : sep ∉ l) (rest : List α) :
    split sep (l ++ sep :: rest) = l :: split sep rest := by
  induction l with
  | nil =>
    rw [List.nil_append, split]
    split
    · next hnil => exact absurd hnil (split_ne_nil sep rest)
    · next hsplit => rw [if_pos rfl, hsplit]
  | cons c l ih =>
    obtain ⟨hc, hl⟩ := List.ne_and_not_mem_of_not_mem_cons h
    rw [List.cons_append, split, ih hl]
    exact if_neg hc.symm

theorem split_join {sep : α} {pieces : List (List α)} (hne : pieces ≠ [])
    (h : ∀ piece ∈ pieces, sep ∉ piece) : split sep (join sep pieces) = pieces := by
  induction pieces with
  | nil => exact absurd rfl hne
  | cons piece rest ih =>
    have hpiece : sep ∉ piece := h piece List.mem_cons_self
    cases rest with
    | nil => exact split_of_not_mem hpiece
    | cons next rest =>
      rw [join, split_append hpiece, ih (List.cons_ne_nil _ _) fun p hp =>
        h p (List.mem_cons_of_mem _ hp)]
      exact List.cons_ne_nil _ _

omit [DecidableEq α] in
theorem mem_join {sep c : α} {pieces : List (List α)} (h : c ∈ join sep pieces) :
    c = sep ∨ ∃ piece ∈ pieces, c ∈ piece := by
  induction pieces with
  | nil => cases h
  | cons piece rest ih =>
    cases rest with
    | nil => exact .inr ⟨piece, List.mem_cons_self, h⟩
    | cons next rest =>
      rw [join, List.mem_append, List.mem_cons] at h
      rcases h with h | rfl | h
      · exact .inr ⟨piece, List.mem_cons_self, h⟩
      · exact .inl rfl
      · exact (ih h).imp_right fun ⟨p, hp, hc⟩ => ⟨p, List.mem_cons_of_mem _ hp, hc⟩
      · exact List.cons_ne_nil _ _

theorem cutAt_of_not_mem {sep : α} {l : List α} (h : sep ∉ l) : cutAt sep l = none := by
  induction l with
  | nil => rfl
  | cons c rest ih =>
    obtain ⟨hc, hrest⟩ := List.ne_and_not_mem_of_not_mem_cons h
    rw [cutAt, if_neg hc.symm, ih hrest]
    rfl

theorem cutAt_append {sep : α} {l : List α} (h : sep ∉ l) (rest : List α) :
    cutAt sep (l ++ sep :: rest) = some (l, rest) := by
  induction l with
  | nil => exact if_pos rfl
  | cons c l ih =>
    obtain ⟨hc, hl⟩ := List.ne_and_not_mem_of_not_mem_cons h
    rw [List.cons_append, cutAt, if_neg hc.symm, ih hl]
    rfl

/-- A list has a separator just if it can be cut there. -/
theorem cutAt_cases (sep : α) (l : List α) :
    (sep ∉ l ∧ cutAt sep l = none) ∨
      ∃ before rest, sep ∉ before ∧ l = before ++ sep :: rest ∧
        cutAt sep l = some (before, rest) := by
  by_cases h : sep ∈ l
  · obtain ⟨before, rest, hl, hbefore⟩ := List.eq_append_cons_of_mem h
    exact .inr ⟨before, rest, hbefore, hl, hl ▸ cutAt_append hbefore rest⟩
  · exact .inl ⟨h, cutAt_of_not_mem h⟩

theorem dropLast?_concat (c : α) (l : List α) : dropLast? c (l ++ [c]) = some l := by
  simp [dropLast?]

theorem eq_concat_of_dropLast? {c : α} {l before : List α} (h : dropLast? c l = some before) :
    l = before ++ [c] := by
  unfold dropLast? at h
  split at h
  · next hlast =>
    obtain ⟨rest, rfl⟩ := List.getLast?_eq_some_iff.1 hlast
    obtain rfl := Option.some.inj h
    rw [List.dropLast_concat]
  · cases h

/-- A list without the `c`s at its end. -/
def trimEnd (c : α) (l : List α) : List α := (l.reverse.dropWhile (· = c)).reverse

end ResultSearch.Text
