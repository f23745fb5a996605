import Mathlib.Data.List.Infix
import ResultSearch.Text.LowerCase

/-!
# The lower case of a part

A text that stands in another one is in small letters there as it is by itself, but for its capital
sigmas: whether one is final depends on the first characters around it that are not ignorable, and
these may lie outside the text. A sigma is settled if they cannot make a difference.

* `sigmaContexts`: what stands around the capital sigmas of a text.
* `lowerFrom_append_congr`: around sigmas that are final in both or in neither, a text has one lower
  case in two places.
* `settledWithin_iff`: all sigmas of a text are settled exactly if its lower case stands in the lower
  case of every text that it stands in.
* `settledAtStart_iff`: the same for the beginnings of texts.
-/

namespace ResultSearch.Text

/-! ## Contexts -/

/-- Whether a capital sigma between two texts is final; `before` is given last character first. -/
def isFinal (before after : List Char) : Bool := startsCased before && !startsCased after

/-- What stands before each capital sigma of a text, last character first, and after it. The text
itself follows `before`. -/
def sigmaContexts (before : List Char) : List Char → List (List Char × List Char)
  | [] => []
  | c :: rest => (if c = sigma then [(before, rest)] else []) ++ sigmaContexts (c :: before) rest

/-- Whether some character of a text is not ignorable, so that a sigma sees nothing beyond. -/
def decisive (cs : List Char) : Bool :=
  cs.any fun c => !CaseTable.covers CaseTable.ignorable c.toNat

variable {cs rest : List Char}

theorem lowerFrom_sigma {before : List Char} : lowerFrom before (sigma :: rest) =
    (if isFinal before rest then 'ς' else 'σ') :: lowerFrom (sigma :: before) rest := by
  rw [lowerFrom, if_pos rfl, isFinal]
  rfl

theorem lowerFrom_cons_of_ne {before : List Char} {c : Char} (h : c ≠ sigma) :
    lowerFrom before (c :: rest) = smallLetters c ++ lowerFrom (c :: before) rest := by
  rw [lowerFrom, if_neg h]

theorem mem_sigmaContexts {before : List Char} {context : List Char × List Char} :
    context ∈ sigmaContexts before cs ↔ ∃ front, cs = front ++ sigma :: context.2 ∧
      context.1 = front.reverse ++ before := by
  induction cs generalizing before with
  | nil => simp [sigmaContexts]
  | cons c rest ih =>
    rw [sigmaContexts, List.mem_append, ih]
    constructor
    · rintro (hmem | ⟨front, hrest, hbefore⟩)
      · split at hmem
        · next hc =>
          obtain rfl := List.mem_singleton.1 hmem
          exact ⟨[], by rw [hc]; rfl, rfl⟩
        · cases hmem
      · exact ⟨c :: front, by rw [hrest]; rfl, by simp [hbefore]⟩
    · rintro ⟨front, hcs, hbefore⟩
      cases front with
      | nil =>
        obtain ⟨rfl, rfl⟩ := List.cons.inj hcs
        rw [if_pos rfl]
        exact .inl (List.mem_singleton.2 (Prod.ext hbefore rfl))
      | cons d front =>
        obtain ⟨rfl, hrest⟩ := List.cons.inj hcs
        exact .inr ⟨front, hrest, by simp [hbefore]⟩

theorem startsCased_cons {c : Char} : startsCased (c :: cs) =
    if CaseTable.covers CaseTable.ignorable c.toNat then startsCased cs
    else CaseTable.covers CaseTable.cased c.toNat := by
  by_cases hc : CaseTable.covers CaseTable.ignorable c.toNat = true
  · simp [startsCased, hc]
  · simp [startsCased, hc]

theorem startsCased_append_of_decisive (h : decisive cs = true) (rest : List Char) :
    startsCased (cs ++ rest) = startsCased cs := by
  induction cs with
  | nil => cases h
  | cons c cs ih =>
    rw [List.cons_append, startsCased_cons, startsCased_cons]
    rw [decisive, List.any_cons, Bool.or_eq_true] at h
    split
    · next hc => exact ih (h.resolve_left (by rw [hc]; decide))
    · rfl

theorem startsCased_append_of_not_decisive (h : decisive cs = false) (rest : List Char) :
    startsCased (cs ++ rest) = startsCased rest := by
  induction cs with
  | nil => rfl
  | cons c cs ih =>
    rw [decisive, List.any_cons, Bool.or_eq_false_iff, Bool.not_eq_false'] at h
    rw [List.cons_append, startsCased_cons, if_pos h.1, ih h.2]

theorem startsCased_of_not_decisive (h : decisive cs = false) : startsCased cs = false := by
  rw [← List.append_nil cs, startsCased_append_of_not_decisive h]
  rfl

theorem decisive_sigma_cons : decisive (sigma :: rest) = true := by
  have hsigma : CaseTable.covers CaseTable.ignorable sigma.toNat = false := by decide +kernel
  rw [decisive, List.any_cons, hsigma]
  rfl

theorem decisive_append_sigma (front : List Char) : decisive (front ++ sigma :: rest) = true := by
  rw [decisive, List.any_append, ← decisive, ← decisive, decisive_sigma_cons, Bool.or_true]

/-! ## Two places of a text -/

/-- Around sigmas that are final in both places or in neither, a text has one lower case; `near` is
what stands before it in both. -/
theorem lowerFrom_near_congr {near before before' rest rest' : List Char}
    (h : ∀ context ∈ sigmaContexts near cs, isFinal (context.1 ++ before) (context.2 ++ rest) =
      isFinal (context.1 ++ before') (context.2 ++ rest')) :
    ∃ lowered, lowerFrom (near ++ before) (cs ++ rest) =
        lowered ++ lowerFrom (cs.reverse ++ near ++ before) rest ∧
      lowerFrom (near ++ before') (cs ++ rest') =
        lowered ++ lowerFrom (cs.reverse ++ near ++ before') rest' := by
  induction cs generalizing near with
  | nil => exact ⟨[], rfl, rfl⟩
  | cons c cs ih =>
    obtain ⟨lowered, hlowered, hlowered'⟩ := ih fun context hcontext =>
      h context (List.mem_append_right _ hcontext)
    rw [List.cons_append] at hlowered hlowered'
    have hreverse : (c :: cs).reverse ++ near = cs.reverse ++ c :: near := by simp
    rw [hreverse, List.cons_append, List.cons_append]
    by_cases hc : c = sigma
    · subst hc
      have hfinal := h (near, cs) (by simp [sigmaContexts])
      refine ⟨(if isFinal (near ++ before) (cs ++ rest) then 'ς' else 'σ') :: lowered, ?_, ?_⟩
      · rw [lowerFrom_sigma, hlowered, List.cons_append]
      · rw [lowerFrom_sigma, hlowered', hfinal, List.cons_append]
    · refine ⟨smallLetters c ++ lowered, ?_, ?_⟩
      · rw [lowerFrom_cons_of_ne hc, hlowered, List.append_assoc (smallLetters c)]
      · rw [lowerFrom_cons_of_ne hc, hlowered', List.append_assoc (smallLetters c)]

theorem lowerFrom_append_congr (cs before before' rest rest' : List Char)
    (h : ∀ context ∈ sigmaContexts [] cs, isFinal (context.1 ++ before) (context.2 ++ rest) =
      isFinal (context.1 ++ before') (context.2 ++ rest')) :
    ∃ lowered, lowerFrom before (cs ++ rest) = lowered ++ lowerFrom (cs.reverse ++ before) rest ∧
      lowerFrom before' (cs ++ rest') = lowered ++ lowerFrom (cs.reverse ++ before') rest' := by
  obtain ⟨lowered, hlowered, hlowered'⟩ := lowerFrom_near_congr h
  rw [List.append_nil] at hlowered hlowered'
  exact ⟨lowered, hlowered, hlowered'⟩

/-! ## Settled sigmas -/

/-- Whatever stands around the text, each of its sigmas is final or not as it is in the text by
itself: it is not, if a cased letter comes next, and else the characters on either side tell. -/
def SettledWithin (cs : List Char) : Prop :=
  ∀ context ∈ sigmaContexts [] cs, startsCased context.2 = true ∨
    (decisive context.1 = true ∧ (startsCased context.1 = false ∨ decisive context.2 = true))

/-- Whatever follows the text, each of its sigmas is final or not as it is in the text by itself. -/
def SettledAtStart (cs : List Char) : Prop :=
  ∀ context ∈ sigmaContexts [] cs, startsCased context.1 = false ∨ decisive context.2 = true

instance : Decidable (SettledWithin cs) :=
  inferInstanceAs (Decidable (∀ context ∈ sigmaContexts [] cs, _))

instance : Decidable (SettledAtStart cs) :=
  inferInstanceAs (Decidable (∀ context ∈ sigmaContexts [] cs, _))

theorem decisive_of_startsCased (h : startsCased cs = true) : decisive cs = true := by
  by_contra hdecisive
  rw [Bool.not_eq_true] at hdecisive
  rw [startsCased_of_not_decisive hdecisive] at h
  cases h

theorem SettledWithin.isFinal_append (h : SettledWithin cs) {context : List Char × List Char}
    (hcontext : context ∈ sigmaContexts [] cs) (before rest : List Char) :
    isFinal (context.1 ++ before) (context.2 ++ rest) = isFinal context.1 context.2 := by
  rw [isFinal, isFinal]
  rcases h context hcontext with hcased | ⟨hdecisive, hlower | hafter⟩
  · rw [startsCased_append_of_decisive (decisive_of_startsCased hcased), hcased, Bool.not_true,
      Bool.and_false, Bool.and_false]
  · rw [startsCased_append_of_decisive hdecisive, hlower, Bool.false_and, Bool.false_and]
  · rw [startsCased_append_of_decisive hdecisive, startsCased_append_of_decisive hafter]

theorem SettledAtStart.isFinal_append (h : SettledAtStart cs) {context : List Char × List Char}
    (hcontext : context ∈ sigmaContexts [] cs) (rest : List Char) :
    isFinal context.1 (context.2 ++ rest) = isFinal context.1 context.2 := by
  rw [isFinal, isFinal]
  rcases h context hcontext with hlower | hafter
  · rw [hlower, Bool.false_and, Bool.false_and]
  · rw [startsCased_append_of_decisive hafter]

theorem SettledWithin.atStart (h : SettledWithin cs) : SettledAtStart cs := by
  intro context hcontext
  rcases h context hcontext with hcased | ⟨-, hlower | hafter⟩
  · exact .inr (decisive_of_startsCased hcased)
  · exact .inl hlower
  · exact .inr hafter

theorem settledWithin_of_no_sigma (h : sigma ∉ cs) : SettledWithin cs := by
  intro context hcontext
  obtain ⟨front, rfl, -⟩ := mem_sigmaContexts.1 hcontext
  exact absurd (List.mem_append_right _ List.mem_cons_self) h

/-! ## What is kept -/

theorem SettledWithin.lower_infix (h : SettledWithin cs) {whole : List Char}
    (hwhole : cs <:+: whole) : lowerFrom [] cs <:+: lowerFrom [] whole := by
  obtain ⟨front, back, rfl⟩ := hwhole
  -- What stands in front has some lower case, which is the same in both.
  obtain ⟨start, hstart, -⟩ := lowerFrom_append_congr front [] [] (cs ++ back) (cs ++ back)
    fun _ _ => rfl
  obtain ⟨lowered, hwhole, hcs⟩ := lowerFrom_append_congr cs front.reverse [] back []
    fun context hcontext => by
      rw [h.isFinal_append hcontext, List.append_nil, List.append_nil]
  rw [List.append_nil, lowerFrom, List.append_nil] at hcs
  rw [List.append_nil] at hstart
  rw [List.append_assoc, hstart, hcs, hwhole]
  exact ⟨start, _, List.append_assoc _ _ _⟩

theorem SettledAtStart.lower_prefix (h : SettledAtStart cs) {whole : List Char}
    (hwhole : cs <+: whole) : lowerFrom [] cs <+: lowerFrom [] whole := by
  obtain ⟨back, rfl⟩ := hwhole
  obtain ⟨lowered, hwhole, hcs⟩ := lowerFrom_append_congr cs [] [] back []
    fun context hcontext => by
      rw [List.append_nil, List.append_nil, h.isFinal_append hcontext]
  rw [List.append_nil, lowerFrom, List.append_nil] at hcs
  rw [hcs, hwhole]
  exact List.prefix_append _ _

/-! ## What is lost -/

section Lost

variable {α : Type} {a s s' : α} {x y z : List α}

/-- A list that differs from another one in one place does not begin it one place later. -/
theorem not_prefix_of_ne (ha : s ≠ a) : ¬x ++ s :: y <+: a :: (x ++ s' :: z) := by
  induction x generalizing a with
  | nil => exact fun h => ha (List.cons_prefix_cons.1 h).1
  | cons c x ih =>
    intro h
    obtain ⟨hc, h⟩ := List.cons_prefix_cons.1 h
    exact ih (hc ▸ ha) h

/-- Nor does it stand anywhere in it with one more element in front. -/
theorem not_infix_of_ne (hs : s ≠ s') (ha : s ≠ a) (hlength : y.length = z.length) :
    ¬x ++ s :: y <:+: a :: (x ++ s' :: z) := by
  intro h
  rcases List.infix_cons_iff.1 h with h | h
  · exact not_prefix_of_ne ha h
  · have heq : x ++ s :: y = x ++ s' :: z := h.eq_of_length (by simp [hlength])
    exact hs (List.cons.inj (List.append_cancel_left heq)).1

/-- Nor with one more element at the end. -/
theorem not_infix_concat_of_ne (hs : s ≠ s') (ha : s ≠ a) :
    ¬x ++ s :: y <:+: x ++ s' :: (y ++ [a]) := by
  intro h
  have hreverse : y.reverse ++ s :: x.reverse <:+: a :: (y.reverse ++ s' :: x.reverse) := by
    simpa using List.reverse_infix.2 h
  exact not_infix_of_ne hs ha rfl hreverse

end Lost

theorem length_lowerFrom (before before' : List Char) :
    (lowerFrom before cs).length = (lowerFrom before' cs).length := by
  induction cs generalizing before before' with
  | nil => rfl
  | cons c cs ih =>
    by_cases hc : c = sigma
    · rw [hc, lowerFrom_sigma, lowerFrom_sigma, List.length_cons, List.length_cons, ih]
    · rw [lowerFrom_cons_of_ne hc, lowerFrom_cons_of_ne hc, List.length_append, List.length_append,
        ih]

theorem sigmaContexts_of_not_decisive {before : List Char} (h : decisive cs = false)
    {context : List Char × List Char} : context ∉ sigmaContexts before cs := by
  intro hcontext
  obtain ⟨front, rfl, -⟩ := mem_sigmaContexts.1 hcontext
  rw [decisive_append_sigma] at h
  cases h

/-- A cased letter after the text makes a final sigma at its end a plain one. -/
theorem lower_append_letter {front after : List Char} (hfront : startsCased front.reverse = true)
    (hafter : decisive after = false) : ∃ x y,
      lowerFrom [] (front ++ sigma :: after) = x ++ 'ς' :: y ∧
      lowerFrom [] (front ++ sigma :: after ++ ['A']) = x ++ 'σ' :: (y ++ ['a']) := by
  have hletter : startsCased ['A'] = true ∧ ∀ before, lowerFrom before ['A'] = ['a'] :=
    ⟨by decide +kernel, fun _ => rfl⟩
  have hfinal : isFinal front.reverse after = true := by
    rw [isFinal, hfront, startsCased_of_not_decisive hafter]
    rfl
  have hplain : isFinal front.reverse (after ++ ['A']) = false := by
    rw [isFinal, startsCased_append_of_not_decisive hafter, hletter.1, Bool.not_true, Bool.and_false]
  -- The sigmas before this one see it, and nothing of what comes after it.
  obtain ⟨x, hx, hx'⟩ := lowerFrom_append_congr front [] [] (sigma :: after)
    (sigma :: (after ++ ['A'])) fun context _ => by
      rw [← List.cons_append, ← List.append_assoc, isFinal, isFinal,
        startsCased_append_of_decisive (decisive_append_sigma context.2)]
  obtain ⟨y, hy, hy'⟩ := lowerFrom_append_congr after (sigma :: front.reverse)
    (sigma :: front.reverse) [] ['A'] fun context hcontext =>
      absurd hcontext (sigmaContexts_of_not_decisive hafter)
  rw [List.append_nil] at hx hx'
  rw [List.append_nil, lowerFrom, List.append_nil] at hy
  refine ⟨x, y, ?_, ?_⟩
  · rw [hx, lowerFrom_sigma, hfinal, if_pos rfl, hy]
  · rw [List.append_assoc, List.cons_append, hx', lowerFrom_sigma, hplain, hy', hletter.2]
    rfl

/-- A cased letter before the text makes a plain sigma at its beginning a final one. -/
theorem lower_cons_letter {front after : List Char} (hfront : decisive front = false)
    (hafter : startsCased after = false) : ∃ x y z, y.length = z.length ∧
      lowerFrom [] (front ++ sigma :: after) = x ++ 'σ' :: y ∧
      lowerFrom [] ('A' :: (front ++ sigma :: after)) = 'a' :: (x ++ 'ς' :: z) := by
  have hletter : startsCased ['A'] = true ∧
      ∀ rest, lowerFrom [] ('A' :: rest) = 'a' :: lowerFrom ['A'] rest :=
    ⟨by decide +kernel, fun _ => rfl⟩
  have hreverse : decisive front.reverse = false := by
    rw [decisive, List.any_reverse]
    exact hfront
  have hplain : isFinal front.reverse after = false := by
    rw [isFinal, startsCased_of_not_decisive hreverse, Bool.false_and]
  have hfinal : isFinal (front.reverse ++ ['A']) after = true := by
    rw [isFinal, startsCased_append_of_not_decisive hreverse, hletter.1, hafter]
    rfl
  obtain ⟨x, hx, hx'⟩ := lowerFrom_append_congr front [] ['A'] (sigma :: after) (sigma :: after)
    fun context hcontext => absurd hcontext (sigmaContexts_of_not_decisive hfront)
  rw [List.append_nil] at hx
  rw [lowerFrom_sigma, hplain, if_neg Bool.false_ne_true] at hx
  rw [lowerFrom_sigma, hfinal, if_pos rfl] at hx'
  exact ⟨x, _, _, length_lowerFrom _ _, hx, by rw [hletter.2, hx']⟩

theorem settledAtStart_iff : SettledAtStart cs ↔
    ∀ whole, cs <+: whole → lowerFrom [] cs <+: lowerFrom [] whole := by
  refine ⟨fun h whole => h.lower_prefix, fun h context hcontext => ?_⟩
  obtain ⟨front, hcs, hfront⟩ := mem_sigmaContexts.1 hcontext
  rw [List.append_nil] at hfront
  by_contra hunsettled
  rw [not_or, Bool.not_eq_false, Bool.not_eq_true, hfront] at hunsettled
  obtain ⟨x, y, hlower, hwhole⟩ := lower_append_letter hunsettled.1 hunsettled.2
  have hbegins := h (cs ++ ['A']) (List.prefix_append _ _)
  rw [hcs, hlower, hwhole, List.prefix_append_right_inj, List.cons_prefix_cons] at hbegins
  exact absurd hbegins.1 (by decide)

theorem settledWithin_iff : SettledWithin cs ↔
    ∀ whole, cs <:+: whole → lowerFrom [] cs <:+: lowerFrom [] whole := by
  refine ⟨fun h whole => h.lower_infix, fun h context hcontext => ?_⟩
  obtain ⟨front, hcs, hfront⟩ := mem_sigmaContexts.1 hcontext
  rw [List.append_nil] at hfront
  by_contra hunsettled
  obtain ⟨hnext, hnear⟩ := not_or.1 hunsettled
  rw [Bool.not_eq_true] at hnext
  by_cases hdecisive : decisive context.1 = true
  · obtain ⟨hcased, hafter⟩ := not_or.1 fun hor => hnear ⟨hdecisive, hor⟩
    rw [Bool.not_eq_false, hfront] at hcased
    rw [Bool.not_eq_true] at hafter
    obtain ⟨x, y, hlower, hwhole⟩ := lower_append_letter hcased hafter
    have hinfix := h (cs ++ ['A']) (List.prefix_append _ _).isInfix
    rw [hcs, hlower, hwhole] at hinfix
    exact not_infix_concat_of_ne (by decide) (by decide) hinfix
  · rw [Bool.not_eq_true, hfront, decisive, List.any_reverse] at hdecisive
    obtain ⟨x, y, z, hlength, hlower, hwhole⟩ := lower_cons_letter hdecisive hnext
    have hinfix := h ('A' :: cs) (List.suffix_cons _ _).isInfix
    rw [hcs, hlower, hwhole] at hinfix
    exact not_infix_of_ne (by decide) (by decide) hlength hinfix

end ResultSearch.Text
