import ResultSearch.Proofs.Tallies

/-!
# What a difference counts

A match that goes from one status in the first run to another in the second is added, deleted or
changed, or none of these. A difference counts the matches of a test for which the filter selects
what happened to them. Each counter moves in one direction only, so a difference that comes to
nothing is one to which no match has contributed.

* `Status.Added`, `Deleted`, `Changed`, `DiffFilter.Selects`: what happens to a match, and which of
  it a filter selects.
* `DiffFilter.tally`: the three numbers of the selected changes of some matches.
* `triple_difference`: the counters of a row, if they do not overflow.
* `isEmpty_difference_iff`: nothing is counted exactly if nothing is selected.
* `tally_eq_letters`: a filter counts what its letters count alone.
* `differences_of_found`: all of it over the rows of some matches.
-/

namespace ResultSearch

namespace Status

/-- There is a result after and none before. -/
def Added (before after : Status) : Prop := before = .unknown ∧ after ≠ .unknown

/-- There is a result before and none after. -/
def Deleted (before after : Status) : Prop := before ≠ .unknown ∧ after = .unknown

/-- There are results before and after, and exactly one of them passes. -/
def Changed (before after : Status) : Prop :=
  before ≠ .unknown ∧ after ≠ .unknown ∧ before.passes ≠ after.passes

instance (before after : Status) : Decidable (Added before after) :=
  inferInstanceAs (Decidable (_ ∧ _))

instance (before after : Status) : Decidable (Deleted before after) :=
  inferInstanceAs (Decidable (_ ∧ _))

instance (before after : Status) : Decidable (Changed before after) :=
  inferInstanceAs (Decidable (_ ∧ _))

end Status

/-- How many matches go from a status in the first run to a status in the second in a way `p`. -/
def moves (first second : RunResults) (group : List (Fingerprint × TestName))
    (p : Status → Status → Bool) : Nat :=
  group.countP fun e => p (first.get e.1) (second.get e.1)

namespace DiffFilter

/-- What happens to a match is selected. -/
def Selects (filter : DiffFilter) (before after : Status) : Prop :=
  filter.added = true ∧ before.Added after ∨ filter.deleted = true ∧ before.Deleted after ∨
    filter.changed = true ∧ before.Changed after

instance (filter : DiffFilter) (before after : Status) : Decidable (filter.Selects before after) :=
  inferInstanceAs (Decidable (_ ∨ _))

/-- The selected changes of some matches: how many pass now, how many are new or have passed and do
not pass now, and, as a number below zero, how many are deleted. -/
def tally (filter : DiffFilter) (first second : RunResults)
    (group : List (Fingerprint × TestName)) : Int × Int × Int :=
  let number (selected : Bool) (p : Status → Status → Bool) : Nat :=
    if selected then moves first second group p else 0
  (↑(number filter.added (fun before after => before.Added after ∧ after.passes) +
      number filter.changed fun before after => before.Changed after ∧ after.passes),
    ↑(number filter.added (fun before after => before.Added after ∧ ¬after.passes) +
      number filter.changed fun before after => before.Changed after ∧ before.passes),
    -↑(number filter.deleted fun before after => before.Deleted after))

end DiffFilter

variable {first second : RunResults} {group : List (Fingerprint × TestName)}

/-! ## Counting moves -/

theorem countP_changes_toMatch {p : Status → Status → Bool} :
    (group.map (Aggregation.toMatch [first, second])).countP (Match.changes p) =
      moves first second group p := by
  rw [List.countP_map]
  rfl

theorem moves_eq_zero_iff {p : Status → Status → Bool} :
    moves first second group p = 0 ↔ ∀ e ∈ group, ¬p (first.get e.1) (second.get e.1) :=
  List.countP_eq_zero

/-- Moves that are counted under a condition. -/
theorem moves_and {selected : Bool} {p : Status → Status → Bool} :
    (moves first second group fun before after => selected && p before after) =
      if selected then moves first second group p else 0 := by
  cases selected
  · exact moves_eq_zero_iff.2 fun _ _ => Bool.false_ne_true
  · rfl

/-- Moves in one of two ways that exclude each other. -/
theorem moves_or {p q : Status → Status → Bool}
    (h : ∀ before after, ¬(p before after ∧ q before after)) :
    (moves first second group fun before after => p before after || q before after) =
      moves first second group p + moves first second group q := by
  rw [moves, moves, moves]
  induction group with
  | nil => rfl
  | cons e rest ih =>
    have hexclude := h (first.get e.1) (second.get e.1)
    rw [List.countP_cons, List.countP_cons, List.countP_cons, ih]
    cases hp : p (first.get e.1) (second.get e.1) <;>
      cases hq : q (first.get e.1) (second.get e.1) <;> simp_all <;> omega

namespace DiffFilter

variable {filter : DiffFilter} {before after : Status}

@[simp] theorem passes_unknown : Status.unknown.passes = false := rfl

theorem gains_eq : filter.gains before after =
    (filter.added && decide (before.Added after ∧ after.passes) ||
      filter.changed && decide (before.Changed after ∧ after.passes)) := by
  rw [Bool.eq_iff_iff]
  by_cases hb : before = .unknown <;> by_cases ha : after = .unknown <;>
    cases hp : after.passes <;> cases hq : before.passes <;>
    simp_all [gains, Status.Added, Status.Changed]

theorem loses_eq : filter.loses before after =
    (filter.added && decide (before.Added after ∧ ¬after.passes) ||
      filter.changed && decide (before.Changed after ∧ before.passes)) := by
  rw [Bool.eq_iff_iff]
  by_cases hb : before = .unknown <;> by_cases ha : after = .unknown <;>
    cases hp : after.passes <;> cases hq : before.passes <;>
    simp_all [loses, Status.Added, Status.Changed]

theorem drops_eq :
    filter.drops before after = (filter.deleted && decide (before.Deleted after)) := by
  rw [Bool.eq_iff_iff]
  by_cases hb : before = .unknown <;> by_cases ha : after = .unknown <;>
    simp [drops, Status.Deleted, hb, ha]

/-- What is selected is counted in one of the three numbers. -/
theorem selects_iff : filter.Selects before after ↔
    filter.gains before after ∨ filter.loses before after ∨ filter.drops before after := by
  rw [gains_eq, loses_eq, drops_eq, Selects]
  by_cases hb : before = .unknown <;> by_cases ha : after = .unknown <;>
    cases hp : after.passes <;> cases hq : before.passes <;>
    simp_all [Status.Added, Status.Deleted, Status.Changed]

theorem not_added_and_changed : ¬(before.Added after ∧ before.Changed after) :=
  fun ⟨hadded, hchanged⟩ => hchanged.1 hadded.1

theorem tally_eq : filter.tally first second group =
    ((moves first second group filter.gains : Int), (moves first second group filter.loses : Int),
      -(moves first second group filter.drops : Int)) := by
  have hgains : filter.gains = fun before after =>
      filter.added && decide (before.Added after ∧ after.passes) ||
        filter.changed && decide (before.Changed after ∧ after.passes) :=
    funext₂ fun _ _ => gains_eq
  have hloses : filter.loses = fun before after =>
      filter.added && decide (before.Added after ∧ ¬after.passes) ||
        filter.changed && decide (before.Changed after ∧ before.passes) :=
    funext₂ fun _ _ => loses_eq
  have hdrops : filter.drops = fun before after =>
      filter.deleted && decide (before.Deleted after) :=
    funext₂ fun _ _ => drops_eq
  rw [hgains, hloses, hdrops, moves_or, moves_or, moves_and, moves_and, moves_and, moves_and,
    moves_and, tally]
  all_goals
    intro before after
    simp only [Bool.and_eq_true, decide_eq_true_eq]
    exact fun ⟨⟨_, hadded, _⟩, _, hchanged, _⟩ => not_added_and_changed ⟨hadded, hchanged⟩

end DiffFilter

/-! ## Counters -/

namespace RowDiff

/-- The three counters as numbers without bound. -/
def triple (d : RowDiff) : Int × Int × Int :=
  (d.newlyPassing.toInt, d.regressions.toInt, d.totalDelta.toInt)

theorem isEmpty_iff {d : RowDiff} : d.isEmpty = true ↔ d.triple = 0 := by
  obtain ⟨newlyPassing, regressions, totalDelta⟩ := d
  simp [isEmpty, zero, triple, Prod.ext_iff, ← Int32.toInt_inj]

end RowDiff

/-- A number that a counter can hold. -/
def Countable (n : Int) : Prop := -2 ^ 31 ≤ n ∧ n < 2 ^ 31

namespace DiffFilter

variable {filter : DiffFilter}

/-- No counter overflows over the selected changes. -/
def Fits (filter : DiffFilter) (first second : RunResults)
    (group : List (Fingerprint × TestName)) : Prop :=
  let t := filter.tally first second group
  Countable t.1 ∧ Countable t.2.1 ∧ Countable t.2.2

theorem triple_difference (hfits : filter.Fits first second group) :
    (Row.difference filter (group.map (Aggregation.toMatch [first, second]))).triple =
      filter.tally first second group := by
  rw [Fits, tally_eq] at hfits
  obtain ⟨⟨-, hgains⟩, ⟨-, hloses⟩, hdrops, -⟩ := hfits
  rw [tally_eq, RowDiff.triple, Row.difference, countP_changes_toMatch, countP_changes_toMatch,
    countP_changes_toMatch]
  dsimp only at hgains hloses hdrops ⊢
  rw [Int32.toInt_ofNat_of_lt (by omega), Int32.toInt_ofNat_of_lt (by omega),
    ← Int32.ofInt_eq_ofNat, Int32.neg_ofInt, Int32.toInt_ofInt_of_le hdrops (by omega)]

theorem tally_eq_zero_iff : filter.tally first second group = 0 ↔
    ∀ e ∈ group, ¬filter.Selects (first.get e.1) (second.get e.1) := by
  rw [tally_eq, Prod.ext_iff, Prod.ext_iff]
  simp only [Prod.fst_zero, Prod.snd_zero, Int.neg_eq_zero, Int.natCast_eq_zero, moves_eq_zero_iff,
    selects_iff, not_or, ← forall₂_and]

/-- Nothing is counted exactly if nothing is selected. -/
theorem isEmpty_difference_iff (hfits : filter.Fits first second group) :
    (Row.difference filter (group.map (Aggregation.toMatch [first, second]))).isEmpty = true ↔
      ∀ e ∈ group, ¬filter.Selects (first.get e.1) (second.get e.1) := by
  rw [RowDiff.isEmpty_iff, triple_difference hfits, tally_eq_zero_iff]

/-! ## Letters -/

/-- The filter of the letter `A`. -/
def onlyAdded : DiffFilter := { nothing with added := true }

/-- The filter of the letter `D`. -/
def onlyDeleted : DiffFilter := { nothing with deleted := true }

/-- The filter of the letter `C`. -/
def onlyChanged : DiffFilter := { nothing with changed := true }

/-- The letters `A`, `D` and `C` that a filter selects, each alone. -/
def letters (filter : DiffFilter) : List DiffFilter :=
  (if filter.added then [onlyAdded] else []) ++ (if filter.deleted then [onlyDeleted] else []) ++
    if filter.changed then [onlyChanged] else []

theorem tally_eq_letters : filter.tally first second group =
    (filter.letters.map fun letter => letter.tally first second group).sum := by
  obtain ⟨added, deleted, changed, unchanged⟩ := filter
  cases added <;> cases deleted <;> cases changed <;>
    simp [letters, tally, onlyAdded, onlyDeleted, onlyChanged, nothing, Prod.ext_iff]

theorem mem_letters {letter : DiffFilter} : letter ∈ filter.letters ↔
    filter.added = true ∧ letter = onlyAdded ∨ filter.deleted = true ∧ letter = onlyDeleted ∨
      filter.changed = true ∧ letter = onlyChanged := by
  obtain ⟨added, deleted, changed, unchanged⟩ := filter
  cases added <;> cases deleted <;> cases changed <;> simp [letters]

/-- A filter that selects less counts less. -/
theorem Fits.mono {weaker : DiffFilter} (hfits : filter.Fits first second group)
    (hadded : weaker.added = true → filter.added = true)
    (hdeleted : weaker.deleted = true → filter.deleted = true)
    (hchanged : weaker.changed = true → filter.changed = true) :
    weaker.Fits first second group := by
  have hle {a b : Bool} (h : a = true → b = true) (p : Status → Status → Bool) :
      (if a then moves first second group p else 0) ≤
        if b then moves first second group p else 0 := by
    cases a <;> cases b <;> simp_all
  have hadded := hle hadded
  have hdeleted := hle hdeleted
  have hchanged := hle hchanged
  have haddedPasses := hadded fun before after => before.Added after ∧ after.passes
  have haddedFails := hadded fun before after => before.Added after ∧ ¬after.passes
  have hgone := hdeleted fun before after => before.Deleted after
  have hmended := hchanged fun before after => before.Changed after ∧ after.passes
  have hbroken := hchanged fun before after => before.Changed after ∧ before.passes
  dsimp only [Fits, tally, Countable] at hfits ⊢
  omega

theorem Fits.letter (hfits : filter.Fits first second group) {letter : DiffFilter}
    (h : letter ∈ filter.letters) : letter.Fits first second group := by
  rcases mem_letters.1 h with ⟨hselected, rfl⟩ | ⟨hselected, rfl⟩ | ⟨hselected, rfl⟩ <;>
    apply hfits.mono <;> simp [hselected, onlyAdded, onlyDeleted, onlyChanged, nothing]

/-- Few matches do not make a counter overflow. -/
theorem fits_of_length_lt (h : group.length < 2 ^ 31) : filter.Fits first second group := by
  have hle (p : Status → Status → Bool) : moves first second group p ≤ group.length :=
    List.countP_le_length
  have hgains := hle filter.gains
  have hloses := hle filter.loses
  have hdrops := hle filter.drops
  rw [Fits, tally_eq]
  dsimp only [Countable]
  omega

end DiffFilter

namespace Aggregation

variable {options : RowOptions} {columns : List RunResults}
  {found : List (Fingerprint × TestName)} {hash : UInt64}

/-! ## Rows -/

/-- The three numbers of the difference that is answered for a hash under a filter, nothing where
there is no difference. -/
def differenceUnder (options : RowOptions) (columns : List RunResults)
    (found : List (Fingerprint × TestName)) (hash : UInt64) (filter : DiffFilter) :
    Int × Int × Int :=
  ((answered { options with diffFilter := filter } columns found hash).bind Row.diff).elim 0
    RowDiff.triple

theorem mem_finish_iff {row : Row} : row ∈ (gather options columns found).finish options ↔
    ∃ hash, answered options columns found hash = some row := by
  rw [finish_perm_answered.mem_iff, List.mem_filterMap]
  constructor
  · rintro ⟨hash, -, hrow⟩
    exact ⟨hash, hrow⟩
  · rintro ⟨hash, hrow⟩
    obtain ⟨e, he, rfl⟩ := (exists_answered_iff options columns).1 ⟨row, hrow⟩
    exact ⟨e.1.test, List.mem_dedup.2 (List.mem_map_of_mem he), hrow⟩

/-- The difference of a row is that of its matches, where there is one. -/
theorem diff_of_answered {row : Row} (h : answered options columns found hash = some row) :
    row.diff =
      let d := Row.difference options.diffFilter
        ((found.filter fun e => e.1.test = hash).map (toMatch columns))
      if options.includeDiff && columns.length = 2 &&
          (options.diffFilter.unchanged || !d.isEmpty) then
        some d
      else none := by
  rw [answered_eq] at h
  obtain ⟨e, -, rfl⟩ := Option.map_eq_some_iff.1 h
  rfl

theorem diff_eq_none_iff {first second : RunResults} {row : Row}
    (h : answered options [first, second] found hash = some row)
    (hfits : options.diffFilter.Fits first second (found.filter fun e => e.1.test = hash)) :
    row.diff = none ↔ options.includeDiff = false ∨ options.diffFilter.unchanged = false ∧
      ∀ e ∈ found.filter (fun e => e.1.test = hash),
        ¬options.diffFilter.Selects (first.get e.1) (second.get e.1) := by
  rw [diff_of_answered h, ← DiffFilter.isEmpty_difference_iff hfits]
  cases options.includeDiff <;> cases options.diffFilter.unchanged <;> simp

theorem triple_of_diff_eq_some {first second : RunResults} {row : Row} {d : RowDiff}
    (h : answered options [first, second] found hash = some row)
    (hfits : options.diffFilter.Fits first second (found.filter fun e => e.1.test = hash))
    (hd : row.diff = some d) :
    d.triple = options.diffFilter.tally first second (found.filter fun e => e.1.test = hash) := by
  rw [diff_of_answered h] at hd
  dsimp only at hd
  split at hd
  · rw [← Option.some.inj hd, DiffFilter.triple_difference hfits]
  · cases hd

/-- Without a difference there is nothing to count. -/
theorem differenceUnder_eq_tally {filter : DiffFilter} {first second : RunResults}
    (hdiff : options.includeDiff = true)
    (hfits : filter.Fits first second (found.filter fun e => e.1.test = hash)) :
    differenceUnder options [first, second] found hash filter =
      filter.tally first second (found.filter fun e => e.1.test = hash) := by
  rw [differenceUnder]
  cases hrow : answered { options with diffFilter := filter } [first, second] found hash with
  | none =>
    -- There are no matches under the hash, and so none that is selected.
    have hnone : ¬∃ e ∈ found, e.1.test = hash := by
      rw [← exists_answered_iff { options with diffFilter := filter } [first, second], hrow]
      simp
    refine (DiffFilter.tally_eq_zero_iff.2 fun e he => ?_).symm
    obtain ⟨he, hhash⟩ := List.mem_filter.1 he
    exact absurd ⟨e, he, of_decide_eq_true hhash⟩ hnone
  | some row =>
    rw [Option.bind_some]
    cases hd : row.diff with
    | none =>
      -- The difference was left out because nothing is selected.
      have hnone := ((diff_eq_none_iff hrow hfits).1 hd).resolve_left (by simp [hdiff])
      exact (DiffFilter.tally_eq_zero_iff.2 hnone.2).symm
    | some d => exact triple_of_diff_eq_some hrow hfits hd

theorem differenceUnder_eq_zero {filter : DiffFilter}
    (h : options.includeDiff = false ∨ columns.length ≠ 2) :
    differenceUnder options columns found hash filter = 0 := by
  rw [differenceUnder]
  cases hrow : answered { options with diffFilter := filter } columns found hash with
  | none => rfl
  | some row =>
    rw [Option.bind_some, diff_of_answered hrow]
    rcases h with h | h <;> simp [h]

theorem differenceUnder_eq_letters (hfits : ∀ first second, columns = [first, second] →
      options.diffFilter.Fits first second (found.filter fun e => e.1.test = hash)) :
    differenceUnder options columns found hash options.diffFilter =
      (options.diffFilter.letters.map (differenceUnder options columns found hash)).sum := by
  by_cases h : options.includeDiff = false ∨ columns.length ≠ 2
  · have hzero : differenceUnder options columns found hash = fun _ => 0 :=
      funext fun _ => differenceUnder_eq_zero h
    simp [hzero]
  · rw [not_or, not_not, Bool.not_eq_false] at h
    obtain ⟨hdiff, htwo⟩ := h
    obtain ⟨first, second, rfl⟩ := List.length_eq_two.1 htwo
    have hfits := hfits first second rfl
    rw [differenceUnder_eq_tally hdiff hfits, DiffFilter.tally_eq_letters]
    refine congrArg List.sum (List.map_congr_left fun letter hletter => ?_)
    exact (differenceUnder_eq_tally hdiff (hfits.letter hletter)).symm

/-- A row has a difference exactly if one is wanted, there are two columns, and differences that
come to nothing are kept or some match of the row is selected. Its numbers are those of the selected
changes, and what a filter answers is the sum of what its letters answer alone. -/
theorem differences_of_found (options : RowOptions) (columns : List RunResults)
    (found : List (Fingerprint × TestName))
    (hfits : ∀ first second, columns = [first, second] → ∀ hash : UInt64,
      options.diffFilter.Fits first second (found.filter fun e => e.1.test = hash)) :
    (∀ row, row ∈ (gather options columns found).finish options ↔
      ∃ hash, answered options columns found hash = some row) ∧
    (∀ hash row, answered options columns found hash = some row →
      let group := found.filter fun e => e.1.test = hash
      (row.diff = none ↔ options.includeDiff = false ∨ columns.length ≠ 2 ∨
        options.diffFilter.unchanged = false ∧ ∀ first second, columns = [first, second] →
          ∀ e ∈ group, ¬options.diffFilter.Selects (first.get e.1) (second.get e.1)) ∧
      ∀ first second d, columns = [first, second] → row.diff = some d →
        d.triple = options.diffFilter.tally first second group) ∧
    ∀ hash, differenceUnder options columns found hash options.diffFilter =
      (options.diffFilter.letters.map (differenceUnder options columns found hash)).sum := by
  refine ⟨fun row => mem_finish_iff, fun hash row hrow => ⟨?_, ?_⟩, fun hash =>
    differenceUnder_eq_letters fun first second h => hfits first second h hash⟩
  · by_cases htwo : columns.length = 2
    · obtain ⟨first, second, rfl⟩ := List.length_eq_two.1 htwo
      rw [diff_eq_none_iff hrow (hfits first second rfl hash)]
      simp
    · have hnone : row.diff = none := by
        rw [diff_of_answered hrow]
        simp [htwo]
      exact ⟨fun _ => .inr (.inl htwo), fun _ => hnone⟩
  · rintro first second d rfl hd
    exact triple_of_diff_eq_some hrow (hfits first second rfl hash) hd

/-- A subtest that is new and passes, one that is gone and one that has stopped passing do not
cancel out; under `D` alone only the second counts. -/
theorem differences_of_three_subtests :
    let first := RunResults.ofList [(⟨1, 6⟩, .pass), (⟨1, 7⟩, .pass)]
    let second := RunResults.ofList [(⟨1, 5⟩, .pass), (⟨1, 7⟩, .fail)]
    let found : List (Fingerprint × TestName) := [(⟨1, 5⟩, ⟨"t", some "a"⟩),
      (⟨1, 6⟩, ⟨"t", some "b"⟩), (⟨1, 7⟩, ⟨"t", some "c"⟩)]
    let options : RowOptions := ⟨false, false, false, true, .standard⟩
    (∀ hash : UInt64, options.diffFilter.Fits first second
      (found.filter fun e => e.1.test = hash)) ∧
    ∃ row d, answered options [first, second] found 1 = some row ∧ row.diff = some d ∧
      d.triple = (1, 1, -1) ∧
      differenceUnder options [first, second] found 1 .onlyDeleted = (0, 0, -1) ∧
      differenceUnder options [first, second] found 1 .standard =
        differenceUnder options [first, second] found 1 .onlyAdded +
          (differenceUnder options [first, second] found 1 .onlyDeleted +
            differenceUnder options [first, second] found 1 .onlyChanged) := by
  intro first second found options
  have hfits (hash : UInt64) : options.diffFilter.Fits first second
      (found.filter fun e => e.1.test = hash) :=
    DiffFilter.fits_of_length_lt <|
      Nat.lt_of_le_of_lt (List.length_filter_le _ _) (by decide : found.length < 2 ^ 31)
  obtain ⟨-, hrows, hsum⟩ := differences_of_found options [first, second] found
    (by rintro _ _ ⟨⟩; exact hfits)
  obtain ⟨row, hrow⟩ :=
    (exists_answered_iff options [first, second]).2 ⟨found[0], List.mem_cons_self, rfl⟩
  obtain ⟨hnone, htriple⟩ := hrows 1 row hrow
  cases hd : row.diff with
  | none =>
    rcases hnone.1 hd with h | h | ⟨-, h⟩
    · exact absurd h (by decide)
    · exact absurd rfl h
    · exact absurd (h first second rfl found[0] (by decide)) (by decide)
  | some d =>
    refine ⟨hfits, row, d, hrow, hd, ?_, by decide, ?_⟩
    · rw [htriple first second d rfl hd]
      decide
    · exact hsum 1

end Aggregation

end ResultSearch
