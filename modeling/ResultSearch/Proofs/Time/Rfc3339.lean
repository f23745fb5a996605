import Mathlib.Algebra.Group.Nat.Defs
import Mathlib.Data.List.Induction
import ResultSearch.Proofs.Time.Calendar
import ResultSearch.Time.Rfc3339

/-!
# Timestamps written and read

A text names a point in time of the calendar, and every such point is written as a text that names
it, whatever the zone and the spelling that it was read from.

* `number_padded`, `year_writeYear`, `fraction_writeFraction`: the parts of a timestamp are read as
  they were written.
* `InCalendar`: what is true of a point in time that was read.
* `inCalendar_of_parse?`, `parse?_write`: a text names a point of the calendar, and such a point is
  written and read back.
-/

namespace ResultSearch.Timestamp

/-! ## Numbers -/

section Numbers

variable {cs rest : List Char} {c : Char} {most width n : Nat}

/-- What a decimal digit is worth. -/
def worth (c : Char) : Nat := c.toNat - '0'.toNat

theorem worth_lt (h : c.isDigit = true) : worth c < 10 := by
  simp only [Char.isDigit, Bool.and_eq_true, decide_eq_true_eq] at h
  have h9 : c.toNat ≤ 57 := h.2
  rw [worth]
  have h0 : '0'.toNat = 48 := rfl
  omega

theorem isBlank_of_isDigit (h : c.isDigit = true) : Text.isBlank c = false := by
  simp only [Char.isDigit, Bool.and_eq_true, decide_eq_true_eq] at h
  have h0 : 48 ≤ c.toNat := h.1
  have h9 : c.toNat ≤ 57 := h.2
  simp [Text.isBlank]
  omega

theorem skipBlank_cons (h : Text.isBlank c = false) : Text.skipBlank (c :: rest) = c :: rest :=
  List.dropWhile_cons_of_neg (Bool.eq_false_iff.1 h)

/-- Digits are taken up to the number wanted, or up to what is no digit. -/
theorem takeDigits_append (hcs : ∀ c ∈ cs, c.isDigit = true) (hlength : cs.length ≤ most)
    (hend : cs.length = most ∨ ∃ c ∈ rest.head?, c.isDigit = false) :
    takeDigits most (cs ++ rest) = (cs.map worth, rest) := by
  induction cs generalizing most with
  | nil =>
    cases most with
    | zero => rfl
    | succ most =>
      obtain hend | ⟨c, hc, hdigit⟩ := hend
      · cases hend
      · obtain ⟨tail, rfl⟩ := List.head?_eq_some_iff.1 hc
        simp [takeDigits, hdigit]
  | cons c cs ih =>
    cases most with
    | zero => cases hlength
    | succ most =>
      have hrest := ih (fun c hc => hcs c (List.mem_cons_of_mem _ hc)) (Nat.le_of_succ_le_succ hlength)
        (hend.imp_left Nat.succ.inj)
      rw [List.cons_append, takeDigits, if_pos (hcs c List.mem_cons_self), hrest]
      rfl

theorem takeDigits_bound (most : Nat) (cs : List Char) :
    (takeDigits most cs).1.length ≤ most ∧ ∀ d ∈ (takeDigits most cs).1, d < 10 := by
  induction most generalizing cs with
  | zero => exact ⟨Nat.le_refl 0, nofun⟩
  | succ most ih =>
    cases cs with
    | nil => exact ⟨Nat.zero_le _, nofun⟩
    | cons c rest =>
      rw [takeDigits]
      split
      · next hdigit =>
        obtain ⟨hlength, hdigits⟩ := ih rest
        refine ⟨Nat.succ_le_succ hlength, fun d hd => ?_⟩
        rcases List.mem_cons.1 hd with rfl | hd
        · exact worth_lt hdigit
        · exact hdigits d hd
      · exact ⟨Nat.zero_le _, nofun⟩

theorem ofDigits_lt {ds : List Nat} (h : ∀ d ∈ ds, d < 10) : ofDigits ds < 10 ^ ds.length := by
  induction ds using List.reverseRecOn with
  | nil => exact Nat.one_pos
  | append_singleton ds d ih =>
    have hds : ofDigits ds < 10 ^ ds.length := ih fun d hd => h d (List.mem_append_left _ hd)
    have hd : d < 10 := h d (List.mem_append_right _ (List.mem_singleton_self d))
    have hsum : ofDigits (ds ++ [d]) = ofDigits ds * 10 + d := List.foldl_append
    rw [hsum, List.length_append, List.length_singleton, Nat.pow_succ]
    omega

theorem ofDigits_eq_ofDigitChars (cs : List Char) :
    ofDigits (cs.map worth) = Nat.ofDigitChars 10 cs 0 := by
  rw [ofDigits, List.foldl_map, Nat.ofDigitChars_eq_foldl]
  congr 1
  funext n c
  rw [Nat.mul_comm]
  rfl

theorem isDigit_of_mem_padded (h : c ∈ padded width n) : c.isDigit = true := by
  rcases List.mem_append.1 h with h | h
  · rw [List.eq_of_mem_replicate h]
    rfl
  · exact Nat.isDigit_of_mem_toDigits (by decide) (by decide) h

theorem ofDigits_padded (width n : Nat) : ofDigits ((padded width n).map worth) = n := by
  rw [ofDigits_eq_ofDigitChars, padded, Nat.ofDigitChars_append, Nat.ofDigitChars_replicate_zero,
    Nat.mul_zero, Nat.ofDigitChars_ten_toDigits]

theorem length_padded (hwidth : 0 < width) (h : n < 10 ^ width) :
    (padded width n).length = width := by
  have hlength := (Nat.length_toDigits_le_iff (by decide) hwidth).2 h
  simp only [padded, List.length_append, List.length_replicate]
  omega

theorem exists_padded_eq_cons (width n : Nat) : ∃ c cs, padded width n = c :: cs := by
  refine List.exists_cons_of_ne_nil fun h => ?_
  exact Nat.toDigits_ne_nil (List.append_eq_nil_iff.1 h).2

theorem skipBlank_padded : Text.skipBlank (padded width n ++ rest) = padded width n ++ rest := by
  obtain ⟨c, cs, hcs⟩ := exists_padded_eq_cons width n
  have hdigit : c.isDigit = true := isDigit_of_mem_padded (hcs ▸ List.mem_cons_self)
  rw [hcs, List.cons_append, skipBlank_cons (isBlank_of_isDigit hdigit)]

/-- The digits of a number are taken where it stands. -/
theorem takeDigits_padded (rest : List Char) (hlength : (padded width n).length ≤ most)
    (hend : (padded width n).length = most ∨ ∃ c ∈ rest.head?, c.isDigit = false) :
    ∃ d ds, takeDigits most (padded width n ++ rest) = (d :: ds, rest) ∧ ofDigits (d :: ds) = n ∧
      (d :: ds).length = (padded width n).length := by
  have htake := takeDigits_append (fun c hc => isDigit_of_mem_padded hc) hlength hend
  obtain ⟨c, cs, hcs⟩ := exists_padded_eq_cons width n
  have hvalue := ofDigits_padded width n
  rw [hcs] at hvalue
  refine ⟨worth c, cs.map worth, ?_, hvalue, ?_⟩
  · rw [htake, hcs]
    rfl
  · rw [hcs, List.length_cons, List.length_cons, List.length_map]

/-- A number of some width is read where it stands. -/
theorem number_padded (hwidth : 0 < width) (h : n < 10 ^ width) :
    number width (padded width n ++ rest) = some (n, rest) := by
  have hlength := length_padded hwidth h
  obtain ⟨d, ds, htake, hvalue, -⟩ :=
    takeDigits_padded rest (Nat.le_of_eq hlength) (.inl hlength)
  rw [number, skipBlank_padded, htake]
  exact congrArg (fun n => some (n, rest)) hvalue

end Numbers

/-! ## Parts of a timestamp -/

section Parts

variable {rest : List Char} {c : Char}

theorem separator_cons (h : Text.isBlank c = false) : separator c (c :: rest) = some rest := by
  rw [separator, skipBlank_cons h]
  exact if_pos rfl

/-- A year is read as it was written, if no digit follows. -/
theorem year_writeYear {y : Int} (hc : c.isDigit = false) :
    year (writeYear y ++ c :: rest) = some (y, c :: rest) := by
  rw [writeYear]
  split
  · next hy =>
    have hnumber : number 4 (padded 4 y.toNat ++ c :: rest) = some (y.toNat, c :: rest) :=
      number_padded (by decide) (by omega)
    obtain ⟨first, cs, hcs⟩ := exists_padded_eq_cons 4 y.toNat
    have hfirst : first.isDigit = true := isDigit_of_mem_padded (hcs ▸ List.mem_cons_self)
    rw [year, skipBlank_padded]
    split
    · next hsign =>
      rw [hcs] at hsign
      cases hsign
      cases hfirst
    · next hsign =>
      rw [hcs] at hsign
      cases hsign
      cases hfirst
    · rw [hnumber, Option.map_some, Int.toNat_of_nonneg hy.1]
  · next hy =>
    have hlength : (padded 4 y.natAbs).length ≤ (padded 4 y.natAbs ++ c :: rest).length := by
      rw [List.length_append]
      exact Nat.le_add_right _ _
    obtain ⟨d, ds, htake, hvalue, -⟩ :=
      takeDigits_padded (c :: rest) hlength (.inr ⟨c, rfl, hc⟩)
    split
    · next hpos =>
      rw [List.cons_append, year, skipBlank_cons (by decide)]
      simp only [htake, hvalue, Int.natAbs_of_nonneg hpos]
    · next hneg =>
      have habs : (y.natAbs : Int) = -y := Int.ofNat_natAbs_of_nonpos (by omega)
      rw [List.cons_append, year, skipBlank_cons (by decide)]
      simp only [htake, hvalue, habs, Int.neg_neg]

/-- Places of a second are read as nanoseconds. -/
theorem fraction_padded {places n : Nat} (hplaces : 0 < places ∧ places ≤ 9) (h : n < 10 ^ places)
    (hc : c.isDigit = false) : fraction ('.' :: padded places n ++ c :: rest) =
      some (n * Nat.pow 10 (9 - places), c :: rest) := by
  have hlength := length_padded hplaces.1 h
  obtain ⟨d, ds, htake, hvalue, hplaces'⟩ :=
    takeDigits_padded (c :: rest) (Nat.le_trans (Nat.le_of_eq hlength) hplaces.2) (.inr ⟨c, rfl, hc⟩)
  rw [List.cons_append, fraction, htake]
  dsimp only
  rw [hvalue, hplaces', hlength, List.dropWhile_cons_of_neg (Bool.eq_false_iff.1 hc)]

theorem fraction_writeFraction {nanos : Nat} (h : nanos < 1000000000) :
    fraction (writeFraction nanos ++ 'Z' :: rest) = some (nanos, 'Z' :: rest) := by
  unfold writeFraction
  split
  · next hzero =>
    rw [hzero]
    rfl
  · split
    · next hmillis =>
      have hnanos : nanos / 1000000 * Nat.pow 10 (9 - 3) = nanos :=
        Nat.div_mul_cancel (Nat.dvd_of_mod_eq_zero hmillis)
      rw [fraction_padded (by decide) (by omega) rfl, hnanos]
    · split
      · next hmicros =>
        have hnanos : nanos / 1000 * Nat.pow 10 (9 - 6) = nanos :=
          Nat.div_mul_cancel (Nat.dvd_of_mod_eq_zero hmicros)
        rw [fraction_padded (by decide) (by omega) rfl, hnanos]
      · have hnanos : nanos * Nat.pow 10 (9 - 9) = nanos := Nat.mul_one nanos
        rw [fraction_padded (by decide) h rfl, hnanos]

/-- A fraction is less than a second. -/
theorem fraction_lt {cs : List Char} {nanos : Nat} (h : fraction cs = some (nanos, rest)) :
    nanos < 1000000000 := by
  unfold fraction at h
  split at h
  · next places =>
    obtain ⟨hlength, hdigits⟩ := takeDigits_bound 9 places
    split at h
    · cases h
    · next ds tail _ htake =>
      rw [htake] at hlength hdigits
      cases h
      have hds : ofDigits ds < 10 ^ ds.length := ofDigits_lt hdigits
      calc ofDigits ds * 10 ^ (9 - ds.length)
        _ < 10 ^ ds.length * 10 ^ (9 - ds.length) :=
          Nat.mul_lt_mul_of_pos_right hds (Nat.pow_pos (by decide))
        _ = 10 ^ 9 := by rw [← Nat.pow_add, Nat.add_sub_cancel' hlength]
  · cases h
    decide

/-- Zones are whole minutes from UTC. -/
theorem zone_minutes {cs : List Char} {offset : Int} (h : zone cs = some (offset, rest)) :
    offset % 60 = 0 := by
  unfold zone at h
  split at h
  · cases h
  · split at h
    · cases h
      rfl
    · split at h
      · cases h
        rfl
      · split at h
        · obtain ⟨⟨hours, afterHours⟩, -, h⟩ := Option.bind_eq_some_iff.1 h
          obtain ⟨⟨minutes, afterMinutes⟩, -, h⟩ := Option.bind_eq_some_iff.1 h
          dsimp only at h
          split at h
          · cases h
          · obtain ⟨hoffset, -⟩ := Prod.mk.inj (Option.some.inj h)
            rw [← hoffset]
            split <;> omega
        · cases h

end Parts

/-! ## Points of the calendar -/

/-- A point in time that has a date in the calendar. -/
def Dated (t : Timestamp) : Prop :=
  minYear ≤ (dateOf (t.seconds / secondsPerDay)).year ∧
    (dateOf (t.seconds / secondsPerDay)).year ≤ maxYear

/-- A point in time that has a date, with a fraction of one second or, in the last second of a minute,
of two. -/
structure InCalendar (t : Timestamp) : Prop where
  dated : t.Dated
  nanos_lt : t.nanos < 2000000000
  last_second : 1000000000 ≤ t.nanos → t.seconds % 60 = 59

section Calendar

variable {t : Timestamp}

/-- What the parts of a point in time have to be. -/
theorem ofParts_eq_some_iff {date : Date} {hour minute second nanos : Nat} {offset : Int} :
    ofParts date hour minute second nanos offset = some t ↔
      (date.isValid = true ∧ hour ≤ 23 ∧ minute ≤ 59 ∧ second ≤ 60 ∧ offset.natAbs < 86400) ∧
        t.seconds = daysOf date * secondsPerDay +
          (hour * 3600 + minute * 60 + (if second = 60 then 59 else second : Nat)) - offset ∧
        t.nanos = (if second = 60 then nanos + 1000000000 else nanos) ∧ t.Dated := by
  unfold ofParts
  dsimp only
  simp only [decide_eq_true_eq]
  split
  · next hbad =>
    refine ⟨nofun, fun ⟨⟨hvalid, hhour, hminute, hsecond, hoffset⟩, _⟩ => absurd hbad ?_⟩
    rw [hvalid]
    simp only [Bool.not_true, Bool.false_eq_true, false_or]
    omega
  · next hgood =>
    have hparts : date.isValid = true ∧ hour ≤ 23 ∧ minute ≤ 59 ∧ second ≤ 60 ∧
        offset.natAbs < 86400 := by simpa using hgood
    constructor
    · intro h
      obtain ⟨hdated, h⟩ := Option.ite_none_right_eq_some.1 h
      obtain rfl := Option.some.inj h
      exact ⟨hparts, rfl, rfl, hdated⟩
    · rintro ⟨-, hseconds, hnanos, hdated⟩
      obtain ⟨seconds, nanos⟩ := t
      subst hseconds hnanos
      exact if_pos hdated

/-- The second of the minute and the fraction that a point in time is written with. -/
def secondOf (t : Timestamp) (inDay : Nat) : Nat × Nat :=
  if 1000000000 ≤ t.nanos then (inDay % 60 + 1, t.nanos - 1000000000) else (inDay % 60, t.nanos)

/-- The parts of a point of the calendar name it. -/
theorem ofParts_of_inCalendar (h : t.InCalendar) {days : Int} {inDay : Nat}
    (hdays : days = t.seconds / secondsPerDay)
    (hinDay : t.seconds = days * secondsPerDay + inDay) (hlt : inDay < 86400) :
    ofParts (dateOf days) (inDay / 3600) (inDay / 60 % 60) (t.secondOf inDay).1
      (t.secondOf inDay).2 0 = some t := by
  have hvalid : (dateOf days).isValid = true :=
    Date.isValid_iff.2 ⟨hdays ▸ h.dated.1, hdays ▸ h.dated.2, isDay_dateOf days⟩
  have hseconds (second : Nat) (hsecond : second = inDay % 60) : t.seconds =
      daysOf (dateOf days) * secondsPerDay +
        (((inDay / 3600 : Nat) : Int) * 3600 + ((inDay / 60 % 60 : Nat) : Int) * 60 + second) - 0 := by
    rw [daysOf_dateOf, hinDay, hsecond]
    generalize days * secondsPerDay = before
    omega
  refine ofParts_eq_some_iff.2 ?_
  unfold secondOf
  split
  · next hleap =>
    have hlast : inDay % 60 = 59 := by
      have := h.last_second hleap
      rw [secondsPerDay] at hinDay
      omega
    rw [hlast]
    exact ⟨⟨hvalid, by omega, by omega, Nat.le_refl 60, by decide⟩, hseconds 59 hlast.symm,
      (Nat.sub_add_cancel hleap).symm, h.dated⟩
  · have hsecond : ¬ inDay % 60 = 60 := by omega
    dsimp only
    rw [if_neg hsecond, if_neg hsecond]
    exact ⟨⟨hvalid, by omega, by omega, by omega, by decide⟩, hseconds _ rfl, rfl, h.dated⟩

theorem inCalendar_of_ofParts {date : Date} {hour minute second nanos : Nat} {offset : Int}
    (hnanos : nanos < 1000000000) (hoffset : offset % 60 = 0)
    (h : ofParts date hour minute second nanos offset = some t) : t.InCalendar := by
  obtain ⟨-, hseconds, hfraction, hdated⟩ := ofParts_eq_some_iff.1 h
  rw [secondsPerDay] at hseconds
  by_cases hleap : second = 60
  · rw [if_pos hleap] at hseconds hfraction
    exact ⟨hdated, by omega, fun _ => by omega⟩
  · rw [if_neg hleap] at hfraction
    exact ⟨hdated, by omega, fun _ => by omega⟩

/-- The time follows the date after one character. -/
theorem exists_afterDate {cs : List Char} {readTime : List Char → Option Timestamp}
    (h : (match cs with
      | c :: rest =>
        if c = 'T' ∨ c = 't' ∨ c = ' ' then (some rest).bind readTime else none.bind readTime
      | [] => none.bind readTime) = some t) : ∃ rest, readTime rest = some t := by
  split at h
  · split at h
    · exact ⟨_, h⟩
    · cases h
  · cases h

/-- A text names only points of the calendar. -/
theorem inCalendar_of_parse? {s : String} (h : parse? s = some t) : t.InCalendar := by
  obtain ⟨⟨y, cs⟩, -, h⟩ := Option.bind_eq_some_iff.1 h
  obtain ⟨cs, -, h⟩ := Option.bind_eq_some_iff.1 h
  obtain ⟨⟨month, cs⟩, -, h⟩ := Option.bind_eq_some_iff.1 h
  obtain ⟨cs, -, h⟩ := Option.bind_eq_some_iff.1 h
  obtain ⟨⟨day, cs⟩, -, h⟩ := Option.bind_eq_some_iff.1 h
  obtain ⟨cs, h⟩ := exists_afterDate h
  obtain ⟨⟨hour, cs⟩, -, h⟩ := Option.bind_eq_some_iff.1 h
  obtain ⟨cs, -, h⟩ := Option.bind_eq_some_iff.1 h
  obtain ⟨⟨minute, cs⟩, -, h⟩ := Option.bind_eq_some_iff.1 h
  obtain ⟨cs, -, h⟩ := Option.bind_eq_some_iff.1 h
  obtain ⟨⟨second, cs⟩, -, h⟩ := Option.bind_eq_some_iff.1 h
  obtain ⟨⟨nanos, cs⟩, hnanos, h⟩ := Option.bind_eq_some_iff.1 h
  obtain ⟨⟨offset, cs⟩, hoffset, h⟩ := Option.bind_eq_some_iff.1 h
  obtain ⟨-, h⟩ := Option.ite_none_right_eq_some.1 h
  exact inCalendar_of_ofParts (fraction_lt hnanos) (zone_minutes hoffset) h

/-- The characters of a timestamp. -/
theorem toList_write {days : Int} {inDay : Nat} (hdays : days = t.seconds / secondsPerDay)
    (hinDay : t.seconds = days * secondsPerDay + inDay) : t.write.toList =
      writeYear (dateOf days).year ++ '-' :: (padded 2 (dateOf days).month ++ '-' ::
        (padded 2 (dateOf days).day ++ 'T' :: (padded 2 (inDay / 3600) ++ ':' ::
          (padded 2 (inDay / 60 % 60) ++ ':' :: (padded 2 (t.secondOf inDay).1 ++
            (writeFraction (t.secondOf inDay).2 ++ ['Z'])))))) := by
  have hrest : (t.seconds - days * secondsPerDay).toNat = inDay := by
    rw [hinDay, Int.add_comm, Int.add_sub_cancel, Int.toNat_natCast]
  rw [write, String.toList_ofList, ← hdays, hrest, secondOf]
  by_cases hleap : 1000000000 ≤ t.nanos <;> simp [hleap]

/-- A point of the calendar is written as a text that names it. -/
theorem parse?_write (h : t.InCalendar) : parse? t.write = some t := by
  obtain ⟨days, hdays⟩ : ∃ days, days = t.seconds / secondsPerDay := ⟨_, rfl⟩
  obtain ⟨inDay, hinDay, hlt⟩ : ∃ inDay : Nat, t.seconds = days * secondsPerDay + inDay ∧
      inDay < 86400 := by
    refine ⟨(t.seconds % secondsPerDay).toNat, ?_⟩
    rw [secondsPerDay] at *
    omega
  have hparts := ofParts_of_inCalendar h hdays hinDay hlt
  obtain ⟨-, hmonth, -, hday⟩ := isDay_dateOf days
  have hsecond : (t.secondOf inDay).1 < 100 ∧ (t.secondOf inDay).2 < 1000000000 := by
    have := h.nanos_lt
    unfold secondOf
    split <;> exact ⟨by omega, by omega⟩
  have hday31 : (dateOf days).day < 100 := by
    unfold daysInMonth at hday
    split at hday <;> split at hday <;> omega
  have hnumber {n : Nat} (hn : n < 100) (rest : List Char) :
      number 2 (padded 2 n ++ rest) = some (n, rest) := number_padded (by decide) hn
  rw [parse?, toList_write hdays hinDay, year_writeYear rfl]
  dsimp only [Option.bind_eq_bind, Option.bind_some]
  rw [separator_cons rfl, Option.bind_some, hnumber (by omega)]
  dsimp only [Option.bind_some]
  rw [separator_cons rfl, Option.bind_some, hnumber hday31]
  dsimp only [Option.bind_some]
  rw [if_pos (.inl rfl), hnumber (by omega)]
  dsimp only [Option.bind_some]
  rw [separator_cons rfl, Option.bind_some, hnumber (by omega)]
  dsimp only [Option.bind_some]
  rw [separator_cons rfl, Option.bind_some, hnumber hsecond.1]
  dsimp only [Option.bind_some]
  rw [fraction_writeFraction hsecond.2]
  exact hparts

end Calendar

end ResultSearch.Timestamp
