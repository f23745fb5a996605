import ResultSearch.Time.Timestamp

/-!
# Days and dates

The date of a day is one of the calendar, and its number is that of the day. Years are taken from
March to February: then the months have the lengths that `(153 * m + 2) / 5` sums up, and of the days
of a year only the last one depends on whether the year is leap.

* `century_bounds`, `exists_marchDate`: the year of a day and the day in its year.
* `daysOf_marchDate`, `isDay_marchDate`: the date of a day in a year that begins in March.
* `daysOf_dateOf`, `isDay_dateOf`: the same for days counted from 1970.
-/

namespace ResultSearch.Timestamp

/-- A date with a month and a day that its year has. -/
def Date.IsDay (d : Date) : Prop :=
  1 ≤ d.month ∧ d.month ≤ 12 ∧ 1 ≤ d.day ∧ d.day ≤ daysInMonth d.year d.month

theorem Date.isValid_iff {d : Date} :
    d.isValid = true ↔ minYear ≤ d.year ∧ d.year ≤ maxYear ∧ d.IsDay := by
  simp only [isValid, IsDay, Bool.and_eq_true, decide_eq_true_eq, and_assoc]

/-- The date of a day, counted from 0, in a year that begins in the March of `year`. -/
def marchDate (year dayOfYear : Int) : Date :=
  let m := (5 * dayOfYear + 2) / 153
  let day := dayOfYear - (153 * m + 2) / 5 + 1
  let month := if m < 10 then m + 3 else m - 9
  ⟨year + (if month ≤ 2 then 1 else 0), month.toNat, day.toNat⟩

/-- The last day of a year that begins in March, if there is one: the next year is leap. -/
def LeapDay (year dayOfYear : Int) : Prop := dayOfYear = 365 → isLeap (year + 1) = true

/-! ## Days in a year that begins in March -/

section MarchDate

variable {year dayOfYear : Int}

/-- The month, counted from March, and the day in it. -/
theorem month_bounds {m : Int} (h0 : 0 ≤ dayOfYear) (h365 : dayOfYear ≤ 365)
    (hm : m = (5 * dayOfYear + 2) / 153) :
    0 ≤ m ∧ m ≤ 11 ∧ 0 ≤ dayOfYear - (153 * m + 2) / 5 ∧ dayOfYear - (153 * m + 2) / 5 ≤ 30 := by
  omega

theorem isDay_marchDate (h0 : 0 ≤ dayOfYear) (h365 : dayOfYear ≤ 365)
    (hleap : LeapDay year dayOfYear) : (marchDate year dayOfYear).IsDay := by
  obtain ⟨m, hm⟩ : ∃ m, m = (5 * dayOfYear + 2) / 153 := ⟨_, rfl⟩
  obtain ⟨hm0, hm11, hday0, hday30⟩ := month_bounds h0 h365 hm
  rw [Date.IsDay, marchDate]
  dsimp only
  rw [← hm]
  by_cases hspring : m < 10
  · rw [if_pos hspring, if_neg (by omega)]
    refine ⟨by omega, by omega, by omega, ?_⟩
    rw [daysInMonth, if_neg (by omega)]
    split
    · omega
    · omega
  · rw [if_neg hspring, if_pos (by omega)]
    refine ⟨by omega, by omega, by omega, ?_⟩
    rw [daysInMonth]
    split
    · split
      · omega
      · next hcommon =>
        have hlast : dayOfYear ≠ 365 := fun h => hcommon (hleap h)
        omega
    · rw [if_neg (by omega)]
      omega

theorem daysOf_marchDate (h0 : 0 ≤ dayOfYear) (h365 : dayOfYear ≤ 365) :
    daysOf (marchDate year dayOfYear) =
      year * 365 + year / 4 - year / 100 + year / 400 + dayOfYear - 719468 := by
  obtain ⟨m, hm⟩ : ∃ m, m = (5 * dayOfYear + 2) / 153 := ⟨_, rfl⟩
  obtain ⟨hm0, hm11, hday0, hday30⟩ := month_bounds h0 h365 hm
  rw [daysOf, marchDate]
  dsimp only
  rw [← hm]
  by_cases hspring : m < 10
  · rw [if_pos hspring, if_neg (by omega), if_neg (by omega), if_neg (by omega)]
    omega
  · rw [if_neg hspring, if_pos (by omega), if_pos (by omega), if_pos (by omega)]
    omega

end MarchDate

/-! ## The year of a day -/

/-- The year `u` of a century in which its day `x` lies, where `d` centuries of the era are over: the
last of them has one day more. -/
theorem century_bounds {x d c u : Int} (h0 : 0 ≤ x) (h1 : x ≤ 36524) (hd0 : 0 ≤ d) (hd : d ≤ 3)
    (hx : x = 36524 → d = 3) (hc : c = (24 * d + x) / 1460) (hu : u = (x - c) / 365) :
    (0 ≤ u ∧ u ≤ 99) ∧ (0 ≤ x - (365 * u + u / 4) ∧ x - (365 * u + u / 4) ≤ 365) ∧
      (x - (365 * u + u / 4) = 365 → u % 4 = 3 ∧ (u = 99 → d = 3)) := by
  have hu0 : 0 ≤ u := by omega
  have hu99 : u ≤ 99 := by omega
  have hlow : u / 4 ≤ c := by omega
  have hhigh : c ≤ u / 4 + 1 := by omega
  refine ⟨⟨hu0, hu99⟩, by omega, fun h => ?_⟩
  have hc : c = u / 4 + 1 := by omega
  exact ⟨by omega, fun h99 => by omega⟩

/-- The centuries of an era that are over on a day, and the day in the next. -/
theorem exists_century {day : Int} (h0 : 0 ≤ day) (h1 : day < 146097) : ∃ d x : Int,
    day = 36524 * d + x ∧ (0 ≤ d ∧ d ≤ 3) ∧ (0 ≤ x ∧ x ≤ 36524) ∧ (x = 36524 → d = 3) := by
  by_cases h : day = 146096
  · exact ⟨3, 36524, by omega⟩
  · exact ⟨day / 36524, day % 36524, by omega⟩

/-- The year of an era in which a day of it lies. -/
theorem yearOfEra_eq {day d x c : Int} (hd : 0 ≤ d ∧ d ≤ 3) (hx0 : 0 ≤ x ∧ x ≤ 36524)
    (hx : x = 36524 → d = 3) (hday : day = 36524 * d + x) (hc : c = (24 * d + x) / 1460) :
    (day - day / 1460 + day / 36524 - day / 146096) / 365 = 100 * d + (x - c) / 365 := by
  have hquads : day / 1460 = 25 * d + c := by omega
  have hcenturies : day / 36524 - day / 146096 = d := by
    rcases Int.lt_or_eq_of_le hx0.2 with h | h
    · have : day / 36524 = d := by omega
      have : day / 146096 = 0 := by omega
      omega
    · obtain rfl := h
      obtain rfl := hx rfl
      rw [hday]
      rfl
  have hsum : day - day / 1460 + day / 36524 - day / 146096 = x - c + 365 * (100 * d) := by omega
  rw [hsum]
  omega

/-- A year of an era by its century: the days before it, and whether the next is leap. -/
theorem year_of_century {d u y : Int} (hd : 0 ≤ d ∧ d ≤ 3) (hu : 0 ≤ u ∧ u ≤ 99)
    (hy : y = 100 * d + u) :
    (0 ≤ y ∧ y ≤ 399) ∧ 365 * y + y / 4 - y / 100 = 36524 * d + (365 * u + u / 4) ∧
      (u % 4 = 3 → (u = 99 → d = 3) → (y + 1) % 4 = 0 ∧ ((y + 1) % 100 = 0 → (y + 1) % 400 = 0)) := by
  have hquads : y / 4 = 25 * d + u / 4 := by omega
  have hcenturies : y / 100 = d := by omega
  refine ⟨by omega, by omega, fun hquad hlast => ⟨by omega, fun hcentury => ?_⟩⟩
  have hu99 : u = 99 := by omega
  have hd3 : d = 3 := hlast hu99
  omega

/-- The year of an era in which a day of it lies, and the day in the year. -/
theorem yearOfEra_bounds {day y : Int} (h0 : 0 ≤ day) (h1 : day < 146097)
    (hy : y = (day - day / 1460 + day / 36524 - day / 146096) / 365) : (0 ≤ y ∧ y ≤ 399) ∧
      (0 ≤ day - (365 * y + y / 4 - y / 100) ∧ day - (365 * y + y / 4 - y / 100) ≤ 365) ∧
        (day - (365 * y + y / 4 - y / 100) = 365 →
          (y + 1) % 4 = 0 ∧ ((y + 1) % 100 = 0 → (y + 1) % 400 = 0)) := by
  obtain ⟨d, x, hx, hd, hx0, hlong⟩ := exists_century h0 h1
  obtain ⟨hu, hday, hlast⟩ := century_bounds hx0.1 hx0.2 hd.1 hd.2 hlong rfl rfl
  rw [yearOfEra_eq hd hx0 hlong hx rfl] at hy
  obtain ⟨hbounds, hdays, hleap⟩ := year_of_century hd hu hy
  rw [hdays, hx, Int.add_sub_add_left]
  refine ⟨hbounds, hday, fun h => ?_⟩
  obtain ⟨hquad, hcentury⟩ := hlast h
  exact hleap hquad hcentury

/-- The days before a year are those of the eras before it and of the years of its era before it. -/
theorem days_of_era {era y : Int} (h : 0 ≤ y ∧ y ≤ 399) :
    (y + era * 400) * 365 + (y + era * 400) / 4 - (y + era * 400) / 100 + (y + era * 400) / 400 =
      era * 146097 + (365 * y + y / 4 - y / 100) := by
  omega

/-- A year is leap as the year of its era is. -/
theorem isLeap_of_era {era y : Int} (h4 : y % 4 = 0) (h100 : y % 100 = 0 → y % 400 = 0) :
    isLeap (y + era * 400) = true := by
  have h4 : (y + era * 400) % 4 = 0 := by omega
  have h100 : (y + era * 400) % 100 = 0 → (y + era * 400) % 400 = 0 := by omega
  simp only [isLeap, Bool.and_eq_true, Bool.or_eq_true, beq_iff_eq, bne_iff_ne]
  exact ⟨h4, Decidable.not_or_of_imp h100⟩

theorem exists_marchDate (n : Int) : ∃ year dayOfYear, dateOf n = marchDate year dayOfYear ∧
    (0 ≤ dayOfYear ∧ dayOfYear ≤ 365) ∧ LeapDay year dayOfYear ∧
      year * 365 + year / 4 - year / 100 + year / 400 + dayOfYear - 719468 = n := by
  obtain ⟨era, day, hera, hday⟩ : ∃ era day : Int, era = (n + 719468) / 146097 ∧
      day = n + 719468 - era * 146097 := ⟨_, _, rfl, rfl⟩
  have hday0 : 0 ≤ day ∧ day < 146097 := by omega
  obtain ⟨y, hyear⟩ : ∃ y, y = (day - day / 1460 + day / 36524 - day / 146096) / 365 := ⟨_, rfl⟩
  obtain ⟨hy, hdayOfYear, hleap⟩ := yearOfEra_bounds hday0.1 hday0.2 hyear
  refine ⟨y + era * 400, day - (365 * y + y / 4 - y / 100), ?_, hdayOfYear, fun h => ?_, ?_⟩
  · rw [hyear, hday, hera]
    rfl
  · obtain ⟨h4, h100⟩ := hleap h
    rw [Int.add_right_comm]
    exact isLeap_of_era h4 h100
  · rw [days_of_era hy, hday]
    generalize 365 * y + y / 4 - y / 100 = before
    omega

/-! ## Days counted from 1970 -/

theorem daysOf_dateOf (n : Int) : daysOf (dateOf n) = n := by
  obtain ⟨year, dayOfYear, hdate, ⟨h0, h365⟩, -, hn⟩ := exists_marchDate n
  rw [hdate, daysOf_marchDate h0 h365, hn]

theorem isDay_dateOf (n : Int) : (dateOf n).IsDay := by
  obtain ⟨year, dayOfYear, hdate, ⟨h0, h365⟩, hleap, -⟩ := exists_marchDate n
  rw [hdate]
  exact isDay_marchDate h0 h365 hleap

end ResultSearch.Timestamp
