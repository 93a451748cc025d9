import ExperimentCharts.Calendar

namespace ExperimentCharts.Calendar

/-- The days before a year of a cycle, in years that start in March. The leap day of every fourth year is its
    last day, and that of every hundredth is left out. -/
def yearStart (year : Nat) : Nat := 365 * year + year / 4 - year / 100

/-- A day of a cycle is the first day of its year and the days since. -/
theorem yearStart_yearOfCycle {day : Nat} (hday : day < cycleDays) :
    yearStart (yearOfCycle day).1 + (yearOfCycle day).2 = day := by
  simp only [yearStart, yearOfCycle, centuryDays, periodDays, yearDays, cycleDays] at *
  have hcentury : min 3 (day / 36524) * 36524 ≤ day := by omega
  have hinCentury : day - min 3 (day / 36524) * 36524 < 36525 := by omega
  generalize min 3 (day / 36524) = century at *
  generalize hrest : day - century * 36524 = rest at *
  have hperiod : rest / 1461 ≤ 24 := by omega
  have hinPeriod := Nat.div_add_mod rest 1461
  have hlast : rest - rest / 1461 * 1461 = rest % 1461 := by omega
  rw [hlast]
  have hyear : min 3 (rest % 1461 / 365) ≤ 3 := Nat.min_le_left _ _
  have hinYear : min 3 (rest % 1461 / 365) * 365 ≤ rest % 1461 :=
    Nat.le_trans (Nat.mul_le_mul_right 365 (Nat.min_le_right _ _)) (Nat.div_mul_le_self _ _)
  generalize rest / 1461 = period at *
  generalize min 3 (rest % 1461 / 365) = year at *
  have hfourths : (century * 100 + period * 4 + year) / 4 = century * 25 + period := by omega
  have hhundredths : (century * 100 + period * 4 + year) / 100 = century := by omega
  rw [hfourths, hhundredths]
  omega

theorem yearOfCycle_fst_lt {day : Nat} (hday : day < cycleDays) : (yearOfCycle day).1 < 400 := by
  simp only [yearOfCycle, centuryDays, periodDays, yearDays, cycleDays] at *
  omega

theorem yearOfCycle_snd_lt (day : Nat) : (yearOfCycle day).2 < 366 := by
  simp only [yearOfCycle, centuryDays, periodDays, yearDays]
  omega

/-- The days from the first of January 1970 to a date. January and February belong to the year before, if years
    start in March. -/
def dayNumber (year : Int) (month day : Nat) : Int :=
  let yearFromMarch := if month < 3 then year - 1 else year
  let monthFromMarch := if month < 3 then month + 9 else month - 3
  yearFromMarch.fdiv 400 * cycleDays + yearStart (yearFromMarch.fmod 400).toNat + monthStart monthFromMarch + day - 1 -
    epochDays

/-- The date of a day leads back to the day. -/
theorem dayNumber_date (days : Int) : dayNumber (date days).1 (date days).2.1 (date days).2.2 = days := by
  have hcycle : days + epochDays = (days + epochDays).fdiv cycleDays * cycleDays + (days + epochDays).fmod cycleDays := by
    rw [Int.mul_comm, Int.mul_fdiv_add_fmod]
  have hnonneg : 0 ≤ (days + epochDays).fmod cycleDays := Int.fmod_nonneg_of_pos _ (by decide)
  have hlt : (days + epochDays).fmod cycleDays < cycleDays := Int.fmod_lt_of_pos _ (by decide)
  obtain ⟨day, hday⟩ := Int.eq_ofNat_of_zero_le hnonneg
  rw [hday] at hcycle hlt
  have hless : day < cycleDays := by omega
  have hstart := yearStart_yearOfCycle hless
  have hyear := yearOfCycle_fst_lt hless
  have hrest := yearOfCycle_snd_lt day
  simp only [date, hday, Int.toNat_natCast]
  generalize (days + epochDays).fdiv cycleDays = cycle at *
  generalize (yearOfCycle day).1 = year at *
  generalize (yearOfCycle day).2 = rest at *
  have hmonth : monthStart (monthOfYear rest) ≤ rest := by
    unfold monthStart monthOfYear
    omega
  have hlast : monthOfYear rest ≤ 11 := by
    unfold monthOfYear
    omega
  have hfdiv : (cycle * 400 + (year : Int)).fdiv 400 = cycle := by
    rw [Int.fdiv_eq_ediv_of_nonneg _ (by decide)]
    omega
  have hfmod : (cycle * 400 + (year : Int)).fmod 400 = year := by
    rw [Int.fmod_eq_emod_of_nonneg _ (by decide)]
    omega
  -- From March to December the year is that of the date, and otherwise the one before.
  by_cases hbefore : monthOfYear rest < 10
  · have hthree : ¬ monthOfYear rest + 3 < 3 := by omega
    rw [if_pos hbefore, dayNumber]
    simp only [if_neg hthree, Nat.add_sub_cancel, hfdiv, hfmod, Int.toNat_natCast]
    omega
  · have hthree : monthOfYear rest - 9 < 3 := by omega
    rw [if_neg hbefore, dayNumber]
    simp only [if_pos hthree, Int.add_sub_cancel, hfdiv, hfmod, Int.toNat_natCast,
      show monthOfYear rest - 9 + 9 = monthOfYear rest by omega]
    omega

/-- The seconds from 1970 to a date and time, both in the same zone. -/
def instantOf (time : DateTime) : Int :=
  dayNumber time.year time.month time.day * 86400 + (time.hour * 3600 + time.minute * 60 + time.second : Nat)

/-- The parts of a date and time, with the date kept as it is. -/
theorem exists_dateTime_eq (instant offset : Int) :
    ∃ day, date ((instant + offset).fdiv 86400) = day ∧
      dateTime instant offset =
        ⟨day.1, day.2.1, day.2.2, ((instant + offset).fmod 86400).toNat / 3600,
          ((instant + offset).fmod 86400).toNat / 60 % 60, ((instant + offset).fmod 86400).toNat % 60⟩ :=
  ⟨_, rfl, rfl⟩

/-- The seconds that were taken apart into a date and time are counted together again. -/
theorem instantOf_dateTime (instant offset : Int) : instantOf (dateTime instant offset) = instant + offset := by
  have hsplit : instant + offset = (instant + offset).fdiv 86400 * 86400 + (instant + offset).fmod 86400 := by
    rw [Int.mul_comm, Int.mul_fdiv_add_fmod]
  have hnonneg : 0 ≤ (instant + offset).fmod 86400 := Int.fmod_nonneg_of_pos _ (by decide)
  have hnumber := dayNumber_date ((instant + offset).fdiv 86400)
  obtain ⟨day, hday, hdateTime⟩ := exists_dateTime_eq instant offset
  rw [hday] at hnumber
  rw [hdateTime, instantOf]
  dsimp only
  rw [hnumber]
  omega

/-- In one zone, different instants have different dates and times. -/
theorem dateTime_injective (offset : Int) : Function.Injective fun instant => dateTime instant offset := by
  intro instant other heq
  have hinstant := congrArg instantOf heq
  simp only [instantOf_dateTime] at hinstant
  omega

end ExperimentCharts.Calendar
