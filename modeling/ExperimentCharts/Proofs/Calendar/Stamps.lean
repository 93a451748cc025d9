import ExperimentCharts.Proofs.Binary64.Text
import ExperimentCharts.Proofs.Calendar.Instants

namespace ExperimentCharts

theorem padded_eq (width n : Nat) :
    padded width n = List.replicate (width - (Nat.toDigits 10 n).length) '0' ++ Nat.toDigits 10 n := by
  rw [padded, Nat.toString_eq_repr, Nat.toList_repr]

theorem isDigit_of_mem_padded {width n : Nat} {c : Char} (hc : c ∈ padded width n) : c.isDigit = true := by
  rw [padded_eq] at hc
  exact (List.mem_append.mp hc).elim Binary64.isDigit_of_mem_zeros Binary64.isDigit_of_mem_toDigits

/-- A padded number is read as the number. -/
theorem digitsValue_padded (width n : Nat) : Binary64.digitsValue (padded width n) = n := by
  rw [padded_eq, Binary64.digitsValue_zeros_append, Binary64.digitsValue_toDigits]

theorem padded_injective (width : Nat) : Function.Injective (padded width) := by
  intro n m heq
  have hvalue := congrArg Binary64.digitsValue heq
  rwa [digitsValue_padded, digitsValue_padded] at hvalue

/-- A padded number has the full width if it is small enough. -/
theorem length_padded {width n : Nat} (hwidth : 0 < width) (hn : n < 10 ^ width) : (padded width n).length = width := by
  have hdigits := (Nat.length_toDigits_le_iff (by decide) hwidth).mpr hn
  rw [padded_eq, List.length_append, List.length_replicate]
  omega

/-- The text of a year has the digits of its magnitude, besides a sign. -/
theorem filter_isDigit_yearText (year : Int) : (yearText year).filter Char.isDigit = padded 4 year.natAbs := by
  have hdigits : (padded 4 year.natAbs).filter Char.isDigit = padded 4 year.natAbs :=
    List.filter_eq_self.mpr fun _ => isDigit_of_mem_padded
  unfold yearText
  split
  · exact hdigits
  · rw [List.filter_cons_of_neg, hdigits]
    split <;> decide

/-- Years before the year zero have a minus sign. -/
theorem minus_mem_yearText_iff (year : Int) : '-' ∈ yearText year ↔ year < 0 := by
  have hdigits : '-' ∉ padded 4 year.natAbs := fun hmem => absurd (isDigit_of_mem_padded hmem) (by decide)
  unfold yearText
  by_cases hshort : 0 ≤ year ∧ year ≤ 9999
  · rw [if_pos hshort]
    exact iff_of_false hdigits (by omega)
  · rw [if_neg hshort]
    by_cases hnegative : year < 0 <;> simp [hnegative, hdigits]

/-- Years are told apart by their digits and the minus sign. -/
theorem yearText_injective : Function.Injective yearText := by
  intro year other heq
  have hdigits := filter_isDigit_yearText year
  have hsign := minus_mem_yearText_iff year
  rw [heq, filter_isDigit_yearText] at hdigits
  rw [heq, minus_mem_yearText_iff] at hsign
  have habs := padded_injective 4 hdigits
  omega

/-- Two digits are enough for every part of the time but the year. -/
structure DateTime.FitsTwoDigits (time : DateTime) : Prop where
  month : time.month < 100
  day : time.day < 100
  hour : time.hour < 100
  minute : time.minute < 100
  second : time.second < 100

theorem Calendar.date_lt_hundred (days : Int) : (date days).2.1 < 100 ∧ (date days).2.2 < 100 := by
  have hrest := yearOfCycle_snd_lt ((days + epochDays).fmod cycleDays).toNat
  have hmonth (rest : Nat) (hrest : rest < 366) :
      monthOfYear rest < 12 ∧ rest - monthStart (monthOfYear rest) < 31 := by
    unfold monthOfYear monthStart
    omega
  obtain ⟨hlast, hday⟩ := hmonth _ hrest
  simp only [date]
  split <;> dsimp only <;> omega

/-- Every instant has such parts. -/
theorem Calendar.fitsTwoDigits_dateTime (instant offset : Int) : (dateTime instant offset).FitsTwoDigits := by
  obtain ⟨hmonth, hday⟩ := date_lt_hundred ((instant + offset).fdiv 86400)
  have htime : (instant + offset).fmod 86400 < 86400 := Int.fmod_lt_of_pos _ (by decide)
  obtain ⟨day, hdate, hdateTime⟩ := exists_dateTime_eq instant offset
  rw [hdate] at hmonth hday
  rw [hdateTime]
  refine ⟨hmonth, hday, ?_, ?_, ?_⟩ <;> dsimp only <;> omega

variable {time other : DateTime}

/-- The width of a part other than the year does not depend on the time. -/
theorem StampItem.length_text_eq (htime : time.FitsTwoDigits) (hother : other.FitsTwoDigits) {item : StampItem}
    (hitem : item ≠ .year) : (item.text time).length = (item.text other).length := by
  cases item with
  | year => exact absurd rfl hitem
  | literal c => rfl
  | month => exact (length_padded (by decide) htime.month).trans (length_padded (by decide) hother.month).symm
  | day => exact (length_padded (by decide) htime.day).trans (length_padded (by decide) hother.day).symm
  | hour => exact (length_padded (by decide) htime.hour).trans (length_padded (by decide) hother.hour).symm
  | minute => exact (length_padded (by decide) htime.minute).trans (length_padded (by decide) hother.minute).symm
  | second => exact (length_padded (by decide) htime.second).trans (length_padded (by decide) hother.second).symm

theorem length_flatMap_text_eq (htime : time.FitsTwoDigits) (hother : other.FitsTwoDigits) {items : List StampItem}
    (hitems : .year ∉ items) :
    (items.flatMap (StampItem.text time)).length = (items.flatMap (StampItem.text other)).length := by
  induction items with
  | nil => rfl
  | cons item items ih =>
    rw [List.mem_cons, not_or] at hitems
    rw [List.flatMap_cons, List.flatMap_cons, List.length_append, List.length_append, ih hitems.2,
      StampItem.length_text_eq htime hother (Ne.symm hitems.1)]

/-- Stamps without a year are equal only if all their parts are. -/
theorem text_eq_of_flatMap_eq (htime : time.FitsTwoDigits) (hother : other.FitsTwoDigits) {items : List StampItem}
    (hitems : .year ∉ items) (heq : items.flatMap (StampItem.text time) = items.flatMap (StampItem.text other)) :
    ∀ item ∈ items, item.text time = item.text other := by
  induction items with
  | nil => simp
  | cons item items ih =>
    rw [List.mem_cons, not_or] at hitems
    rw [List.flatMap_cons, List.flatMap_cons] at heq
    obtain ⟨hfirst, hrest⟩ := List.append_inj heq (StampItem.length_text_eq htime hother (Ne.symm hitems.1))
    exact List.forall_mem_cons.mpr ⟨hfirst, ih hitems.2 hrest⟩

/-- Stamps that start with the year and have all other parts of the time tell times apart. The other parts have the
    same width in both stamps; the year takes what is left. -/
theorem eq_of_stamp_eq (htime : time.FitsTwoDigits) (hother : other.FitsTwoDigits) {items : List StampItem}
    (hyear : .year ∉ items) (hparts : [.month, .day, .hour, .minute, .second] ⊆ items)
    (heq : stamp (.year :: items) time = stamp (.year :: items) other) : time = other := by
  rw [stamp, stamp, String.ofList_inj, List.flatMap_cons, List.flatMap_cons] at heq
  obtain ⟨hfirst, hrest⟩ := List.append_inj' heq (length_flatMap_text_eq htime hother hyear)
  have htexts := text_eq_of_flatMap_eq htime hother hyear hrest
  have hmonth : time.month = other.month := padded_injective 2 (htexts .month (hparts (by simp)))
  have hday : time.day = other.day := padded_injective 2 (htexts .day (hparts (by simp)))
  have hhour : time.hour = other.hour := padded_injective 2 (htexts .hour (hparts (by simp)))
  have hminute : time.minute = other.minute := padded_injective 2 (htexts .minute (hparts (by simp)))
  have hsecond : time.second = other.second := padded_injective 2 (htexts .second (hparts (by simp)))
  have hyears : time.year = other.year := yearText_injective hfirst
  cases time
  cases other
  simp_all

end ExperimentCharts
