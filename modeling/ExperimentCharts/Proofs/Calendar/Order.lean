import ExperimentCharts.Proofs.Calendar.Stamps

namespace ExperimentCharts

/-- The parts of a time from the year to the second, in the order in which they are compared. -/
def DateTime.parts (time : DateTime) : List Int :=
  [time.year, time.month, time.day, time.hour, time.minute, time.second]

/-- Times are compared part by part, from the year to the second. -/
theorem DateTime.parts_lt_iff (time later : DateTime) :
    time.parts < later.parts ↔ time.year < later.year ∨ time.year = later.year ∧
      (time.month < later.month ∨ time.month = later.month ∧
        (time.day < later.day ∨ time.day = later.day ∧
          (time.hour < later.hour ∨ time.hour = later.hour ∧
            (time.minute < later.minute ∨ time.minute = later.minute ∧ time.second < later.second)))) := by
  simp only [parts, List.cons_lt_cons_iff, List.not_lt_nil, and_false, or_false, Int.ofNat_lt, Int.ofNat_inj]

namespace Calendar

/-- A day lies before the next year of its cycle, if there is one: the last year has the leap day that the other
    centuries lack. -/
theorem lt_yearStart_succ {day : Nat} (hday : day < cycleDays) :
    day < yearStart ((yearOfCycle day).1 + 1) ∨ (yearOfCycle day).1 = 399 := by
  simp only [yearStart, yearOfCycle, centuryDays, periodDays, yearDays, cycleDays] at *
  have hcentury : min 3 (day / 36524) * 36524 ≤ day := by omega
  have hinCentury : day - min 3 (day / 36524) * 36524 < 36524 ∨ min 3 (day / 36524) = 3 := by omega
  have hlast : min 3 (day / 36524) ≤ 3 := Nat.min_le_left _ _
  generalize min 3 (day / 36524) = century at *
  generalize hrest : day - century * 36524 = rest at *
  have hperiod : rest / 1461 ≤ 24 := by omega
  have hinPeriod := Nat.div_add_mod rest 1461
  have hbefore := Nat.mod_lt rest (show 0 < 1461 by decide)
  have hremainder : rest - rest / 1461 * 1461 = rest % 1461 := by omega
  rw [hremainder]
  generalize rest / 1461 = period at *
  generalize rest % 1461 = left at *
  have hyear : min 3 (left / 365) ≤ 3 := Nat.min_le_left _ _
  have hinYear : left < min 3 (left / 365) * 365 + 365 ∨ min 3 (left / 365) = 3 := by omega
  generalize min 3 (left / 365) = year at *
  -- The count of leap days changes after the fourth year of a period, but not after the last one of a century.
  by_cases hfourth : year = 3
  · by_cases hend : period = 24
    · have hquarter : (century * 100 + period * 4 + year + 1) / 4 = century * 25 + 25 := by omega
      have hhundredth : (century * 100 + period * 4 + year + 1) / 100 = century + 1 := by omega
      rw [hquarter, hhundredth]
      omega
    · have hquarter : (century * 100 + period * 4 + year + 1) / 4 = century * 25 + period + 1 := by omega
      have hhundredth : (century * 100 + period * 4 + year + 1) / 100 = century := by omega
      rw [hquarter, hhundredth]
      omega
  · have hquarter : (century * 100 + period * 4 + year + 1) / 4 = century * 25 + period := by omega
    have hhundredth : (century * 100 + period * 4 + year + 1) / 100 = century := by omega
    rw [hquarter, hhundredth]
    omega

theorem yearStart_mono : Monotone yearStart := by
  apply monotone_nat_of_le_succ
  intro year
  unfold yearStart
  omega

/-- A later day of a cycle is in a later year, or in the same year and later there. -/
theorem yearOfCycle_lex {day later : Nat} (hless : day < later) (hlater : later < cycleDays) :
    (yearOfCycle day).1 < (yearOfCycle later).1 ∨
      (yearOfCycle day).1 = (yearOfCycle later).1 ∧ (yearOfCycle day).2 < (yearOfCycle later).2 := by
  have hday := yearStart_yearOfCycle (hless.trans hlater)
  have hstart := yearStart_yearOfCycle hlater
  have hlast := yearOfCycle_fst_lt (hless.trans hlater)
  rcases Nat.lt_trichotomy (yearOfCycle day).1 (yearOfCycle later).1 with hyear | hyear | hyear
  · exact .inl hyear
  · rw [hyear] at hday
    exact .inr ⟨hyear, by omega⟩
  · have hnext := yearStart_mono (show (yearOfCycle later).1 + 1 ≤ (yearOfCycle day).1 from hyear)
    rcases lt_yearStart_succ hlater with hbefore | hend <;> omega

/-- The year and the day of the year of a number of days after the first of January 1970, in years that start in
    March. -/
def marchDate (days : Int) : Int × Nat :=
  let (year, day) := yearOfCycle ((days + epochDays).fmod cycleDays).toNat
  ((days + epochDays).fdiv cycleDays * 400 + year, day)

/-- The date of a day of a year that starts in March. -/
def ofMarchDate (date : Int × Nat) : Int × Nat × Nat :=
  let month := monthOfYear date.2
  if month < 10 then (date.1, month + 3, date.2 - monthStart month + 1)
  else (date.1 + 1, month - 9, date.2 - monthStart month + 1)

theorem date_eq_ofMarchDate (days : Int) : date days = ofMarchDate (marchDate days) := rfl

/-- Later days have a later year or a later day of the same year, in years that start in March. -/
theorem marchDate_lex {days later : Int} (hless : days < later) :
    (marchDate days).1 < (marchDate later).1 ∨
      (marchDate days).1 = (marchDate later).1 ∧ (marchDate days).2 < (marchDate later).2 := by
  have hsplit (n : Int) : n = n.fdiv cycleDays * cycleDays + n.fmod cycleDays := by
    rw [Int.mul_comm, Int.mul_fdiv_add_fmod]
  have hnonneg (n : Int) : 0 ≤ n.fmod cycleDays := Int.fmod_nonneg_of_pos _ (by decide)
  have hlt (n : Int) : n.fmod cycleDays < cycleDays := Int.fmod_lt_of_pos _ (by decide)
  have hdaysSplit := hsplit (days + epochDays)
  have hlaterSplit := hsplit (later + epochDays)
  simp only [marchDate]
  obtain ⟨day, hday⟩ := Int.eq_ofNat_of_zero_le (hnonneg (days + epochDays))
  obtain ⟨day', hday'⟩ := Int.eq_ofNat_of_zero_le (hnonneg (later + epochDays))
  have hinside := hlt (days + epochDays)
  have hinside' := hlt (later + epochDays)
  rw [hday] at hdaysSplit hinside ⊢
  rw [hday'] at hlaterSplit hinside' ⊢
  rw [Int.toNat_natCast, Int.toNat_natCast]
  have hyear := yearOfCycle_fst_lt (Int.ofNat_lt.mp hinside)
  rcases Int.lt_trichotomy ((days + epochDays).fdiv cycleDays) ((later + epochDays).fdiv cycleDays) with
    hcycle | hcycle | hcycle
  · exact .inl (by omega)
  · rw [hcycle] at hdaysSplit ⊢
    have hlex := yearOfCycle_lex (show day < day' by omega) (Int.ofNat_lt.mp hinside')
    omega
  · simp only [cycleDays] at *
    omega

/-- A year that starts in March ends in February, so that its last two months are in the next calendar year. -/
theorem ofMarchDate_lex {first second : Int × Nat} (hfirst : first.2 < 366) (hsecond : second.2 < 366)
    (hlex : first.1 < second.1 ∨ first.1 = second.1 ∧ first.2 < second.2) :
    (ofMarchDate first).1 < (ofMarchDate second).1 ∨ (ofMarchDate first).1 = (ofMarchDate second).1 ∧
      ((ofMarchDate first).2.1 < (ofMarchDate second).2.1 ∨ (ofMarchDate first).2.1 = (ofMarchDate second).2.1 ∧
        (ofMarchDate first).2.2 < (ofMarchDate second).2.2) := by
  have hmonth (day : Nat) (hday : day < 366) : monthOfYear day ≤ 11 ∧ monthStart (monthOfYear day) ≤ day := by
    unfold monthOfYear monthStart
    omega
  have hmono : first.2 < second.2 → monthOfYear first.2 ≤ monthOfYear second.2 := by
    unfold monthOfYear
    omega
  obtain ⟨hlast, hstart⟩ := hmonth _ hfirst
  obtain ⟨hlast', hstart'⟩ := hmonth _ hsecond
  have hsame : monthOfYear first.2 = monthOfYear second.2 →
      monthStart (monthOfYear first.2) = monthStart (monthOfYear second.2) := congrArg monthStart
  simp only [ofMarchDate]
  generalize monthStart (monthOfYear first.2) = start at *
  generalize monthStart (monthOfYear second.2) = start' at *
  generalize monthOfYear first.2 = month at *
  generalize monthOfYear second.2 = month' at *
  split <;> split <;> dsimp only <;> omega

theorem date_lex {days later : Int} (hless : days < later) :
    (date days).1 < (date later).1 ∨ (date days).1 = (date later).1 ∧
      ((date days).2.1 < (date later).2.1 ∨ (date days).2.1 = (date later).2.1 ∧
        (date days).2.2 < (date later).2.2) := by
  rw [date_eq_ofMarchDate, date_eq_ofMarchDate]
  exact ofMarchDate_lex (yearOfCycle_snd_lt _) (yearOfCycle_snd_lt _) (marchDate_lex hless)

/-- Within a day, later seconds have later times. -/
theorem time_lex {time later : Nat} (hless : time < later) :
    time / 3600 < later / 3600 ∨ time / 3600 = later / 3600 ∧
      (time / 60 % 60 < later / 60 % 60 ∨ time / 60 % 60 = later / 60 % 60 ∧ time % 60 < later % 60) := by
  omega

/-- In one zone, a later instant has a later date and time. -/
theorem parts_dateTime_lt {instant later : Int} (offset : Int) (hless : instant < later) :
    (dateTime instant offset).parts < (dateTime later offset).parts := by
  have hsplit (n : Int) : n = n.fdiv 86400 * 86400 + n.fmod 86400 ∧ 0 ≤ n.fmod 86400 ∧ n.fmod 86400 < 86400 := by
    refine ⟨?_, Int.fmod_nonneg_of_pos _ (by decide), Int.fmod_lt_of_pos _ (by decide)⟩
    rw [Int.mul_comm, Int.mul_fdiv_add_fmod]
  obtain ⟨hinstant, hnonneg, hlt⟩ := hsplit (instant + offset)
  obtain ⟨hlater, hnonneg', hlt'⟩ := hsplit (later + offset)
  obtain ⟨first, hfirst, hdateTime⟩ := exists_dateTime_eq instant offset
  obtain ⟨second, hsecond, hdateTime'⟩ := exists_dateTime_eq later offset
  rw [DateTime.parts_lt_iff, hdateTime, hdateTime']
  rcases Int.lt_trichotomy ((instant + offset).fdiv 86400) ((later + offset).fdiv 86400) with hday | hday | hday
  · have hdate := date_lex hday
    rw [hfirst, hsecond] at hdate
    rcases hdate with hyear | ⟨hyear, hmonth | ⟨hmonth, hdate⟩⟩
    · exact .inl hyear
    · exact .inr ⟨hyear, .inl hmonth⟩
    · exact .inr ⟨hyear, .inr ⟨hmonth, .inl hdate⟩⟩
  · have htime : ((instant + offset).fmod 86400).toNat < ((later + offset).fmod 86400).toNat := by omega
    obtain rfl : first = second := by rw [← hfirst, ← hsecond, hday]
    exact .inr ⟨rfl, .inr ⟨rfl, .inr ⟨rfl, time_lex htime⟩⟩⟩
  · omega

end Calendar

namespace Binary64

theorem digitsValue_cons (c : Char) (cs : List Char) :
    digitsValue (c :: cs) = (c.toNat - '0'.toNat) * 10 ^ cs.length + digitsValue cs := by
  rw [digitsValue_eq_ofDigitChars, digitsValue_eq_ofDigitChars, Nat.ofDigitChars_cons,
    Nat.ofDigitChars_eq_ofDigitChars_zero, Nat.mul_zero, Nat.zero_add, Nat.mul_comm]

/-- Digits denote less than the power of ten of their number. -/
theorem digitsValue_lt {digits : List Char} (hdigits : ∀ c ∈ digits, c.isDigit = true) :
    digitsValue digits < 10 ^ digits.length := by
  induction digits with
  | nil => decide
  | cons c cs ih =>
    rw [List.forall_mem_cons, Char.isDigit_iff_toNat] at hdigits
    obtain ⟨⟨-, hnine⟩, hdigits⟩ := hdigits
    have hrest := ih hdigits
    have hfirst : c.toNat - '0'.toNat ≤ 9 := Nat.sub_le_sub_right hnine _
    have hscaled := Nat.mul_le_mul_right (10 ^ cs.length) hfirst
    rw [digitsValue_cons, List.length_cons, Nat.pow_succ]
    omega

/-- Of two rows of digits of one length, the one of less value sorts first. -/
theorem lt_of_digitsValue_lt {digits others : List Char} (hdigits : ∀ c ∈ digits, c.isDigit = true)
    (hothers : ∀ c ∈ others, c.isDigit = true) (hlength : digits.length = others.length)
    (hless : digitsValue digits < digitsValue others) : digits < others := by
  induction digits generalizing others with
  | nil =>
    obtain rfl := List.eq_nil_of_length_eq_zero hlength.symm
    exact absurd hless (Nat.lt_irrefl _)
  | cons c cs ih =>
    obtain ⟨d, ds, rfl⟩ := List.exists_cons_of_length_eq_add_one hlength.symm
    rw [List.forall_mem_cons, Char.isDigit_iff_toNat] at hdigits hothers
    rw [List.length_cons, List.length_cons, Nat.succ_inj] at hlength
    rw [digitsValue_cons, digitsValue_cons, hlength] at hless
    rw [List.cons_lt_cons_iff]
    rcases Nat.lt_trichotomy c.toNat d.toNat with hbefore | hsame | hafter
    · exact .inl (Char.lt_def.mpr hbefore)
    · rw [hsame] at hless
      exact .inr ⟨Char.toNat_inj.mp hsame, ih hdigits.2 hothers.2 hlength (by omega)⟩
    · -- A greater first digit outweighs all the others.
      have hrest := digitsValue_lt hothers.2
      have hfirst : d.toNat - '0'.toNat + 1 ≤ c.toNat - '0'.toNat := by omega
      have hscaled := Nat.mul_le_mul_right (10 ^ ds.length) hfirst
      rw [Nat.succ_mul] at hscaled
      omega

end Binary64

/-- Padded to the same width, numbers are ordered as texts. -/
theorem padded_lt_padded {width n m : Nat} (hwidth : 0 < width) (hless : n < m) (hm : m < 10 ^ width) :
    padded width n < padded width m := by
  apply Binary64.lt_of_digitsValue_lt (fun _ => isDigit_of_mem_padded) fun _ => isDigit_of_mem_padded
  · rw [length_padded hwidth (hless.trans hm), length_padded hwidth hm]
  · rwa [digitsValue_padded, digitsValue_padded]

/-- Texts of one length keep their order, whatever follows them. -/
theorem append_lt_append_of_length_eq {cs ds : List Char} (rest rest' : List Char) (hlength : cs.length = ds.length)
    (hless : cs < ds) : cs ++ rest < ds ++ rest' := by
  induction cs generalizing ds with
  | nil =>
    obtain rfl := List.eq_nil_of_length_eq_zero hlength.symm
    exact absurd hless (List.lt_irrefl _)
  | cons c cs ih =>
    obtain ⟨d, ds, rfl⟩ := List.exists_cons_of_length_eq_add_one hlength.symm
    rw [List.length_cons, List.length_cons, Nat.succ_inj] at hlength
    rw [List.cons_lt_cons_iff] at hless
    rw [List.cons_append, List.cons_append, List.cons_lt_cons_iff]
    exact hless.imp_right fun hrest => ⟨hrest.1, ih hlength hrest.2⟩

/-- The year of a time has four digits in a stamp, and no sign. -/
def DateTime.InStampYears (time : DateTime) : Prop := 0 ≤ time.year ∧ time.year ≤ 9999

instance (time : DateTime) : Decidable time.InStampYears := inferInstanceAs (Decidable (_ ∧ _))

/-- A time whose stamp has the same width in every part as all others. -/
structure DateTime.FitsStamp (time : DateTime) : Prop extends time.FitsTwoDigits where
  years : time.InStampYears

/-- In the years of four digits every instant is such a time. -/
theorem Calendar.fitsStamp_dateTime {instant offset : Int} (hyears : (dateTime instant offset).InStampYears) :
    (dateTime instant offset).FitsStamp :=
  ⟨fitsTwoDigits_dateTime instant offset, hyears⟩

namespace StampItem

/-- What an item says of a time. -/
def number (time : DateTime) : StampItem → Int
  | .year => time.year
  | .month => time.month
  | .day => time.day
  | .hour => time.hour
  | .minute => time.minute
  | .second => time.second
  | .literal _ => 0

/-- How many characters an item has in the stamp of a time that fits. -/
def width : StampItem → Nat
  | .year => 4
  | .literal _ => 1
  | .month | .day | .hour | .minute | .second => 2

variable {time later : DateTime}

/-- All items but the literals are padded to their width. -/
theorem text_eq_padded (htime : time.FitsStamp) (item : StampItem) :
    (∃ c, item = .literal c) ∨
      ∃ n : Nat, item.number time = n ∧ n < 10 ^ item.width ∧ item.text time = padded item.width n := by
  cases item with
  | literal c => exact .inl ⟨c, rfl⟩
  | year =>
    obtain ⟨hnonneg, hle⟩ := htime.years
    refine .inr ⟨time.year.natAbs, ?_, ?_, ?_⟩
    · exact (Int.natAbs_of_nonneg hnonneg).symm
    · rw [width]
      omega
    · rw [text, yearText, if_pos ⟨hnonneg, hle⟩, width]
  | month => exact .inr ⟨_, rfl, htime.month, rfl⟩
  | day => exact .inr ⟨_, rfl, htime.day, rfl⟩
  | hour => exact .inr ⟨_, rfl, htime.hour, rfl⟩
  | minute => exact .inr ⟨_, rfl, htime.minute, rfl⟩
  | second => exact .inr ⟨_, rfl, htime.second, rfl⟩

theorem width_pos (item : StampItem) : 0 < item.width := by
  cases item <;> simp [width]

theorem length_text (htime : time.FitsStamp) (item : StampItem) : (item.text time).length = item.width := by
  rcases text_eq_padded htime item with ⟨c, rfl⟩ | ⟨n, -, hn, htext⟩
  · rfl
  · rw [htext, length_padded item.width_pos hn]

/-- The texts of an item are in the order of its numbers. -/
theorem text_lt_or_eq (htime : time.FitsStamp) (hlater : later.FitsStamp) (item : StampItem) :
    (item.number time < item.number later → item.text time < item.text later) ∧
      (item.number time = item.number later → item.text time = item.text later) := by
  rcases text_eq_padded htime item with ⟨c, rfl⟩ | ⟨n, hnumber, hn, htext⟩
  · exact ⟨fun hless => absurd hless (Int.lt_irrefl 0), fun _ => rfl⟩
  · rcases text_eq_padded hlater item with ⟨c, rfl⟩ | ⟨m, hnumber', hm, htext'⟩
    · exact ⟨fun hless => absurd hless (Int.lt_irrefl 0), fun _ => rfl⟩
    · rw [hnumber, hnumber', htext, htext']
      refine ⟨fun hless => padded_lt_padded item.width_pos (Int.ofNat_lt.mp hless) hm, fun heq => ?_⟩
      rw [Int.ofNat_inj.mp heq]

/-- Stamps of the same items sort by the first number in which the times differ. -/
theorem flatMap_text_lt (htime : time.FitsStamp) (hlater : later.FitsStamp) {items : List StampItem}
    (hless : items.map (number time) < items.map (number later)) :
    items.flatMap (text time) < items.flatMap (text later) := by
  induction items with
  | nil => exact absurd hless (List.lt_irrefl _)
  | cons item items ih =>
    obtain ⟨htext, hsame⟩ := text_lt_or_eq htime hlater item
    rw [List.map_cons, List.map_cons, List.cons_lt_cons_iff] at hless
    rw [List.flatMap_cons, List.flatMap_cons]
    rcases hless with hfirst | ⟨hfirst, hrest⟩
    · apply append_lt_append_of_length_eq _ _ _ (htext hfirst)
      rw [length_text htime, length_text hlater]
    · rw [hsame hfirst]
      exact List.append_left_lt (ih hrest)

end StampItem

theorem length_stamp {time : DateTime} (htime : time.FitsStamp) (items : List StampItem) :
    (stamp items time).length = (items.map StampItem.width).sum := by
  rw [stamp, ← String.length_toList, String.toList_ofList, List.length_flatMap]
  congr 1
  exact List.map_congr_left fun item _ => item.length_text htime

/-- Stamps are ordered by the numbers in them, part by part. -/
theorem stamp_lt_stamp {time later : DateTime} (htime : time.FitsStamp) (hlater : later.FitsStamp)
    {items : List StampItem} (hless : items.map (StampItem.number time) < items.map (StampItem.number later)) :
    stamp items time < stamp items later := by
  rw [String.lt_iff, stamp, stamp, String.toList_ofList, String.toList_ofList]
  exact StampItem.flatMap_text_lt htime hlater hless

/-- The stamps of charts and of data have the parts of a time in order, with literals between them. -/
theorem map_number_lt {time later : DateTime} (hless : time.parts < later.parts) :
    plotStamp.map (StampItem.number time) < plotStamp.map (StampItem.number later) ∧
      dataStamp.map (StampItem.number time) < dataStamp.map (StampItem.number later) := by
  constructor
  · simpa [plotStamp, StampItem.number, DateTime.parts, List.cons_lt_cons_iff] using hless
  · simpa [dataStamp, StampItem.number, DateTime.parts, List.cons_lt_cons_iff] using hless

end ExperimentCharts
