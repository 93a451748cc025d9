namespace ExperimentCharts

/-- A day and a time of day. -/
structure DateTime where
  year : Int
  month : Nat
  day : Nat
  hour : Nat
  minute : Nat
  second : Nat
deriving DecidableEq

namespace Calendar

/-- The days of a cycle of 400 years, of a century, of four years and of one. -/
def cycleDays : Nat := 146097
def centuryDays : Nat := 36524
def periodDays : Nat := 1461
def yearDays : Nat := 365

/-- The days from the first of March of the year zero to the first of January 1970. -/
def epochDays : Int := 719468

/-- The year within a cycle, and the day within that year, of a day of the cycle. A cycle is split into
    centuries, these into four-year periods and these into years. The last century of a cycle and the
    last year of a period are a day longer, so the counts stop at three. -/
def yearOfCycle (day : Nat) : Nat × Nat :=
  let century := min 3 (day / centuryDays)
  let day := day - century * centuryDays
  let period := day / periodDays
  let day := day - period * periodDays
  let year := min 3 (day / yearDays)
  (century * 100 + period * 4 + year, day - year * yearDays)

/-- The first day of each month in a year that starts in March, which is month 0. -/
def monthStart (month : Nat) : Nat := (153 * month + 2) / 5

/-- The month, counted from March, of a day of the year. -/
def monthOfYear (day : Nat) : Nat := (5 * day + 2) / 153

/-- The year, month and day of a number of days after the first of January 1970, in the proleptic
    Gregorian calendar. Years are counted from March, so that the leap day is the last day of a year. -/
def date (days : Int) : Int × Nat × Nat :=
  let days := days + epochDays
  let cycle := days.fdiv cycleDays
  let (year, day) := yearOfCycle (days.fmod cycleDays).toNat
  let month := monthOfYear day
  let year := cycle * 400 + year
  if month < 10 then (year, month + 3, day - monthStart month + 1)
  else (year + 1, month - 9, day - monthStart month + 1)

/-- The date and time of an instant, in seconds after 1970 in UTC, where clocks show `offset` seconds
    more than UTC. -/
def dateTime (instant offset : Int) : DateTime :=
  let seconds := instant + offset
  let time := (seconds.fmod 86400).toNat
  let (year, month, day) := date (seconds.fdiv 86400)
  ⟨year, month, day, time / 3600, time / 60 % 60, time % 60⟩

end Calendar

/-- A part of a time stamp. -/
inductive StampItem where
  | year
  | month
  | day
  | hour
  | minute
  | second
  | literal (c : Char)
deriving DecidableEq

namespace StampItem

/-- The items of a format in which a percent sign and a letter stand for a part of the time; there are
    none if another character follows a percent sign, or nothing. -/
def ofFormat? : List Char → Option (List StampItem)
  | [] => some []
  | '%' :: letter :: rest => do
    let item ← match letter with
      | 'Y' => some year
      | 'm' => some month
      | 'd' => some day
      | 'H' => some hour
      | 'M' => some minute
      | 'S' => some second
      | '%' => some (literal '%')
      | _ => none
    return item :: (← ofFormat? rest)
  | c :: rest => if c = '%' then none else do return literal c :: (← ofFormat? rest)

end StampItem

/-- A number of at least `width` digits. -/
def padded (width n : Nat) : List Char :=
  let digits := (toString n).toList
  List.replicate (width - digits.length) '0' ++ digits

/-- A year of four digits; other years have a sign and at least four digits. -/
def yearText (year : Int) : List Char :=
  if 0 ≤ year ∧ year ≤ 9999 then padded 4 year.natAbs
  else (if year < 0 then '-' else '+') :: padded 4 year.natAbs

/-- The text of an item. -/
def StampItem.text (time : DateTime) : StampItem → List Char
  | .year => yearText time.year
  | .month => padded 2 time.month
  | .day => padded 2 time.day
  | .hour => padded 2 time.hour
  | .minute => padded 2 time.minute
  | .second => padded 2 time.second
  | .literal c => [c]

/-- The time stamp of the given items. -/
def stamp (items : List StampItem) (time : DateTime) : String :=
  String.ofList (items.flatMap (StampItem.text time))

/-- The format of the time stamps in the names of charts, and its items. -/
def plotFormat : String := "%Y%m%d_%H%M%S"

def plotStamp : List StampItem :=
  [.year, .month, .day, .literal '_', .hour, .minute, .second]

example : StampItem.ofFormat? plotFormat.toList = some plotStamp := by
  decide

/-- The format of the time stamps in the names of extracted data, and its items. -/
def dataFormat : String := "%Y-%m-%d-%H-%M-%S"

def dataStamp : List StampItem :=
  [.year, .literal '-', .month, .literal '-', .day, .literal '-', .hour, .literal '-', .minute,
   .literal '-', .second]

example : StampItem.ofFormat? dataFormat.toList = some dataStamp := by
  decide

end ExperimentCharts
