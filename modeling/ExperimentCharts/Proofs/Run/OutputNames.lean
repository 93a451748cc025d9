import ExperimentCharts.Area.Data
import ExperimentCharts.Bar.Data
import ExperimentCharts.Line.Data
import ExperimentCharts.Proofs.Calendar.Stamps
import ExperimentCharts.Proofs.Files.Names
import ExperimentCharts.Run.Output

namespace ExperimentCharts

/-- What a run makes. -/
inductive Output where
  | areaChart
  | barChart
  | lineChart
  | areaData
  | barData
deriving DecidableEq

namespace Output

/-- The name of an output: a lead that tells what it is, a time stamp and an ending. -/
def lead : Output → String
  | areaChart => areaKind ++ "-plot."
  | barChart => barKind ++ "-plot."
  | lineChart => lineKind ++ "-plot."
  | areaData => "plot-" ++ "area" ++ "-data."
  | barData => "plot-" ++ "bar" ++ "-data."

def items : Output → List StampItem
  | areaChart | barChart | lineChart => plotStamp
  | areaData | barData => dataStamp

def time (clock : Clock) : Output → DateTime
  | areaChart | barChart | lineChart => Calendar.dateTime clock.instant clock.offset
  | areaData | barData => Calendar.dateTime clock.instant 0

def ending : Output → String
  | areaChart | barChart | lineChart => ".png"
  | areaData | barData => ".csv"

def name (clock : Clock) (output : Output) : String :=
  output.lead ++ stamp output.items (output.time clock) ++ output.ending

theorem take_name (clock : Clock) (output : Output) :
    (output.name clock).toList.take 6 = output.lead.toList.take 6 := by
  have hlead : 6 ≤ output.lead.toList.length := by cases output <;> decide
  rw [name, String.append_assoc, String.toList_append, List.take_append_of_le_length hlead]

/-- Six characters of the leads tell the outputs apart. -/
theorem eq_of_take_lead_eq {output other : Output} (heq : output.lead.toList.take 6 = other.lead.toList.take 6) :
    output = other := by
  cases output <;> cases other <;> first | rfl | exact absurd heq (by decide)

/-- The stamp of a name tells its time, to the second. -/
theorem time_eq_of_stamp_eq {output : Output} {clock later : Clock}
    (heq : stamp output.items (output.time clock) = stamp output.items (output.time later)) :
    output.time clock = output.time later := by
  have hfits (clock : Clock) : (output.time clock).FitsTwoDigits := by
    cases output <;> exact Calendar.fitsTwoDigits_dateTime _ _
  obtain ⟨items, hitems, hyear, hparts⟩ : ∃ items, output.items = .year :: items ∧ .year ∉ items ∧
      [.month, .day, .hour, .minute, .second] ⊆ items := by
    cases output <;> exact ⟨_, rfl, by decide, by decide⟩
  rw [hitems] at heq
  exact eq_of_stamp_eq (hfits clock) (hfits later) hyear hparts heq

/-- Outputs of the same name are of the same kind and second. -/
theorem eq_of_name_eq {output other : Output} {clock later : Clock} (hoffset : clock.offset = later.offset)
    (heq : output.name clock = other.name later) : output = other ∧ clock.instant = later.instant := by
  -- The first six characters tell the kind, so that the stamps are of one format and stand at the same place.
  obtain rfl : output = other := eq_of_take_lead_eq (by rw [← take_name clock, heq, take_name])
  refine ⟨rfl, ?_⟩
  have hstamp : stamp output.items (output.time clock) = stamp output.items (output.time later) := by
    have hchars := congrArg String.toList heq
    simp only [name, String.toList_append, List.append_assoc, List.append_cancel_left_eq,
      List.append_cancel_right_eq, String.toList_inj] at hchars
    exact hchars
  have htime := time_eq_of_stamp_eq hstamp
  cases output <;> simp only [time, hoffset] at htime <;> exact Calendar.dateTime_injective _ htime

theorem slash_not_mem_padded (width n : Nat) : '/' ∉ padded width n :=
  fun hmem => absurd (isDigit_of_mem_padded hmem) (by decide)

theorem slash_not_mem_yearText (year : Int) : '/' ∉ yearText year := by
  unfold yearText
  split
  · exact slash_not_mem_padded _ _
  · rw [List.mem_cons, not_or]
    exact ⟨by split <;> decide, slash_not_mem_padded _ _⟩

/-- A stamp has no slashes unless they are literals of it. -/
theorem slash_not_mem_stamp {items : List StampItem} (hitems : .literal '/' ∉ items) (time : DateTime) :
    '/' ∉ (stamp items time).toList := by
  rw [stamp, String.toList_ofList, List.mem_flatMap]
  rintro ⟨item, hitem, hslash⟩
  cases item with
  | year => exact slash_not_mem_yearText _ hslash
  | literal c =>
    obtain rfl : '/' = c := List.mem_singleton.mp hslash
    exact hitems hitem
  | month | day | hour | minute | second => exact slash_not_mem_padded _ _ hslash

/-- An output name is one name of a path. -/
theorem isProper_name (clock : Clock) (output : Output) : Path.IsProper (output.name clock) := by
  have hstamp : '/' ∉ (stamp output.items (output.time clock)).toList :=
    slash_not_mem_stamp (by cases output <;> decide) _
  have hslash : '/' ∉ output.lead.toList ∧ '/' ∉ output.ending.toList := by cases output <;> decide
  have htake : ∀ other : String, other.toList.length < 6 → output.name clock ≠ other := by
    rintro other hother rfl
    have hlength := congrArg List.length (take_name clock output)
    rw [List.take_of_length_le (by omega), List.length_take] at hlength
    have hlead : 6 ≤ output.lead.toList.length := by cases output <;> decide
    omega
  refine ⟨?_, htake "" (by decide), htake "." (by decide), htake ".." (by decide)⟩
  rw [name, String.toList_append, String.toList_append, List.mem_append, List.mem_append]
  rintro ((hlead | hitems) | hending)
  · exact hslash.1 hlead
  · exact hstamp hitems
  · exact hslash.2 hending

end Output

end ExperimentCharts
