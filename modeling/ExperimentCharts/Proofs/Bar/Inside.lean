import ExperimentCharts.Proofs.Bar.Overlap
import ExperimentCharts.Proofs.Binary64.Error
import ExperimentCharts.Proofs.Table.LossyColumns

namespace ExperimentCharts

open Binary64

/-- A number between the two ends of a range. -/
def Inside (range : Binary64 × Binary64) (x : Binary64) : Prop := range.1 ≤ x ∧ x ≤ range.2

/-- The width of a bar as a number of the format. -/
theorem barWidth_within : barWidth.Within 0.15 (1 / 2 ^ 12) := by
  have hwithin := @within_ofDecimal 15 2 (by decide) (by decide)
  exact hwithin.weaken (by norm_num)

theorem groupGap_within : groupGap.Within 0.05 (1 / 2 ^ 12) := by
  have hwithin := @within_ofDecimal 5 2 (by decide) (by decide)
  exact hwithin.weaken (by norm_num)

/-- The margin of the frame, which is wider than all the errors together. -/
theorem margin_within : (0.3 : Binary64).Within 0.3 (1 / 2 ^ 12) := by
  have hwithin := @within_ofDecimal 3 1 (by decide) (by decide)
  exact hwithin.weaken (by norm_num)

theorem halfWidth_within : (barWidth / 2).Within 0.075 (2 / 2 ^ 12) := by
  have hwidth := barWidth_within
  have hupper := hwidth.le_add
  have hlower := hwidth.sub_le
  have hhalf := within_div_natCast (n := 2) hwidth.isFinite (by decide) (by decide)
    (abs_le.mpr (by push_cast; constructor <;> linarith))
  push_cast at hhalf
  exact hhalf.weaken (abs_le.mpr (by constructor <;> linarith))

theorem barWidth_pos : 0 < barWidth := barWidth_within.pos (by norm_num)

theorem groupGap_pos : 0 < groupGap := groupGap_within.pos (by norm_num)

/-- The two terms of an offset do not overflow. -/
theorem isFinite_offset_terms {index : Nat} (hindex : index ≤ 2 ^ 40) :
    ((index : Binary64) * barWidth).isFinite = true ∧
      (groupGap * (((index + 1) / 2 : Nat) : Binary64)).isFinite = true := by
  have hgaps : (index + 1) / 2 ≤ 2 ^ 40 := by omega
  constructor
  · exact isFinite_of_le_of_le
      (natCast_mul_le (Nat.zero_le index) (by omega) barWidth_pos barWidth_within.isFinite).1
      (natCast_mul_le hindex (by decide) barWidth_pos barWidth_within.isFinite).1 (by decide +kernel) (by decide +kernel)
  · exact isFinite_of_le_of_le
      (natCast_mul_le (Nat.zero_le _) (by omega) groupGap_pos groupGap_within.isFinite).2
      (natCast_mul_le hgaps (by decide) groupGap_pos groupGap_within.isFinite).2 (by decide +kernel) (by decide +kernel)

/-- The bars of an application stand in the order of their experiments. -/
theorem barOffset_le_barOffset {index other : Nat} (hle : index ≤ other) (hother : other ≤ 2 ^ 40) :
    barOffset barWidth groupGap index ≤ barOffset barWidth groupGap other := by
  obtain ⟨hbars, hgaps⟩ := isFinite_offset_terms (hle.trans hother)
  obtain ⟨hbars', hgaps'⟩ := isFinite_offset_terms hother
  rw [barOffset, barOffset]
  exact add_le_add hbars hgaps hbars' hgaps'
    (natCast_mul_le hle (by omega) barWidth_pos barWidth_within.isFinite).1
    (natCast_mul_le (by omega) (by omega) groupGap_pos groupGap_within.isFinite).2

theorem barOffset_zero : barOffset barWidth groupGap 0 = 0 := by decide +kernel

/-- An offset is finite, and not negative. -/
theorem barOffset_bounds {index : Nat} (hindex : index ≤ 2 ^ 40) :
    (barOffset barWidth groupGap index).isFinite = true ∧ 0 ≤ (barOffset barWidth groupGap index).toReal ∧
      (barOffset barWidth groupGap index).toReal ≤ 2 ^ 38 := by
  have hlower := barOffset_le_barOffset (Nat.zero_le index) hindex
  rw [barOffset_zero] at hlower
  have hlargest : barOffset barWidth groupGap (2 ^ 40) ≤ ((2 ^ 38 : Nat) : Binary64) := by decide +kernel
  have hupper := le_of_le_of_le (barOffset_le_barOffset hindex le_rfl) hlargest
  have hnan := (isNaN_of_le hlower).2
  have hbound := (le_iff_toReal hnan (isNaN_of_le hupper).2).mp hupper
  rw [toReal_natCast (by decide)] at hbound
  have hnonneg := (le_iff_toReal (isNaN_of_le hlower).1 hnan).mp hlower
  rw [toReal_zero] at hnonneg
  exact ⟨isFinite_of_le_of_le hlower hupper (by decide +kernel) (isFinite_natCast (by decide)), hnonneg,
    by exact_mod_cast hbound⟩

namespace BarLayout

variable {columns : Nat} {width gap : Binary64}

theorem mem_offsets_iff {offset : Binary64} :
    offset ∈ (ofColumns columns width gap).offsets ↔ ∃ index < columns, barOffset width gap index = offset := by
  simp [ofColumns]

theorem head?_offsets (hcolumns : 0 < columns) :
    (ofColumns columns width gap).offsets.head? = some (barOffset width gap 0) := by
  simp [ofColumns, List.head?_range, hcolumns.ne']

theorem getLast?_offsets (hcolumns : 0 < columns) :
    (ofColumns columns width gap).offsets.getLast? = some (barOffset width gap (columns - 1)) := by
  simp [ofColumns, List.getLast?_range, hcolumns.ne']

/-- The label of an application stands between its first and its last bar. -/
theorem center_eq (hcolumns : 0 < columns) :
    (ofColumns columns width gap).center = (barOffset width gap 0 + barOffset width gap (columns - 1)) / 2 := by
  rw [center, head?_offsets hcolumns, getLast?_offsets hcolumns]

/-- The bars of an application reach from the left edge of the first to the right edge of the last. -/
theorem span_eq (hcolumns : 0 < columns) :
    (ofColumns columns width gap).span =
      (barOffset width gap 0 - width / 2, barOffset width gap (columns - 1) + width / 2) := by
  rw [span, head?_offsets hcolumns, getLast?_offsets hcolumns]
  rfl

section

variable (hcolumns : columns ≤ 2 ^ 40)

include hcolumns

/-- The bars of an application stand in order, which rounding keeps. -/
theorem pairwise_offsets : (ofColumns columns barWidth groupGap).offsets.Pairwise (· ≤ ·) := by
  rw [ofColumns, List.pairwise_map]
  apply List.pairwise_lt_range.imp_of_mem
  intro index other _ hother hless
  have hinside := List.mem_range.mp hother
  exact barOffset_le_barOffset hless.le (by omega)

theorem center_mem (hpositive : 0 < columns) :
    barOffset barWidth groupGap 0 ≤ (ofColumns columns barWidth groupGap).center ∧
      (ofColumns columns barWidth groupGap).center ≤ barOffset barWidth groupGap (columns - 1) := by
  have hlast : columns - 1 ≤ 2 ^ 40 := by omega
  obtain ⟨hfirst, hfirst0, hfirst1⟩ := barOffset_bounds (Nat.zero_le (2 ^ 40))
  obtain ⟨hfinite, hnonneg, hbound⟩ := barOffset_bounds hlast
  have hsum := isFinite_add hfirst hfinite (abs_le.mpr (by constructor <;> linarith))
  rw [center_eq hpositive]
  exact add_div_two_mem hfirst hfinite (barOffset_le_barOffset (Nat.zero_le _) hlast)
    (isInfinite_of_isFinite hsum)

/-- The edges of every bar lie between the outer edges of the first and the last one. -/
theorem edges_inside {offset : Binary64} (hoffset : offset ∈ (ofColumns columns barWidth groupGap).offsets) :
    Inside (ofColumns columns barWidth groupGap).span (offset - barWidth / 2) ∧
      Inside (ofColumns columns barWidth groupGap).span (offset + barWidth / 2) := by
  obtain ⟨index, hindex, rfl⟩ := mem_offsets_iff.mp hoffset
  have hlast : columns - 1 ≤ 2 ^ 40 := by omega
  have hhalf := halfWidth_within.isFinite
  have hnonneg : 0 ≤ (barWidth / 2).toReal := by linarith [halfWidth_within.sub_le]
  obtain ⟨hfirst, -⟩ := barOffset_bounds (Nat.zero_le (2 ^ 40))
  obtain ⟨hfinite, -⟩ := barOffset_bounds (show index ≤ 2 ^ 40 by omega)
  obtain ⟨hfinite', -⟩ := barOffset_bounds hlast
  have hleft := sub_le_sub hfirst hhalf hfinite (barOffset_le_barOffset (Nat.zero_le index) (by omega))
  have hedges := sub_le_add hfinite hhalf hnonneg
  have hright := add_le_add hfinite hhalf hfinite' hhalf
    (barOffset_le_barOffset (show index ≤ columns - 1 by omega) hlast) (le_self (isNaN_of_isFinite hhalf))
  rw [span_eq (by omega)]
  exact ⟨⟨hleft, le_of_le_of_le hedges hright⟩, le_of_le_of_le hleft hedges, hright⟩

end

/-- What the frame of a chart relies on. -/
structure Fits (layout : BarLayout) : Prop where
  width_eq : layout.width = barWidth
  isFinite_left : layout.span.1.isFinite = true
  isFinite_right : layout.span.2.isFinite = true
  isFinite_center : layout.center.isFinite = true
  isFinite_offset : ∀ offset ∈ layout.offsets, offset.isFinite = true
  left_bounds : -1 ≤ layout.span.1.toReal ∧ layout.span.1.toReal ≤ 0
  right_le : layout.span.2.toReal ≤ 2 ^ 38 + 1
  center_bounds : 0 ≤ layout.center.toReal ∧ layout.center.toReal ≤ layout.span.2.toReal
  offset_bounds : ∀ offset ∈ layout.offsets, 0 ≤ offset.toReal ∧ offset.toReal ≤ layout.span.2.toReal

/-- Without experiments there is nothing to fit. -/
theorem fits_zero : (ofColumns 0 barWidth groupGap).Fits where
  width_eq := rfl
  isFinite_left := isFinite_natCast (n := 0) (by decide)
  isFinite_right := isFinite_natCast (n := 0) (by decide)
  isFinite_center := isFinite_natCast (n := 0) (by decide)
  isFinite_offset _ hoffset := absurd hoffset List.not_mem_nil
  left_bounds := by
    change -1 ≤ (0 : Binary64).toReal ∧ (0 : Binary64).toReal ≤ 0
    norm_num [toReal_zero]
  right_le := by
    change (0 : Binary64).toReal ≤ 2 ^ 38 + 1
    norm_num [toReal_zero]
  center_bounds := ⟨toReal_zero.ge, le_rfl⟩
  offset_bounds _ hoffset := absurd hoffset List.not_mem_nil

section

variable (hpositive : 0 < columns)

include hpositive

theorem left_within : (ofColumns columns barWidth groupGap).span.1.Within (-0.075) (3 / 2 ^ 12) := by
  have hfirst := within_natCast (n := 0) (by decide)
  have hleft := hfirst.sub halfWidth_within (by norm_num)
  rw [span_eq hpositive, barOffset_zero]
  exact hleft.weaken (by norm_num)

variable (hcolumns : columns ≤ 2 ^ 40)

include hcolumns

theorem right_within :
    (ofColumns columns barWidth groupGap).span.2.Within ((barOffset barWidth groupGap (columns - 1)).toReal + 0.075)
      (3 / 2 ^ 12) := by
  obtain ⟨hfinite, hnonneg, hbound⟩ := barOffset_bounds (show columns - 1 ≤ 2 ^ 40 by omega)
  have hright := (within_toReal hfinite).add halfWidth_within (abs_le.mpr (by constructor <;> linarith))
  rw [span_eq hpositive]
  exact hright.weaken (by norm_num)

/-- A layout with bars fits, up to 2⁴⁰ of them. -/
theorem fits_of_pos : (ofColumns columns barWidth groupGap).Fits := by
  have hlast : columns - 1 ≤ 2 ^ 40 := by omega
  obtain ⟨hfinite, hnonneg, hbound⟩ := barOffset_bounds hlast
  obtain ⟨hcenter, hcenter'⟩ := center_mem hcolumns hpositive
  have hleft := left_within hpositive
  have hright := right_within hpositive hcolumns
  have hmiddle := isFinite_of_le_of_le hcenter hcenter' (barOffset_bounds (Nat.zero_le _)).1 hfinite
  rw [barOffset_zero] at hcenter
  rw [le_iff_toReal (isNaN_of_le hcenter).1 (isNaN_of_isFinite hmiddle), toReal_zero] at hcenter
  rw [le_iff_toReal (isNaN_of_isFinite hmiddle) (isNaN_of_isFinite hfinite)] at hcenter'
  refine ⟨rfl, hleft.isFinite, hright.isFinite, hmiddle, ?_, ?_, ?_, ?_, ?_⟩
  · intro offset hoffset
    obtain ⟨index, hindex, rfl⟩ := mem_offsets_iff.mp hoffset
    exact (barOffset_bounds (by omega)).1
  · constructor <;> linarith [hleft.sub_le, hleft.le_add]
  · linarith [hright.le_add]
  · exact ⟨hcenter, by linarith [hright.sub_le]⟩
  · intro offset hoffset
    obtain ⟨index, hindex, rfl⟩ := mem_offsets_iff.mp hoffset
    obtain ⟨hfinite', hnonneg', -⟩ := barOffset_bounds (show index ≤ 2 ^ 40 by omega)
    have hle := barOffset_le_barOffset (show index ≤ columns - 1 by omega) hlast
    rw [le_iff_toReal (isNaN_of_isFinite hfinite') (isNaN_of_isFinite hfinite)] at hle
    exact ⟨hnonneg', by linarith [hright.sub_le]⟩

end

theorem fits_ofColumns (hcolumns : columns ≤ 2 ^ 40) : (ofColumns columns barWidth groupGap).Fits := by
  rcases Nat.eq_zero_or_pos columns with rfl | hpositive
  · exact fits_zero
  · exact fits_of_pos hpositive hcolumns

end BarLayout

namespace BarData

section Frame

variable {data : BarData} {layout : BarLayout} {x : Binary64} {value error : ℝ}
  (hfits : layout.Fits) (hfew : data.applications.length < 2 ^ 40)

include hfits hfew

/-- The ends of the frame, with the roundings that lead to them. -/
theorem xRange_within :
    (data.xRange layout).1.Within (layout.span.1.toReal - 0.3) (2 / 2 ^ 12) ∧
      (data.xRange layout).2.Within ((data.applications.length - 1 : Nat) + layout.span.2.toReal + 0.3)
        (3 / 2 ^ 12) := by
  obtain ⟨hleft, hleft'⟩ := hfits.left_bounds
  have hnonneg := hfits.center_bounds.1.trans hfits.center_bounds.2
  have hright := hfits.right_le
  have hlast : ((data.applications.length - 1 : Nat) : ℝ) ≤ 2 ^ 40 := by exact_mod_cast (by omega)
  have hlast' : (0 : ℝ) ≤ (data.applications.length - 1 : Nat) := Nat.cast_nonneg _
  have hlower := (within_toReal hfits.isFinite_left).sub margin_within (abs_le.mpr (by constructor <;> linarith))
  have hsum := (within_natCast (n := data.applications.length - 1) (by omega)).add
    (within_toReal hfits.isFinite_right) (abs_le.mpr (by constructor <;> linarith))
  have hupper := hsum.add margin_within (abs_le.mpr (by constructor <;> linarith))
  exact ⟨hlower.weaken (by norm_num), hupper.weaken (by norm_num)⟩

/-- What reaches at most a quarter beyond the bars is inside the frame, with its errors. -/
theorem inside_xRange (hx : x.Within value error) (herror : error ≤ 6 / 2 ^ 12)
    (hlower : layout.span.1.toReal - 1 / 4 ≤ value)
    (hupper : value ≤ (data.applications.length - 1 : Nat) + layout.span.2.toReal + 1 / 4) :
    Inside (data.xRange layout) x := by
  obtain ⟨hleft, hright⟩ := xRange_within hfits hfew
  exact ⟨hleft.le hx (by linarith), hx.le hright (by linarith)⟩

omit hfew in
/-- The place of a label, with one rounding. -/
theorem label_within {index : Nat} (hindex : index < 2 ^ 40) :
    ((index : Binary64) + layout.center).Within (index + layout.center.toReal) (1 / 2 ^ 12) := by
  obtain ⟨hcenter, hcenter'⟩ := hfits.center_bounds
  have hright := hfits.right_le
  have hcast : (index : ℝ) ≤ 2 ^ 40 := by exact_mod_cast hindex.le
  have hcast' : (0 : ℝ) ≤ index := Nat.cast_nonneg _
  have hsum := (within_natCast (n := index) (by omega)).add (within_toReal hfits.isFinite_center)
    (abs_le.mpr (by constructor <;> linarith))
  exact hsum.weaken (by norm_num)

omit hfew in
/-- The edges of a bar, each with its own chain of roundings. -/
theorem edges_within {index : Nat} (hindex : index < 2 ^ 40) {offset : Binary64} (hoffset : offset ∈ layout.offsets) :
    ((index : Binary64) + offset - layout.width / 2).Within (index + offset.toReal - 0.075) (4 / 2 ^ 12) ∧
      ((index : Binary64) + offset - layout.width / 2 + layout.width).Within (index + offset.toReal + 0.075)
        (6 / 2 ^ 12) := by
  obtain ⟨hnonneg, hle⟩ := hfits.offset_bounds offset hoffset
  have hright := hfits.right_le
  have hcast : (index : ℝ) ≤ 2 ^ 40 := by exact_mod_cast hindex.le
  have hcast' : (0 : ℝ) ≤ index := Nat.cast_nonneg _
  have hmiddle := (within_natCast (n := index) (by omega)).add (within_toReal (hfits.isFinite_offset offset hoffset))
    (abs_le.mpr (by constructor <;> linarith))
  have hedge := hmiddle.sub halfWidth_within (abs_le.mpr (by constructor <;> linarith))
  have hedge' := hedge.add barWidth_within (abs_le.mpr (by constructor <;> linarith))
  rw [hfits.width_eq]
  exact ⟨hedge.weaken (by norm_num), hedge'.weaken (by ring_nf; norm_num)⟩

end Frame

theorem exists_of_mem_bars {data : BarData} {layout : BarLayout} {bar : Bar} (hbar : bar ∈ (data.bars layout).flatten) :
    ∃ series ∈ data.experiments, ∃ offset ∈ layout.offsets, ∃ value ∈ series.values,
      ∃ index < series.values.length, bar.left = (index : Binary64) + offset - layout.width / 2 ∧
        bar.right = (index : Binary64) + offset - layout.width / 2 + layout.width ∧
        bar.height = value.clamp 0 barHeightLimit := by
  obtain ⟨bars, hbars, hmem⟩ := List.mem_flatten.mp hbar
  obtain ⟨experiment, hexperiment, rfl⟩ := List.mem_mapIdx.mp hbars
  obtain ⟨index, hindex, rfl⟩ := List.mem_mapIdx.mp hmem
  have hpair := List.getElem_mem hexperiment
  exact ⟨_, (List.of_mem_zip hpair).1, _, (List.of_mem_zip hpair).2, _, List.getElem_mem hindex, index, hindex, rfl,
    rfl, rfl⟩

variable {table : Table} {columns : Nat} {data : BarData}

/-- A table has finite numbers only. -/
theorem isFinite_value (hdata : ofTable table columns = .ok data) {series : Series} (hseries : series ∈ data.experiments)
    {value : Binary64} (hvalue : value ∈ series.values) : value.isFinite = true := by
  obtain ⟨-, -, hcolumns⟩ := ofTable_eq_ok_iff.mp hdata
  obtain ⟨place, hplace, rfl⟩ := List.getElem_of_mem hseries
  obtain ⟨-, -, hnumbers⟩ := Table.column_eq_ok_iff.mp (hcolumns.get (hcolumns.length_eq ▸ hplace) hplace)
  have hmem : some value ∈ table.numbersAt _ := hnumbers ▸ List.mem_map_of_mem hvalue
  obtain ⟨row, -, hread⟩ := List.mem_map.mp hmem
  obtain ⟨text, -, htext⟩ := Option.bind_eq_some_iff.mp hread
  exact (Table.finite?_eq_some_iff.mp htext).2

theorem length_flatten_bars (hdata : ofTable table columns = .ok data) (width gap : Binary64) :
    (data.bars (.ofColumns columns width gap)).flatten.length = data.applications.length * columns := by
  have hlengths : (data.bars (.ofColumns columns width gap)).map List.length =
      List.replicate columns data.applications.length := by
    rw [List.eq_replicate_iff]
    constructor
    · simp [bars, length_experiments hdata, length_offsets]
    · intro length hlength
      obtain ⟨bars, hbars, rfl⟩ := List.mem_map.mp hlength
      obtain ⟨experiment, hexperiment, rfl⟩ := List.mem_mapIdx.mp hbars
      have hpair := List.getElem_mem hexperiment
      obtain ⟨place, hplace⟩ := List.mem_iff_getElem?.mp (List.of_mem_zip hpair).1
      rw [barsOf, List.length_mapIdx]
      exact length_values hdata hplace
  rw [List.length_flatten, hlengths, List.sum_replicate, smul_eq_mul, Nat.mul_comm]

/-- All that is drawn has its place. The bars of an application stand in order, with the label in the middle
    between the first and the last one and their edges between the outer two. The bars and the labels are inside
    the frame, and the labels stand in order. -/
structure StaysInside (data : BarData) (layout : BarLayout) : Prop where
  offsets_ascend : layout.offsets.Pairwise (· ≤ ·)
  center_between : ∀ first last, layout.offsets.head? = some first → layout.offsets.getLast? = some last →
    Inside (first, last) layout.center
  edges_in_span : ∀ offset ∈ layout.offsets, Inside layout.span (offset - layout.width / 2) ∧
    Inside layout.span (offset + layout.width / 2)
  bars_in_frame : ∀ bar ∈ (data.bars layout).flatten, Inside (data.xRange layout) bar.left ∧
    Inside (data.xRange layout) bar.right ∧ Inside (0, barHeightLimit) bar.height
  labels_in_frame : ∀ label ∈ data.labels layout, Inside (data.xRange layout) label.1
  labels_ascend : (data.labels layout).Pairwise fun label other => label.1 < other.1

section Drawn

variable {layout : BarLayout} (hfits : layout.Fits) (hfew : data.applications.length < 2 ^ 40)

include hfits hfew

/-- A bar is inside the frame, and its height inside the range of the y axis. -/
theorem bar_inside (hdata : ofTable table columns = .ok data) {bar : Bar} (hbar : bar ∈ (data.bars layout).flatten) :
    Inside (data.xRange layout) bar.left ∧ Inside (data.xRange layout) bar.right ∧
      Inside (0, barHeightLimit) bar.height := by
  obtain ⟨series, hseries, offset, hoffset, value, hvalue, index, hindex, hleft, hright, hheight⟩ :=
    exists_of_mem_bars hbar
  obtain ⟨place, hplace⟩ := List.mem_iff_getElem?.mp hseries
  rw [length_values hdata hplace] at hindex
  obtain ⟨hedge, hedge'⟩ := edges_within hfits (hindex.trans hfew) hoffset
  obtain ⟨hnonneg, hle⟩ := hfits.offset_bounds offset hoffset
  have hspan := hfits.left_bounds.2
  have hcast : (0 : ℝ) ≤ index := Nat.cast_nonneg _
  have hlast : (index : ℝ) ≤ (data.applications.length - 1 : Nat) := by exact_mod_cast (by omega)
  rw [hleft, hright, hheight]
  refine ⟨inside_xRange hfits hfew hedge (by norm_num) (by linarith) (by linarith),
    inside_xRange hfits hfew hedge' le_rfl (by linarith) (by linarith), ?_⟩
  exact clamp_mem (isNaN_of_isFinite (isFinite_value hdata hseries hvalue)) (by decide +kernel)

theorem label_inside {label : Binary64 × String} (hlabel : label ∈ data.labels layout) :
    Inside (data.xRange layout) label.1 := by
  obtain ⟨index, hindex, rfl⟩ := List.mem_mapIdx.mp hlabel
  obtain ⟨hcenter, hcenter'⟩ := hfits.center_bounds
  have hspan := hfits.left_bounds.2
  have hcast : (0 : ℝ) ≤ index := Nat.cast_nonneg _
  have hlast : (index : ℝ) ≤ (data.applications.length - 1 : Nat) := by exact_mod_cast (by omega)
  exact inside_xRange hfits hfew (label_within hfits (hindex.trans hfew)) (by norm_num) (by linarith) (by linarith)

/-- Labels stand one apart, which is more than their errors. -/
theorem pairwise_labels : (data.labels layout).Pairwise fun label other => label.1 < other.1 := by
  rw [List.pairwise_iff_getElem]
  intro index other hindex hother hless
  rw [labels, List.length_mapIdx] at hindex hother
  have hnext : (index : ℝ) + 1 ≤ other := by exact_mod_cast hless
  simp only [labels, List.getElem_mapIdx]
  exact (label_within hfits (hindex.trans hfew)).lt (label_within hfits (hother.trans hfew)) (by linarith)

end Drawn

/-- The chart of a table has a bar for each application and experiment, and with all the roundings it stays inside the
    frame, as long as there are fewer than 2⁴⁰ of either. -/
theorem ofTable_staysInside (hdata : ofTable table columns = .ok data) (hfew : data.applications.length < 2 ^ 40)
    (hcolumns : columns < 2 ^ 40) :
    (data.bars (.ofColumns columns barWidth groupGap)).flatten.length = data.applications.length * columns ∧
      data.StaysInside (.ofColumns columns barWidth groupGap) := by
  have hfits := BarLayout.fits_ofColumns hcolumns.le
  refine ⟨length_flatten_bars hdata barWidth groupGap, BarLayout.pairwise_offsets hcolumns.le, ?_, ?_, ?_, ?_, ?_⟩
  · intro first last hfirst hlast
    have hpositive : 0 < columns := by
      rw [← length_offsets columns barWidth groupGap]
      exact List.length_pos_of_mem (List.mem_of_getLast? hlast)
    rw [BarLayout.head?_offsets hpositive] at hfirst
    rw [BarLayout.getLast?_offsets hpositive] at hlast
    rw [← Option.some.inj hfirst, ← Option.some.inj hlast]
    exact BarLayout.center_mem hcolumns.le hpositive
  · exact fun offset hoffset => BarLayout.edges_inside hcolumns.le hoffset
  · exact fun bar hbar => bar_inside hfits hfew hdata hbar
  · exact fun label hlabel => label_inside hfits hfew hlabel
  · exact pairwise_labels hfits hfew

/-- Bars that overlap stay inside the frame too. -/
theorem evenTable_six_staysInside :
    ofTable (evenTable ["A", "B", "C", "D", "E", "F"]) 6 = .ok (evenData ["A", "B", "C", "D", "E", "F"]) ∧
      ((evenData ["A", "B", "C", "D", "E", "F"]).bars (.ofColumns 6 barWidth groupGap)).flatten.length = 12 ∧
      (evenData ["A", "B", "C", "D", "E", "F"]).StaysInside (.ofColumns 6 barWidth groupGap) := by
  have hdata := ofTable_evenTable ["A", "B", "C", "D", "E", "F"] (by decide)
  obtain ⟨hlength, hinside⟩ := ofTable_staysInside hdata (by decide) (by decide)
  exact ⟨hdata, hlength, hinside⟩

end BarData

end ExperimentCharts
