import ExperimentCharts.Proofs.Axis.TickSoundness

namespace ExperimentCharts

open Binary64

/-- The ticks of the decades from one exponent to another: every power of ten, the multiples two to nine of each but
    the last, and all of them in order from bound to bound. -/
structure TicksOfDecades (first last : Int) (ticks : LogTicks) : Prop where
  major_eq : ticks.major = (integersBetween first last).map .powerOfTen
  minor_eq : ticks.minor = (integersBetween first (last - 1)).flatMap fun exponent =>
    (List.range' 2 8).map fun factor => (factor : Binary64) * .powerOfTen exponent
  length_minor : (ticks.minor.length : Int) = 8 * (last - first)
  ascending : ticks.all.Pairwise fun value next => value < next
  head_eq : ticks.all.head? = some (.powerOfTen first)
  getLast_eq : ticks.all.getLast? = some (.powerOfTen last)
  length_all : (ticks.all.length : Int) = 9 * (last - first) + 1

section Integers

variable {first last start stop : Int}

/-- How many exponents a range has. -/
theorem length_integersBetween (first last : Int) : (integersBetween first last).length = (last + 1 - first).toNat := by
  simp [integersBetween]

theorem integersBetween_append (mid : Int) (hfirst : first ≤ mid + 1) (hlast : mid ≤ last) :
    integersBetween first last = integersBetween first mid ++ integersBetween (mid + 1) last := by
  have hcount : (last + 1 - first).toNat = (mid + 1 - first).toNat + (last + 1 - (mid + 1)).toNat := by omega
  rw [integersBetween, hcount, List.range_add, List.map_append, List.map_map]
  congr 1
  apply List.map_congr_left
  intro offset _
  simp only [Function.comp_apply]
  omega

theorem integersBetween_self (k : Int) : integersBetween k k = [k] := by
  have hcount : (k + 1 - k).toNat = 1 := by omega
  rw [integersBetween, hcount]
  simp

theorem integersBetween_cons (hle : first ≤ last) :
    integersBetween first last = first :: integersBetween (first + 1) last := by
  rw [integersBetween_append first (by omega) hle, integersBetween_self, List.singleton_append]

theorem integersBetween_concat (hle : first ≤ last) :
    integersBetween first last = integersBetween first (last - 1) ++ [last] := by
  rw [integersBetween_append (last - 1) (by omega) (by omega), show last - 1 + 1 = last by omega,
    integersBetween_self]

/-- A wider range adds nothing where only integers of the narrower one count. -/
theorem flatMap_integersBetween {α : Type} (hstart : start ≤ first) (hstop : last ≤ stop) (hle : first ≤ last + 1)
    {f g : Int → List α} (hinside : ∀ k, first ≤ k → k ≤ last → f k = g k)
    (houtside : ∀ k, k < first ∨ last < k → f k = []) :
    (integersBetween start stop).flatMap f = (integersBetween first last).flatMap g := by
  have hbefore : (integersBetween start (first - 1)).flatMap f = [] := by
    rw [List.flatMap_eq_nil_iff]
    intro k hk
    rw [mem_integersBetween_iff] at hk
    exact houtside k (.inl (by omega))
  have hafter : (integersBetween (last + 1) stop).flatMap f = [] := by
    rw [List.flatMap_eq_nil_iff]
    intro k hk
    rw [mem_integersBetween_iff] at hk
    exact houtside k (.inr (by omega))
  rw [integersBetween_append (first - 1) (by omega) (by omega), show first - 1 + 1 = first by omega,
    integersBetween_append last hle hstop, List.flatMap_append, List.flatMap_append, hbefore, hafter,
    List.nil_append, List.append_nil]
  apply List.flatMap_congr
  intro k hk
  rw [mem_integersBetween_iff] at hk
  exact hinside k hk.1 hk.2

end Integers

variable {log10 : Binary64 → Binary64} {first last exponent : Int} {factor : Nat}

/-- The logarithm of a computed power misses the exponent by far less than the tolerance. -/
theorem logb_powerOfTen_mem (hlow : -308 ≤ exponent) (hhigh : exponent ≤ 308) :
    exponent - 1e-11 ≤ Real.logb 10 (powerOfTen exponent).toReal ∧
      Real.logb 10 (powerOfTen exponent).toReal ≤ exponent + 1e-11 := by
  obtain ⟨-, hbelow, habove⟩ := powerOfTen_close hlow hhigh
  have hpower : (0 : ℝ) < 10 ^ exponent := zpow_pos (by norm_num) exponent
  have hvalue := toReal_pos (powerOfTen_pos hlow hhigh)
  have hclose : |(powerOfTen exponent).toReal / 10 ^ exponent - 1| ≤ 1 / 2 ^ 39 := by
    have hleast := (le_div_iff₀ hpower).mpr hbelow
    have hgreatest := (div_le_iff₀ hpower).mpr habove
    exact abs_le.mpr ⟨by linarith, by linarith⟩
  have hratio := abs_logb_le_of_close (by norm_num) hclose
  rw [Real.logb_div hvalue.ne' hpower.ne', logb_zpow] at hratio
  obtain ⟨hleast, hgreatest⟩ := abs_le.mp hratio
  constructor <;> linarith

section Decades

variable (hlow : -308 ≤ first) (hless : first < last) (hhigh : last ≤ 308)

include hlow hless hhigh

/-- Two computed powers that are in range bound a range that ticks are looked for in. -/
theorem isTickRange_powers : IsTickRange (powerOfTen first) (powerOfTen last) := by
  have hfinite := (powerOfTen_close hlow (by omega : first ≤ 308)).1
  have hfinite' := (powerOfTen_close (by omega : -308 ≤ last) hhigh).1
  refine ⟨powerOfTen_pos hlow (by omega), ?_, hfinite'⟩
  have hordered := powerOfTen_lt hlow hless hhigh
  rw [lt_iff_toReal (isNaN_of_isFinite hfinite) (isNaN_of_isFinite hfinite')] at hordered
  exact (le_iff_toReal (isNaN_of_isFinite hfinite) (isNaN_of_isFinite hfinite')).mpr hordered.le

/-- The upper one can be raised by the tolerance: 10³⁰⁸ leaves room for it. -/
theorem isFinite_raised_power : (powerOfTen last * (1 + relativeTolerance)).isFinite = true := by
  obtain ⟨hfinite, -, hclose⟩ := powerOfTen_close (by omega : -308 ≤ last) hhigh
  have hpositive := powerOfTen_pos (by omega : -308 ≤ last) hhigh
  have hlarge := two_pow_le_toReal_tick le_rfl (by decide) (by omega : -308 ≤ last) hhigh (by rwa [tick_one])
  rw [tick_one] at hlarge
  have hbound := toReal_raised_le hpositive hfinite
    (hlarge.trans (mul_le_mul_of_nonneg_right (le_toReal_raised hpositive hfinite) unitsPerOne_cast_pos.le))
  have hpower : (10 : ℝ) ^ last ≤ 10 ^ 308 := zpow_le_zpow_right₀ (by norm_num) hhigh
  refine (eq_infinity_or_isFinite (raised_pos hpositive hfinite)).resolve_left fun hinfinite => ?_
  rw [hinfinite] at hbound
  have hinfinity := toReal_infinity_bounds.1
  have hexact : (0 : ℝ) < 10 ^ last := zpow_pos (by norm_num) last
  generalize (10 : ℝ) ^ 308 = greatest at *
  linarith

/-- Every tick from bound to bound is kept, and no other. -/
theorem inRange_tick_iff (hone : 1 ≤ factor) (hnine : factor ≤ 9) :
    inRange (powerOfTen first) (powerOfTen last) (tick factor exponent) = true ↔
      first ≤ exponent ∧ (exponent < last ∨ exponent = last ∧ factor = 1) := by
  have hrange := isTickRange_powers hlow hless hhigh
  have hraised := isFinite_raised_power hlow hless hhigh
  constructor
  · intro hkept
    have hfinite := isFinite_of_inRange hrange hraised hkept
    obtain ⟨hbelow, habove⟩ := exponent_mem_of_tick hone hnine hfinite (pos_of_inRange hrange hkept)
    obtain ⟨hleast, hgreatest⟩ :=
      toReal_mem_of_inRange hrange hraised hkept (two_pow_le_toReal_tick hone hnine hbelow habove hfinite)
    have hclose := (powerOfTen_close hlow (by omega : first ≤ 308)).2.1
    have hclose' := (powerOfTen_close (by omega : -308 ≤ last) hhigh).2.2
    have htick := toReal_tick_le hone hnine hbelow habove
    have htick' := le_toReal_tick hone hnine hbelow habove hfinite
    constructor
    · by_contra hnot
      have hfactor : (factor : ℝ) ≤ 9 := by exact_mod_cast hnine
      have hpower : (10 : ℝ) ^ exponent * 10 ≤ 10 ^ first := by
        rw [← zpow_add_one₀ (by norm_num)]
        exact zpow_le_zpow_right₀ (by norm_num) (by omega)
      have hexact : (0 : ℝ) < 10 ^ exponent := zpow_pos (by norm_num) exponent
      have hproduct : (factor : ℝ) * 10 ^ exponent ≤ 9 * 10 ^ exponent := by gcongr
      linarith
    · by_contra hnot
      have hpower : 2 * (10 : ℝ) ^ last ≤ factor * 10 ^ exponent := by
        rcases lt_or_ge last exponent with hmore | hsame
        · have hfactor : (1 : ℝ) ≤ factor := Nat.one_le_cast.mpr hone
          calc 2 * (10 : ℝ) ^ last ≤ 1 * (10 ^ last * 10) := by linarith [zpow_pos (show (0 : ℝ) < 10 by norm_num) last]
            _ = 1 * 10 ^ (last + 1) := by rw [zpow_add_one₀ (by norm_num)]
            _ ≤ 1 * 10 ^ exponent := by gcongr; norm_num; omega
            _ ≤ factor * 10 ^ exponent := by gcongr
        · have hfactor : (2 : ℝ) ≤ factor := by exact_mod_cast (by omega : 2 ≤ factor)
          rw [show exponent = last by omega]
          gcongr
      linarith [zpow_pos (show (0 : ℝ) < 10 by norm_num) last]
  · rintro ⟨hfirst, hlast⟩
    have hfinite := isFinite_tick hone hnine (by omega : -308 ≤ exponent) (by omega : exponent ≤ 308)
      (by omega : factor = 1 ∨ exponent < 308)
    have hnumber := isNaN_of_isFinite hfinite
    have hleast : (powerOfTen first).toReal ≤ (tick factor exponent).toReal := by
      rw [← tick_one]
      exact toReal_tick_le_toReal_tick le_rfl (by decide) hone hnine hlow (by omega) (by omega)
        (by rw [tick_one]; exact hrange.lower_finite) hfinite
    have hgreatest : (tick factor exponent).toReal ≤ (powerOfTen last).toReal := by
      rw [← tick_one]
      exact toReal_tick_le_toReal_tick hone hnine le_rfl (by decide) (by omega) hhigh (by omega) hfinite
        (by rw [tick_one]; exact hrange.upper_finite)
    rw [inRange_iff, le_iff_toReal (isNaN_of_isFinite (isFinite_lowered hrange.lower_pos hrange.lower_finite)) hnumber,
      le_iff_toReal hnumber (isNaN_of_isFinite hraised)]
    exact ⟨(toReal_lowered_le hrange.lower_pos hrange.lower_finite).trans hleast,
      hgreatest.trans (le_toReal_raised hrange.upper_pos hrange.upper_finite)⟩

/-- A power is a major tick if its exponent lies from bound to bound. -/
theorem filter_power (exponent : Int) :
    [powerOfTen exponent].filter (inRange (powerOfTen first) (powerOfTen last)) =
      if first ≤ exponent ∧ exponent ≤ last then [powerOfTen exponent] else [] := by
  have hkept : inRange (powerOfTen first) (powerOfTen last) (powerOfTen exponent) = true ↔
      first ≤ exponent ∧ (exponent < last ∨ exponent = last ∧ 1 = 1) := by
    rw [← tick_one exponent]
    exact inRange_tick_iff hlow hless hhigh le_rfl (by decide)
  split
  · rename_i hinside
    exact List.filter_cons_of_pos (hkept.mpr (by omega))
  · rename_i houtside
    exact List.filter_cons_of_neg (mt hkept.mp (by omega))

/-- Its multiples are minor ticks below the upper bound only. -/
theorem filter_multiples (exponent : Int) :
    (multiples (.powerOfTen exponent)).filter (inRange (powerOfTen first) (powerOfTen last)) =
      if first ≤ exponent ∧ exponent < last then multiples (.powerOfTen exponent) else [] := by
  have hmultiples : multiples (.powerOfTen exponent) = (List.range' 2 8).map fun factor => tick factor exponent := rfl
  have hkept (value) (hvalue : value ∈ multiples (.powerOfTen exponent)) :
      inRange (powerOfTen first) (powerOfTen last) value = true ↔ first ≤ exponent ∧ exponent < last := by
    rw [hmultiples, List.mem_map] at hvalue
    obtain ⟨factor, hfactor, rfl⟩ := hvalue
    rw [List.mem_range'_1] at hfactor
    rw [inRange_tick_iff hlow hless hhigh (by omega) (by omega)]
    omega
  split
  · rename_i hinside
    exact List.filter_eq_self.mpr fun value hvalue => (hkept value hvalue).mpr hinside
  · rename_i houtside
    exact List.filter_eq_nil_iff.mpr fun value hvalue hin => houtside ((hkept value hvalue).mp hin)

section Accurate

variable (hlog : LogAccurate log10 (powerOfTen first)) (hlog' : LogAccurate log10 (powerOfTen last))

include hlog hlog'

/-- The exponents that are looked through reach from bound to bound. A decade too many may be looked through on either
    side. -/
theorem tickExponents_reach :
    (log10 (powerOfTen first)).floor .signed32 ≤ first ∧ last ≤ (log10 (powerOfTen last)).ceil .signed32 := by
  have hrange := isTickRange_powers hlow hless hhigh
  have hfirst := logb_powerOfTen_mem hlow (by omega : first ≤ 308)
  have hlast := logb_powerOfTen_mem (by omega : -308 ≤ last) hhigh
  constructor
  · exact floor_exact_log_le hrange.lower_finite hrange.lower_pos hlog (by omega) (by linarith)
  · exact le_ceil_exact_log hrange.upper_finite hrange.upper_pos hlog' (by omega) (by linarith)

theorem major_powers :
    (logTicks log10 (powerOfTen first) (powerOfTen last)).major = (integersBetween first last).map .powerOfTen := by
  obtain ⟨hstart, hstop⟩ := tickExponents_reach hlow hless hhigh hlog hlog'
  rw [logTicks_eq (isTickRange_powers hlow hless hhigh), ← List.flatMap_pure_eq_map]
  apply flatMap_integersBetween hstart hstop (by omega) <;> intro exponent <;> rw [filter_power hlow hless hhigh]
  · intro hfirst hlast
    rw [if_pos ⟨hfirst, hlast⟩]
    rfl
  · intro houtside
    rw [if_neg (by omega)]

theorem minor_powers :
    (logTicks log10 (powerOfTen first) (powerOfTen last)).minor =
      (integersBetween first (last - 1)).flatMap fun exponent => multiples (.powerOfTen exponent) := by
  obtain ⟨hstart, hstop⟩ := tickExponents_reach hlow hless hhigh hlog hlog'
  rw [logTicks_eq (isTickRange_powers hlow hless hhigh)]
  apply flatMap_integersBetween hstart (by omega) (by omega) <;> intro exponent <;>
    rw [filter_multiples hlow hless hhigh]
  · intro hfirst hlast
    rw [if_pos (by omega)]
  · intro houtside
    rw [if_neg (by omega)]

/-- In order, each power comes with its multiples, and the last power alone. -/
theorem all_powers :
    (logTicks log10 (powerOfTen first) (powerOfTen last)).all =
      (integersBetween first last).flatMap fun exponent =>
        .powerOfTen exponent :: if exponent < last then multiples (.powerOfTen exponent) else [] := by
  obtain ⟨hstart, hstop⟩ := tickExponents_reach hlow hless hhigh hlog hlog'
  have hdecade (exponent : Int) :
      (decadeTicks exponent).filter (inRange (powerOfTen first) (powerOfTen last)) =
        (if first ≤ exponent ∧ exponent ≤ last then [powerOfTen exponent] else []) ++
          if first ≤ exponent ∧ exponent < last then multiples (.powerOfTen exponent) else [] := by
    rw [decadeTicks_eq, ← List.singleton_append, List.filter_append, filter_power hlow hless hhigh,
      filter_multiples hlow hless hhigh]
  rw [all_logTicks (isTickRange_powers hlow hless hhigh) (isFinite_raised_power hlow hless hhigh)]
  apply flatMap_integersBetween hstart hstop (by omega) <;> intro exponent <;> rw [hdecade]
  · intro hfirst hlast
    rw [if_pos ⟨hfirst, hlast⟩, List.singleton_append]
    simp only [hfirst, true_and]
  · intro houtside
    rw [if_neg (by omega), if_neg (by omega), List.append_nil]

/-- So the ticks between two computed powers are those of the decades between them, although both powers miss the
    exact ones. -/
theorem ticksOfDecades_powers :
    TicksOfDecades first last (logTicks log10 (powerOfTen first) (powerOfTen last)) := by
  have hrange := isTickRange_powers hlow hless hhigh
  have hmajor := major_powers hlow hless hhigh hlog hlog'
  have hminor := minor_powers hlow hless hhigh hlog hlog'
  have hall := all_powers hlow hless hhigh hlog hlog'
  have hlength : (logTicks log10 (powerOfTen first) (powerOfTen last)).minor.length = 8 * (last - first).toNat := by
    rw [hminor, List.length_flatMap]
    simp only [multiples, List.length_map, List.length_cons, List.length_nil, List.map_const', List.sum_replicate,
      length_integersBetween]
    rw [smul_eq_mul]
    omega
  refine ⟨hmajor, hminor, by omega, ?_, ?_, ?_, ?_⟩
  · exact (soundTicks_logTicks hrange (isFinite_raised_power hlow hless hhigh)).ascending
  · rw [hall, integersBetween_cons hless.le]
    rfl
  · rw [hall, integersBetween_concat hless.le, List.flatMap_append, List.getLast?_append]
    simp
  · rw [LogTicks.all, (perm_sorted _).length_eq, List.length_append, hlength, hmajor, List.length_map,
      length_integersBetween]
    omega

/-- The decades around two computed powers are those between them. -/
theorem decadeBounds_powers :
    decadeBounds log10 (powerOfTen first) (powerOfTen last) = some (.powerOfTen first, .powerOfTen last) := by
  have hrange := isTickRange_powers hlow hless hhigh
  obtain ⟨hfirst, hfirst'⟩ := logb_powerOfTen_mem hlow (by omega : first ≤ 308)
  obtain ⟨hlast, hlast'⟩ := logb_powerOfTen_mem (by omega : -308 ≤ last) hhigh
  have hfloor := le_floor_log_of_logb (k := first) hrange.lower_finite hrange.lower_pos hlog (by omega) (by linarith)
  have hfloor' := floor_log_lt_of_logb (k := first + 1) hrange.lower_finite hrange.lower_pos hlog (by omega)
    (by push_cast; linarith)
  have hceil := ceil_log_le_of_logb (k := last) hrange.upper_finite hrange.upper_pos hlog' (by omega) (by linarith)
  have hceil' := lt_ceil_log_of_logb (k := last - 1) hrange.upper_finite hrange.upper_pos hlog' (by omega)
    (by push_cast; linarith)
  have hexponents : decadeExponents log10 (powerOfTen first) (powerOfTen last) = some (first, last) := by
    rw [decadeExponents, show (log10 (powerOfTen first) + relativeTolerance).floor .signed32 = first by omega,
      show (log10 (powerOfTen last) - relativeTolerance).ceil .signed32 = last by omega]
    exact if_pos hless
  rw [decadeBounds, hexponents]
  rfl

end Accurate

end Decades

/-- With accurate logarithms every range has decades around it, and if their bounds can be drawn, every tick of these
    decades stands on the axis between the bounds and the decades around the bounds are the same. Nothing is asked of
    the upper end of the range. -/
theorem decadeBounds_ticks (lower upper : Binary64)
    (hlog : ∀ x : Binary64, x.isFinite = true → 0 < x → LogAccurate log10 x)
    (hlower : lower.isFinite = true) (hpositive : 0 < lower) :
    ∃ first last, first < last ∧ decadeBounds log10 lower upper = some (.powerOfTen first, .powerOfTen last) ∧
      (0 < powerOfTen first → (powerOfTen last).isFinite = true →
        TicksOfDecades first last (logTicks log10 (.powerOfTen first) (.powerOfTen last)) ∧
          decadeBounds log10 (.powerOfTen first) (.powerOfTen last) =
            some (.powerOfTen first, .powerOfTen last)) := by
  obtain ⟨first, last, hexponents⟩ := exists_decadeExponents hlower hpositive (hlog lower hlower hpositive) upper
  have hless : first < last := by
    obtain ⟨-, hlast⟩ := decadeExponents_eq_some hexponents
    omega
  refine ⟨first, last, hless, by rw [decadeBounds, hexponents]; rfl, ?_⟩
  intro hfirst_pos hlast_finite
  have hlow := le_exponent_of_pos hfirst_pos
  have hhigh := exponent_le_of_isFinite hlast_finite
  have hrange := isTickRange_powers hlow hless hhigh
  have hfirst_log := hlog _ hrange.lower_finite hrange.lower_pos
  have hlast_log := hlog _ hrange.upper_finite hrange.upper_pos
  exact ⟨ticksOfDecades_powers hlow hless hhigh hfirst_log hlast_log,
    decadeBounds_powers hlow hless hhigh hfirst_log hlast_log⟩

theorem decadeExponents_sample : decadeExponents accurateLog 12 990 = some (1, 3) := by
  have hlower : (12 : Binary64).isFinite = true := by decide +kernel
  have hupper : (990 : Binary64).isFinite = true := by decide +kernel
  have hlower_pos : (0 : Binary64) < 12 := by decide +kernel
  have hupper_pos : (0 : Binary64) < 990 := by decide +kernel
  have hvalue : (12 : Binary64).toReal = 12 := toReal_natCast (n := 12) (by decide)
  have hvalue' : (990 : Binary64).toReal = 990 := toReal_natCast (n := 990) (by decide)
  have hlog := logAccurate_accurateLog hlower hlower_pos
  have hlog' := logAccurate_accurateLog hupper hupper_pos
  have hfloor := le_floor_log (k := 1) hlower hlower_pos hlog (by decide) (by rw [hvalue]; norm_num)
  have hfloor' := floor_log_lt (k := 2) hlower hlower_pos hlog (by decide) (by rw [hvalue]; norm_num)
  have hceil := ceil_log_le (k := 3) hupper hupper_pos hlog' (by decide) (by rw [hvalue']; norm_num)
  have hceil' := lt_ceil_log (k := 2) hupper hupper_pos hlog' (by decide) (by rw [hvalue']; norm_num)
  rw [decadeExponents, show (accurateLog 12 + relativeTolerance).floor .signed32 = 1 by omega,
    show (accurateLog 990 - relativeTolerance).ceil .signed32 = 3 by omega]
  rfl

theorem decadeBounds_ticks_sample :
    decadeBounds accurateLog 12 990 = some (10, 1000) ∧
      ∃ first last, TicksOfDecades first last (logTicks accurateLog 10 1000) ∧
        decadeBounds accurateLog 10 1000 = some (10, 1000) := by
  have hbounds : decadeBounds accurateLog 12 990 = some (10, 1000) := by
    have hten : powerOfTen 1 = 10 := by decide +kernel
    have hthousand : powerOfTen 3 = 1000 := by decide +kernel
    rw [decadeBounds, decadeExponents_sample, Option.map_some, hten, hthousand]
  have hlog (x : Binary64) (hx : x.isFinite = true) (hpositive : 0 < x) : LogAccurate accurateLog x :=
    logAccurate_accurateLog hx hpositive
  obtain ⟨first, last, -, hpowers, hticks⟩ := decadeBounds_ticks 12 990 hlog (by decide +kernel) (by decide +kernel)
  rw [hbounds, Option.some.injEq, Prod.mk.injEq] at hpowers
  rw [← hpowers.1, ← hpowers.2] at hticks
  exact ⟨hbounds, first, last, hticks (by decide +kernel) (by decide +kernel)⟩

end ExperimentCharts
