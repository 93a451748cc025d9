import ExperimentCharts.Proofs.Binary64.Accuracy
import ExperimentCharts.Proofs.Binary64.Midpoint

namespace ExperimentCharts.Binary64

variable {x y x' y' : Binary64}

theorem isFinite_of_le_of_le {lower upper : Binary64} (hlower : lower ≤ x) (hupper : x ≤ upper)
    (hl : lower.isFinite = true) (hu : upper.isFinite = true) : x.isFinite = true := by
  obtain ⟨s, a, rfl⟩ := exists_number_of_isNaN (isNaN_of_isFinite hl)
  obtain ⟨t, b, rfl⟩ := exists_number_of_isNaN (isNaN_of_isFinite hu)
  obtain ⟨negative, rank, rfl⟩ := exists_number_of_isNaN (isNaN_of_le hlower).2
  rw [isFinite_number] at hl hu ⊢
  rw [le_iff_position rfl rfl] at hlower hupper
  have ha := a.isLt
  have hb := b.isLt
  intro hinfinite
  cases negative <;> cases s <;> cases t <;> simp only [Bool.false_eq_true, if_true, if_false] at hlower hupper <;>
    omega

theorem isInfinite_of_isFinite (hx : x.isFinite = true) : x.isInfinite = false := by
  obtain ⟨negative, rank, rfl⟩ := exists_number_of_isNaN (isNaN_of_isFinite hx)
  simpa [isFinite, isInfinite] using hx

/-- The negation of a number that is not negative is at most that number. -/
theorem neg_le_self (hx : x.isFinite = true) (hnonneg : 0 ≤ x.toReal) : -x ≤ x := by
  rw [le_iff_toReal (isNaN_of_isFinite ((isFinite_neg x).trans hx)) (isNaN_of_isFinite hx), toReal_neg]
  linarith

/-- A rounded amount stands at its nearest rank, on its side of zero. -/
theorem position_ofUnits (zeroNegative : Bool) (amount : Int) :
    (ofUnits zeroNegative amount).position =
      some (if amount < 0 then -(nearestRank amount.natAbs 1 : Int) else nearestRank amount.natAbs 1) := by
  unfold ofUnits
  by_cases hamount : amount = 0
  · rw [if_pos hamount, hamount, Int.natAbs_zero, nearestRank_zero Nat.one_pos]
    cases zeroNegative <;> rfl
  · rw [if_neg hamount, nearest, position]
    by_cases hnegative : amount < 0 <;> simp [hnegative]

/-- Rounding keeps the order of amounts, whatever signs their zeros are given. -/
theorem ofUnits_le_ofUnits (zeroNegative zeroNegative' : Bool) {amount amount' : Int} (hle : amount ≤ amount') :
    ofUnits zeroNegative amount ≤ ofUnits zeroNegative' amount' := by
  rw [le_iff_position (position_ofUnits _ _) (position_ofUnits _ _)]
  by_cases hnegative : amount < 0
  · by_cases hnegative' : amount' < 0
    · have hrank : nearestRank amount'.natAbs 1 ≤ nearestRank amount.natAbs 1 :=
        nearestRank_mono Nat.one_pos Nat.one_pos (by omega)
      rw [if_pos hnegative, if_pos hnegative']
      omega
    · rw [if_pos hnegative, if_neg hnegative']
      omega
  · have hrank : nearestRank amount.natAbs 1 ≤ nearestRank amount'.natAbs 1 :=
      nearestRank_mono Nat.one_pos Nat.one_pos (by omega)
    rw [if_neg hnegative, if_neg (by omega)]
    omega

/-- A rounded sum grows with its terms. -/
theorem add_le_add (hx : x.isFinite = true) (hy : y.isFinite = true) (hx' : x'.isFinite = true)
    (hy' : y'.isFinite = true) (hxx : x ≤ x') (hyy : y ≤ y') : x + y ≤ x' + y' := by
  obtain ⟨zeroNegative, amount, hsum, hamount⟩ := exists_add_eq_ofUnits hx hy
  obtain ⟨zeroNegative', amount', hsum', hamount'⟩ := exists_add_eq_ofUnits hx' hy'
  rw [le_iff_toReal (isNaN_of_le hxx).1 (isNaN_of_le hxx).2] at hxx
  rw [le_iff_toReal (isNaN_of_le hyy).1 (isNaN_of_le hyy).2] at hyy
  have hexact : (amount : ℝ) / unitsPerOne ≤ amount' / unitsPerOne := by
    rw [hamount, hamount']
    linarith
  rw [div_le_div_iff_of_pos_right unitsPerOne_cast_pos, Int.cast_le] at hexact
  rw [hsum, hsum']
  exact ofUnits_le_ofUnits _ _ hexact

theorem sub_le_sub (hx : x.isFinite = true) (hy : y.isFinite = true) (hx' : x'.isFinite = true) (hxx : x ≤ x') :
    x - y ≤ x' - y := by
  have hneg : (-y).isFinite = true := (isFinite_neg y).trans hy
  rw [sub_eq_add_neg_of_isFinite hx hy, sub_eq_add_neg_of_isFinite hx' hy]
  exact add_le_add hx hneg hx' hneg hxx (le_self (isNaN_of_isFinite hneg))

/-- Subtracting what is not negative gives no more than adding it. -/
theorem sub_le_add (hx : x.isFinite = true) (hy : y.isFinite = true) (hnonneg : 0 ≤ y.toReal) : x - y ≤ x + y := by
  rw [sub_eq_add_neg_of_isFinite hx hy]
  exact add_le_add hx ((isFinite_neg y).trans hy) hx hy (le_self (isNaN_of_isFinite hx)) (neg_le_self hy hnonneg)

/-- A rounded product of numbers that are not negative grows with its factors. -/
theorem mul_le_mul {a b a' b' : Fin (infiniteRank + 1)} (ha : a.val ≤ a'.val) (hb : b.val ≤ b'.val)
    (ha' : a'.val < infiniteRank) (hb' : b'.val < infiniteRank) :
    number false a * number false b ≤ number false a' * number false b' := by
  have hunits : units a.val * units b.val ≤ units a'.val * units b'.val :=
    Nat.mul_le_mul (units_strictMono.monotone ha) (units_strictMono.monotone hb)
  have hrank := nearestRank_mono unitsPerOne_pos unitsPerOne_pos (Nat.mul_le_mul_right unitsPerOne hunits)
  change mul _ _ ≤ mul _ _
  rw [mul, if_neg (by omega), mul, if_neg (by omega), nearest, nearest, le_iff_position rfl rfl]
  simp only [bne_self_eq_false, Bool.false_eq_true, if_false]
  exact_mod_cast hrank

/-- Products with a whole number grow with it. -/
theorem natCast_mul_le {m n : Nat} (hmn : m ≤ n) (hn : n ≤ 2 ^ 53) (hx : 0 < x) (hfinite : x.isFinite = true) :
    (m : Binary64) * x ≤ (n : Binary64) * x ∧ x * (m : Binary64) ≤ x * (n : Binary64) := by
  obtain ⟨a, ha, -, hunits⟩ := exists_natCast_eq (hmn.trans hn)
  obtain ⟨b, hb, hfinite', hunits'⟩ := exists_natCast_eq hn
  obtain ⟨rank, rfl, -⟩ := exists_number_of_pos hx
  have hrank : a.val ≤ b.val := by
    rw [← units_strictMono.le_iff_le, hunits, hunits']
    exact Nat.mul_le_mul_right _ hmn
  have hrank' : rank.val < infiniteRank :=
    Nat.lt_of_le_of_ne (Nat.le_of_lt_succ rank.isLt) ((isFinite_number false rank).mp hfinite)
  rw [ha, hb]
  exact ⟨mul_le_mul hrank le_rfl hfinite' hrank', mul_le_mul le_rfl hrank hrank' hfinite'⟩

/-- A finite number that is off from a value by no more than an error. -/
structure Within (x : Binary64) (value error : ℝ) : Prop where
  isFinite : x.isFinite = true
  le_add : x.toReal ≤ value + error
  sub_le : value - error ≤ x.toReal

/-- A finite number is its own value without an error. -/
theorem within_toReal (hx : x.isFinite = true) : x.Within x.toReal 0 := ⟨hx, by simp, by simp⟩

/-- Whole numbers of at most 53 bits have no error. -/
theorem within_natCast {n : Nat} (hn : n ≤ 2 ^ 53) : (n : Binary64).Within n 0 := by
  have hself := within_toReal (isFinite_natCast hn)
  rwa [toReal_natCast hn] at hself

/-- There are numbers of the format less than 2⁻¹² below and above a value up to 2⁴¹. -/
theorem exists_toReal_around {value : ℝ} (hsmall : |value| ≤ 2 ^ 41) :
    ∃ lower upper : Binary64, lower.isNaN = false ∧ upper.isNaN = false ∧
      (lower.toReal ≤ value ∧ value - 1 / 2 ^ 12 ≤ lower.toReal) ∧
      (value ≤ upper.toReal ∧ upper.toReal ≤ value + 1 / 2 ^ 12) := by
  obtain ⟨hvalue, hvalue'⟩ := abs_le.mp hsmall
  have hfloor := Int.floor_le (value * 2 ^ 12)
  have hfloor' := Int.lt_floor_add_one (value * 2 ^ 12)
  have hceil := Int.le_ceil (value * 2 ^ 12)
  have hceil' := Int.ceil_lt_add_one (value * 2 ^ 12)
  have horder := Int.floor_le_ceil (value * 2 ^ 12)
  have hmin : -2 ^ 53 ≤ ⌊value * 2 ^ 12⌋ := Int.le_floor.mpr (by push_cast; linarith)
  have hmax : ⌈value * 2 ^ 12⌉ ≤ 2 ^ 53 := Int.ceil_le.mpr (by push_cast; linarith)
  generalize ⌊value * 2 ^ 12⌋ = below at *
  generalize ⌈value * 2 ^ 12⌉ = above at *
  obtain ⟨lower, hlower, hbelow⟩ := exists_toReal_eq (show below.natAbs ≤ 2 ^ 53 by omega) (show 12 ≤ 1074 by decide)
  obtain ⟨upper, hupper, habove⟩ := exists_toReal_eq (show above.natAbs ≤ 2 ^ 53 by omega) (show 12 ≤ 1074 by decide)
  refine ⟨lower, upper, isNaN_of_isFinite hlower, isNaN_of_isFinite hupper, ?_, ?_⟩
  · rw [hbelow]
    constructor <;> linarith
  · rw [habove]
    constructor <;> linarith

/-- A result that is not rounded past any number of the format is off by less than the numbers around it are. -/
theorem within_of_not_past {value : ℝ} (hx : x.isFinite = true) (hsmall : |value| ≤ 2 ^ 41)
    (hbelow : ∀ z : Binary64, z.isNaN = false → z.toReal ≤ value → z.toReal ≤ x.toReal)
    (habove : ∀ z : Binary64, z.isNaN = false → value ≤ z.toReal → x.toReal ≤ z.toReal) :
    x.Within value (1 / 2 ^ 12) := by
  obtain ⟨lower, upper, hlower, hupper, ⟨hle, hclose⟩, ⟨hle', hclose'⟩⟩ := exists_toReal_around hsmall
  exact ⟨hx, (habove upper hupper hle').trans hclose', hclose.trans (hbelow lower hlower hle)⟩

theorem nearest_eq_ofUnits (amount : Nat) : nearest false amount 1 = ofUnits false amount := by
  rcases Nat.eq_zero_or_pos amount with rfl | hpositive
  · simp only [nearest, nearestRank_zero Nat.one_pos]
    rfl
  · rw [ofUnits, if_neg (by omega), Int.natAbs_natCast, decide_eq_false (by omega)]

/-- Rounding an amount of units up to 2⁴¹ costs 2⁻¹² at most. -/
theorem within_nearest {amount : Nat} (hsmall : (amount : ℝ) / unitsPerOne ≤ 2 ^ 41) :
    (nearest false amount 1).Within (amount / unitsPerOne) (1 / 2 ^ 12) := by
  have hvalue : ((amount : Int) : ℝ) / unitsPerOne = amount / unitsPerOne := by rw [Int.cast_natCast]
  have habs : |((amount : Int) : ℝ) / unitsPerOne| ≤ 2 ^ 41 := by
    rwa [hvalue, abs_of_nonneg (div_nonneg (Nat.cast_nonneg _) unitsPerOne_cast_pos.le)]
  rw [nearest_eq_ofUnits, ← hvalue]
  exact within_of_not_past (isFinite_ofUnits false (habs.trans (by norm_num))) habs
    (fun z hz => le_toReal_ofUnits hz false) fun z hz => toReal_ofUnits_le hz false

namespace Within

variable {value value' error error' : ℝ}

/-- A larger error admits a value as far away as it is larger. -/
theorem weaken (hx : x.Within value error) (hvalue : |value - value'| ≤ error' - error) : x.Within value' error' := by
  obtain ⟨hlower, hupper⟩ := abs_le.mp hvalue
  exact ⟨hx.isFinite, by linarith [hx.le_add], by linarith [hx.sub_le]⟩

theorem neg (hx : x.Within value error) : (-x).Within (-value) error := by
  refine ⟨(isFinite_neg x).trans hx.isFinite, ?_, ?_⟩ <;> rw [toReal_neg] <;> linarith [hx.le_add, hx.sub_le]

/-- The errors of the terms add up, and rounding the sum adds its own. -/
theorem add (hx : x.Within value error) (hy : y.Within value' error')
    (hsmall : |value + value'| ≤ 2 ^ 41 - (error + error')) :
    (x + y).Within (value + value') (error + error' + 1 / 2 ^ 12) := by
  have hoff : |x.toReal + y.toReal - (value + value')| ≤ error + error' := by
    rw [abs_le]
    constructor <;> linarith [hx.le_add, hx.sub_le, hy.le_add, hy.sub_le]
  have hexact : |x.toReal + y.toReal| ≤ 2 ^ 41 := by
    have htriangle := abs_sub_abs_le_abs_sub (x.toReal + y.toReal) (value + value')
    linarith
  have hfinite := isFinite_add hx.isFinite hy.isFinite (hexact.trans (by norm_num))
  have hrounded := within_of_not_past hfinite hexact (fun z => le_toReal_add hx.isFinite hy.isFinite)
    fun z => toReal_add_le hx.isFinite hy.isFinite
  exact hrounded.weaken (by linarith)

/-- A difference is off by the errors of both sides and one rounding. -/
theorem sub (hx : x.Within value error) (hy : y.Within value' error')
    (hsmall : |value - value'| ≤ 2 ^ 41 - (error + error')) :
    (x - y).Within (value - value') (error + error' + 1 / 2 ^ 12) := by
  rw [sub_eq_add_neg_of_isFinite hx.isFinite hy.isFinite, sub_eq_add_neg]
  exact hx.add hy.neg (by rwa [← sub_eq_add_neg])

/-- Numbers compare as the values do that are further apart than the errors. -/
theorem le (hx : x.Within value error) (hy : y.Within value' error') (hgap : value + error ≤ value' - error') :
    x ≤ y := by
  rw [le_iff_toReal (isNaN_of_isFinite hx.isFinite) (isNaN_of_isFinite hy.isFinite)]
  linarith [hx.le_add, hy.sub_le]

/-- Numbers compare as their values do where these are further apart than both errors together. -/
theorem lt (hx : x.Within value error) (hy : y.Within value' error') (hgap : value + error < value' - error') :
    x < y := by
  rw [lt_iff_toReal (isNaN_of_isFinite hx.isFinite) (isNaN_of_isFinite hy.isFinite)]
  linarith [hx.le_add, hy.sub_le]

/-- A value above its error belongs to a positive number. -/
theorem pos (hx : x.Within value error) (hvalue : error < value) : 0 < x := by
  rw [pos_iff_toReal (isNaN_of_isFinite hx.isFinite)]
  linarith [hx.sub_le]

end Within

/-- Division by a positive whole number. -/
theorem within_div_natCast {n : Nat} (hx : x.isFinite = true) (hpositive : 0 < n) (hn : n ≤ 2 ^ 53)
    (hsmall : |x.toReal / n| ≤ 2 ^ 41) : (x / (n : Binary64)).Within (x.toReal / n) (1 / 2 ^ 12) := by
  have hcast : (0 : ℝ) < n := Nat.cast_pos.mpr hpositive
  have hdivisor : (0 : Binary64) < n := by
    rw [pos_iff_toReal (isNaN_of_isFinite (isFinite_natCast hn)), toReal_natCast hn]
    exact hcast
  have hfinite : (x / (n : Binary64)).isFinite = true := by
    obtain ⟨rank, hnumber, hrank, hunits⟩ := exists_natCast_eq hn
    rw [hnumber]
    exact isFinite_div hx hrank (hunits ▸ Nat.le_mul_of_pos_left _ hpositive)
  apply within_of_not_past hfinite hsmall
  · intro z hz hle
    apply le_toReal_div hx hdivisor (isFinite_natCast hn) hz
    rwa [toReal_natCast hn, ← le_div_iff₀ hcast]
  · intro z hz hle
    apply toReal_div_le hx hdivisor (isFinite_natCast hn) hz
    rwa [toReal_natCast hn, ← div_le_iff₀ hcast]

/-- A quotient of whole numbers is rounded once, from the exact fraction. -/
theorem within_natCast_div_natCast {m n : Nat} (hm : m ≤ 2 ^ 41) (hpositive : 0 < n) (hn : n ≤ 2 ^ 53) :
    ((m : Binary64) / (n : Binary64)).Within (m / n) (1 / 2 ^ 12) := by
  have hvalue := toReal_natCast (hm.trans (by decide))
  have hsmall : |(m : ℝ) / n| ≤ 2 ^ 41 := by
    have hone : (1 : ℝ) ≤ n := Nat.one_le_cast.mpr hpositive
    have hbound : (m : ℝ) ≤ 2 ^ 41 := by exact_mod_cast hm
    rw [abs_of_nonneg (by positivity)]
    exact (div_le_self (Nat.cast_nonneg m) hone).trans hbound
  rw [← hvalue] at hsmall ⊢
  exact within_div_natCast (isFinite_natCast (hm.trans (by decide))) hpositive hn hsmall

/-- A decimal is rounded once, as the quotient of its digits by a power of ten is. -/
theorem ofDecimal_eq_div {coefficient places : Nat} (hcoefficient : coefficient ≤ 2 ^ 53)
    (hplaces : 10 ^ places ≤ 2 ^ 53) :
    ofDecimal false ⟨coefficient, -(places : Int)⟩ = (coefficient : Binary64) / ((10 ^ places : Nat) : Binary64) := by
  obtain ⟨a, ha, hfinite, hunits⟩ := exists_natCast_eq hcoefficient
  obtain ⟨b, hb, hfinite', hunits'⟩ := exists_natCast_eq hplaces
  have hpower : 0 < 10 ^ places := Nat.pow_pos (by decide)
  have hpositive : 0 < b.val := by
    rw [← units_strictMono.lt_iff_lt, hunits', units_zero]
    exact Nat.mul_pos hpower unitsPerOne_pos
  rw [ofDecimal_eq_nearest, ha, hb, div_eq_nearest hfinite.ne hfinite'.ne hpositive, hunits, hunits', Decimal.unitsNum,
    Decimal.unitsDen, show (-(places : Int)).toNat = 0 by omega, Int.neg_neg, Int.toNat_natCast]
  exact nearest_congr false hpower (Nat.mul_pos hpower unitsPerOne_pos) (by ring)

theorem within_ofDecimal {coefficient places : Nat} (hcoefficient : coefficient ≤ 2 ^ 41)
    (hplaces : 10 ^ places ≤ 2 ^ 53) :
    (ofDecimal false ⟨coefficient, -(places : Int)⟩).Within (coefficient / 10 ^ places) (1 / 2 ^ 12) := by
  have hwithin := within_natCast_div_natCast hcoefficient (Nat.pow_pos (by decide)) hplaces
  rw [← ofDecimal_eq_div (hcoefficient.trans (by decide)) hplaces] at hwithin
  exact_mod_cast hwithin

end ExperimentCharts.Binary64
