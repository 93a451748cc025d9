import ExperimentCharts.Proofs.Binary64.Decimal

namespace ExperimentCharts.Binary64

/-- A number of the format is nearest to its own value. -/
theorem nearest_units (negative : Bool) (rank : Fin (infiniteRank + 1)) :
    nearest negative (units rank.val) 1 = .number negative rank :=
  nearest_eq_number negative (nearestRank_units (Nat.le_of_lt_succ rank.isLt))

/-- The value of a finite number is rounded to that number, with the sign of a zero if the sign is given. -/
theorem ofUnits_signedUnits (negative : Bool) (rank : Fin (infiniteRank + 1)) :
    ofUnits negative (signedUnits negative rank.val) = .number negative rank := by
  rcases Nat.eq_zero_or_pos rank.val with hzero | hpositive
  · have hrank : rank = ⟨0, by decide⟩ := Fin.ext hzero
    subst hrank
    cases negative <;> rfl
  · have hunits := units_pos hpositive
    rw [← nearest_units]
    cases negative <;> simp only [ofUnits, signedUnits, if_true, Bool.false_eq_true, if_false]
    · rw [if_neg (by omega), decide_eq_false (by omega), Int.natAbs_natCast]
    · rw [if_neg (by omega), decide_eq_true (by omega), Int.natAbs_neg, Int.natAbs_natCast]

/-- Nothing is lost in a sum that starts from the negative zero, not even the sign of a zero. -/
theorem sum_singleton (x : Binary64) : sum [x] = x := by
  change add (zero true) x = x
  cases x with
  | nan negative => rfl
  | number negative rank =>
    have hzero : signedUnits true 0 = 0 := by decide
    rw [zero, add, if_neg (by decide)]
    split
    · rfl
    · rw [hzero, Int.zero_add, Bool.true_and, ofUnits_signedUnits]

theorem zero_eq : (0 : Binary64) = zero false := by decide +kernel

theorem one_eq : (1 : Binary64) = .number false ⟨0x3FF0000000000000, by decide⟩ := by decide +kernel

/-- Division by one loses nothing, whatever is divided: infinity, a negative zero and not-a-number stay as well. -/
theorem div_one (x : Binary64) : x / 1 = x := by
  rw [one_eq]
  cases x with
  | nan negative => rfl
  | number negative rank =>
    change div _ _ = _
    rw [div, Bool.bne_false]
    split
    · rename_i hinfinite
      rw [if_neg (by decide)]
      exact congrArg (number negative) (Fin.ext hinfinite.symm)
    · rw [if_neg (by decide), if_neg (by decide), units_rankOfOne,
        nearest_congr negative unitsPerOne_pos Nat.one_pos (Nat.mul_one _), nearest_units]

/-- Significands of 53 bits have a rank after any number of doublings. -/
theorem exists_units_eq (shift : Nat) {significand : Nat} (hle : significand ≤ 2 * ranksPerBinade) :
    ∃ rank, units rank = significand * 2 ^ shift := by
  induction shift generalizing significand with
  | zero => exact ⟨_, units_shift hle (.inl rfl)⟩
  | succ shift ih =>
    by_cases hfull : ranksPerBinade ≤ significand
    · exact ⟨_, units_shift hle (.inr hfull)⟩
    · obtain ⟨rank, hrank⟩ := ih (show 2 * significand ≤ 2 * ranksPerBinade by omega)
      refine ⟨rank, ?_⟩
      rw [hrank, Nat.pow_succ']
      ring

/-- Two steps between fractions keep their ranks apart: two numbers of the format lie between them. -/
theorem nearestRank_lt_of_steps {num num' den limit : Nat} (shift : Nat) (hden : 0 < den)
    (hlimit : limit ≤ infiniteRank) (hrange : num' ≤ units limit * den)
    (hfew : num / (2 ^ shift * den) + 2 ≤ 2 * ranksPerBinade) (hsteps : num + 2 * (2 ^ shift * den) ≤ num') :
    nearestRank num den < nearestRank num' den := by
  have hstep : 0 < 2 ^ shift * den := Nat.mul_pos (Nat.two_pow_pos shift) hden
  have hbelow := Nat.div_mul_le_self num (2 ^ shift * den)
  have habove := Nat.lt_mul_div_succ num hstep
  generalize num / (2 ^ shift * den) = quotient at *
  obtain ⟨lower, hlower⟩ := exists_units_eq shift (show quotient + 1 ≤ 2 * ranksPerBinade by omega)
  obtain ⟨upper, hupper⟩ := exists_units_eq shift (show quotient + 2 ≤ 2 * ranksPerBinade by omega)
  have hless : lower < upper := by
    rw [← units_strictMono.lt_iff_lt, hlower, hupper]
    exact Nat.mul_lt_mul_of_pos_right (Nat.lt_succ_self _) (Nat.two_pow_pos shift)
  have hvalue : units upper * den ≤ num' := by
    rw [hupper]
    linarith
  have hfinite : upper ≤ limit := by
    rw [← units_strictMono.le_iff_le]
    exact Nat.le_of_mul_le_mul_right (hvalue.trans hrange) hden
  calc nearestRank num den ≤ lower := nearestRank_le hden (by omega) (by rw [hlower]; linarith)
    _ < upper := hless
    _ ≤ nearestRank num' den := le_nearestRank hden (by omega) hvalue

/-- Whole numbers of 53 bits are in the format. -/
theorem exists_natCast_eq {n : Nat} (hn : n ≤ 2 ^ 53) :
    ∃ rank, (n : Binary64) = .number false rank ∧ rank.val < infiniteRank ∧
      units rank.val = n * unitsPerOne := by
  obtain ⟨rank, hunits⟩ := exists_units_eq 1074 (show n ≤ 2 * ranksPerBinade from hn)
  rw [← unitsPerOne_eq] at hunits
  have hless : rank < 0x43F0000000000000 := by
    rw [← units_strictMono.lt_iff_lt, hunits, units_rankOfTwoPow]
    exact Nat.mul_lt_mul_of_pos_right (by omega) unitsPerOne_pos
  have hfinite : rank < infiniteRank := hless.trans (by decide)
  refine ⟨⟨rank, by omega⟩, ?_, hfinite, hunits⟩
  change nearest false (n * unitsPerOne) 1 = _
  rw [← hunits]
  exact nearest_units false ⟨rank, by omega⟩

/-- Products of whole numbers of at most 53 bits are rounded once, as the exact product is. -/
theorem natCast_mul_natCast {m n : Nat} (hm : m ≤ 2 ^ 53) (hn : n ≤ 2 ^ 53) :
    (m : Binary64) * (n : Binary64) = ((m * n : Nat) : Binary64) := by
  obtain ⟨a, ha, hfinite, hunits⟩ := exists_natCast_eq hm
  obtain ⟨b, hb, hfinite', hunits'⟩ := exists_natCast_eq hn
  rw [ha, hb]
  change mul _ _ = nearest false (m * n * unitsPerOne) 1
  rw [mul, if_neg (by omega), hunits, hunits']
  apply nearest_congr _ unitsPerOne_pos Nat.one_pos
  ring

/-- A quotient of whole numbers is rounded once. -/
theorem natCast_div_natCast {m n : Nat} (hm : m ≤ 2 ^ 53) (hn : n ≤ 2 ^ 53) (hpositive : 0 < n) :
    (m : Binary64) / (n : Binary64) = nearest false (m * unitsPerOne) n := by
  obtain ⟨a, ha, hfinite, hunits⟩ := exists_natCast_eq hm
  obtain ⟨b, hb, hfinite', hunits'⟩ := exists_natCast_eq hn
  have hdivisor : 0 < units b.val := by
    rw [hunits']
    exact Nat.mul_pos hpositive unitsPerOne_pos
  have hb0 : b.val ≠ 0 := by
    intro hzero
    rw [hzero, units_zero] at hdivisor
    omega
  rw [ha, hb]
  change div _ _ = _
  rw [div, if_neg hfinite.ne, if_neg hfinite'.ne, if_neg hb0, hunits]
  apply nearest_congr _ hdivisor hpositive
  rw [hunits']
  ring

theorem natCast_one_mul (x : Binary64) : ((1 : Nat) : Binary64) * x = x := by
  have hone : ((1 : Nat) : Binary64) = .number false ⟨0x3FF0000000000000, by decide⟩ := one_eq
  rw [hone]
  cases x with
  | nan negative => rfl
  | number negative rank =>
    change mul _ _ = _
    rw [mul, Bool.false_bne]
    split
    · rename_i hinfinite
      have hrank : rank.val = infiniteRank := hinfinite.resolve_left (by decide)
      rw [if_neg (by rw [hrank]; decide)]
      exact congrArg (number negative) (Fin.ext hrank.symm)
    · rw [units_rankOfOne, Nat.mul_comm, nearest_congr negative unitsPerOne_pos Nat.one_pos (Nat.mul_one _),
        nearest_units]

/-- If the quotients by the neighbours of a rank are other ones, no other rank gives its quotient. -/
theorem rank_eq_of_nearestRank_eq {num rank other : Nat}
    (hbelow : nearestRank num (units rank) < nearestRank num (units (rank - 1)))
    (habove : nearestRank num (units (rank + 1)) < nearestRank num (units rank)) (hrank : 1 < rank)
    (hother : other ≠ 0) (heq : nearestRank num (units other) = nearestRank num (units rank)) : other = rank := by
  have hmono : ∀ {first second : Nat}, 0 < first → first ≤ second →
      nearestRank num (units second) ≤ nearestRank num (units first) := by
    intro first second hfirst hle
    apply nearestRank_mono (units_pos (by omega)) (units_pos hfirst)
    exact Nat.mul_le_mul_left num (units_strictMono.monotone hle)
  rcases Nat.lt_trichotomy other rank with hless | hsame | hmore
  · have hle : nearestRank num (units (rank - 1)) ≤ nearestRank num (units other) :=
      hmono (by omega) (by omega)
    omega
  · exact hsame
  · have hle : nearestRank num (units other) ≤ nearestRank num (units (rank + 1)) := hmono (by omega) hmore
    omega

/-- A divisor whose neighbours give other quotients is known by its quotient among the finite numbers. -/
theorem eq_of_div_eq {dividend divisor : Fin (infiniteRank + 1)} {x : Binary64}
    (hdividend : dividend.val ≠ infiniteRank) (hdivisor : divisor.val ≠ infiniteRank) (hlarge : 1 < divisor.val)
    (hbelow : nearestRank (units dividend.val * unitsPerOne) (units divisor.val) <
      nearestRank (units dividend.val * unitsPerOne) (units (divisor.val - 1)))
    (habove : nearestRank (units dividend.val * unitsPerOne) (units (divisor.val + 1)) <
      nearestRank (units dividend.val * unitsPerOne) (units divisor.val))
    (hx : x.isFinite = true) (heq : number false dividend / x = number false dividend / number false divisor) :
    x = number false divisor := by
  cases x with
  | nan negative => cases hx
  | number negative rank =>
    rw [isFinite_number] at hx
    change div _ _ = div _ _ at heq
    rw [div, div, if_neg hdividend, if_neg hdividend, if_neg hx, if_neg hdivisor,
      if_neg (show divisor.val ≠ 0 by omega)] at heq
    have hfinite := Nat.lt_of_lt_of_le hbelow (Nat.le_of_lt_succ (nearestRank_lt _ _))
    by_cases hzero : rank.val = 0
    · rw [if_pos hzero] at heq
      split at heq
      · cases heq
      · rw [infinity, nearest, number.injEq, Fin.ext_iff] at heq
        exact absurd heq.2.symm hfinite.ne
    · rw [if_neg hzero, nearest, nearest, number.injEq, Fin.ext_iff] at heq
      have hrank := rank_eq_of_nearestRank_eq hbelow habove hlarge hzero heq.2
      have hsign : negative = false := by simpa using heq.1
      rw [hsign, Fin.ext hrank]

end ExperimentCharts.Binary64
