import ExperimentCharts.Proofs.Binary64.Exact
import ExperimentCharts.Proofs.Binary64.Text

namespace ExperimentCharts.Binary64

/-- The rank of the number nearest to a count of millionths. -/
def millionthsRank (count : Nat) : Nat := nearestRank (count * unitsPerOne) (10 ^ 6)

variable {count other : Nat}

theorem millionthsRank_zero : millionthsRank 0 = 0 := by
  rw [millionthsRank, Nat.zero_mul]
  exact nearestRank_zero (by decide)

/-- More millionths have no lower rank. -/
theorem millionthsRank_le_millionthsRank (hle : count ≤ other) : millionthsRank count ≤ millionthsRank other :=
  nearestRank_mono (by decide) (by decide) (Nat.mul_le_mul_right _ (Nat.mul_le_mul_right _ hle))

theorem unitsPerOne_eq_mul : unitsPerOne = 2 ^ 1053 * 2 ^ 21 := unitsPerOne_eq.trans (pow_add 2 1053 21)

theorem two_steps_le_unitsPerOne : 2 * (2 ^ 1053 * 10 ^ 6) ≤ unitsPerOne := by
  rw [unitsPerOne_eq_mul, Nat.mul_left_comm]
  exact Nat.mul_le_mul_left _ (by decide)

theorem unitsPerOne_le_steps : unitsPerOne ≤ 2 ^ 1053 * 10 ^ 6 * 2 ^ 21 := by
  rw [unitsPerOne_eq_mul, Nat.mul_assoc]
  exact Nat.mul_le_mul_left _ (by decide)

/-- Up to one, the next millionth has a higher rank: two ranks at least lie in between. -/
theorem millionthsRank_lt_succ (hcount : count ≤ 10 ^ 6) : millionthsRank count < millionthsRank (count + 1) := by
  apply nearestRank_lt_of_steps 1053 (by decide) (show 0x43F0000000000000 ≤ infiniteRank by decide)
  · rw [units_rankOfTwoPow]
    calc (count + 1) * unitsPerOne ≤ 2 ^ 64 * unitsPerOne := Nat.mul_le_mul_right _ (by omega)
      _ ≤ 2 ^ 64 * unitsPerOne * 10 ^ 6 := Nat.le_mul_of_pos_right _ (by decide)
  · have hsteps : count * unitsPerOne / (2 ^ 1053 * 10 ^ 6) ≤ 10 ^ 6 * 2 ^ 21 := by
      apply Nat.div_le_of_le_mul
      calc count * unitsPerOne ≤ 10 ^ 6 * (2 ^ 1053 * 10 ^ 6 * 2 ^ 21) := Nat.mul_le_mul hcount unitsPerOne_le_steps
        _ = 2 ^ 1053 * 10 ^ 6 * (10 ^ 6 * 2 ^ 21) := Nat.mul_left_comm _ _ _
    exact (Nat.add_le_add_right hsteps 2).trans (by decide)
  · rw [Nat.add_mul, Nat.one_mul]
    exact Nat.add_le_add_left two_steps_le_unitsPerOne _

/-- So millionths up to one are ordered as their ranks are. The greater one need not be below one. -/
theorem millionthsRank_lt (hcount : count ≤ 10 ^ 6) (hless : count < other) :
    millionthsRank count < millionthsRank other :=
  (millionthsRank_lt_succ hcount).trans_le (millionthsRank_le_millionthsRank hless)

/-- A millionth up to one is known by its rank. -/
theorem eq_of_millionthsRank_eq (hcount : count ≤ 10 ^ 6) (heq : millionthsRank other = millionthsRank count) :
    other = count := by
  rcases Nat.lt_trichotomy other count with hless | hequal | hmore
  · exact absurd heq (millionthsRank_lt (hless.le.trans hcount) hless).ne
  · exact hequal
  · exact absurd heq (millionthsRank_lt hcount hmore).ne'

theorem five_pow_pos : 0 < Nat.pow 5 1074 := Nat.pow_pos (show 0 < 5 by decide)

theorem ten_pow_eq_mul (n : Nat) : 10 ^ n = 2 ^ n * Nat.pow 5 n := Nat.mul_pow 2 5 n

/-- One is a whole number of the steps in which expansions are counted. -/
theorem ten_pow_eq : 10 ^ 1068 * 10 ^ 6 = unitsPerOne * Nat.pow 5 1074 := by
  rw [← pow_add, unitsPerOne_eq, ten_pow_eq_mul]

/-- Decimals of at most six places are counts of millionths. -/
theorem nearestRank_ten_pow (coefficient places : Nat) :
    nearestRank (coefficient * 10 ^ (1068 + places)) (Nat.pow 5 1074) = millionthsRank (coefficient * 10 ^ places) := by
  apply nearestRank_congr five_pow_pos (by decide)
  calc coefficient * 10 ^ (1068 + places) * 10 ^ 6
      = coefficient * 10 ^ places * (10 ^ 1068 * 10 ^ 6) := by
        rw [pow_add, Nat.mul_comm (10 ^ 1068), ← Nat.mul_assoc, Nat.mul_assoc (coefficient * 10 ^ places)]
    _ = coefficient * 10 ^ places * unitsPerOne * Nat.pow 5 1074 := by rw [ten_pow_eq, ← Nat.mul_assoc]

/-- Multiples of 10⁻⁶ are read as the numbers nearest to them. -/
theorem readsAs_iff_millionthsRank (rank coefficient places : Nat) :
    readsAs rank (coefficient * 10 ^ (1068 + places)) = true ↔ millionthsRank (coefficient * 10 ^ places) = rank := by
  rw [readsAs, beq_iff_eq, nearestRank_ten_pow]

/-- The millionth is a neighbour of the number's expansion, because on both sides the next millionth has a different
    nearest number. -/
theorem eq_below_or_eq_above (hcount : count ≤ 10 ^ 6) :
    count = units (millionthsRank count) * Nat.pow 5 1074 / 10 ^ 1068 ∨
      count = units (millionthsRank count) * Nat.pow 5 1074 / 10 ^ 1068 + 1 := by
  have hrank : millionthsRank count ≤ infiniteRank := Nat.le_of_lt_succ (nearestRank_lt _ _)
  have hself := beq_iff_eq.mp (readsAs_expansion hrank)
  have hread (coefficient : Nat) :
      nearestRank (coefficient * 10 ^ 1068) (Nat.pow 5 1074) = millionthsRank coefficient := by
    have hread := nearestRank_ten_pow coefficient 0
    rwa [Nat.add_zero, pow_zero, Nat.mul_one] at hread
  have hstep : 0 < 10 ^ 1068 := pow_pos (show 0 < 10 by decide) _
  generalize units (millionthsRank count) * Nat.pow 5 1074 = expansion at *
  generalize 10 ^ 1068 = step at *
  have hbelow : ¬ count + 1 ≤ expansion / step := by
    intro hle
    have hmono := nearestRank_mono five_pow_pos five_pow_pos
      (Nat.mul_le_mul_right (Nat.pow 5 1074) ((Nat.le_div_iff_mul_le hstep).mp hle))
    rw [hread, hself] at hmono
    exact absurd hmono (millionthsRank_lt_succ hcount).not_ge
  have habove : ¬ expansion / step + 1 < count := by
    intro hmore
    have hless : expansion / step < count - 1 := by omega
    have hpositive : 0 < count := (Nat.zero_le _).trans_lt hmore
    have hmono := nearestRank_mono five_pow_pos five_pow_pos
      (Nat.mul_le_mul_right (Nat.pow 5 1074) ((Nat.div_lt_iff_lt_mul hstep).mp hless).le)
    rw [hread, hself] at hmono
    exact absurd hmono (millionthsRank_lt (show count - 1 ≤ 10 ^ 6 by omega) (Nat.sub_lt hpositive Nat.one_pos)).not_ge
  omega

/-- A cut is made wherever one of the two neighbours is read back. -/
theorem exists_cutAt_eq (tie : Tie) {readsBack : Nat → Bool} {expansion places coefficient : Nat}
    (hneighbour : coefficient = expansion / 10 ^ places ∨ coefficient = expansion / 10 ^ places + 1)
    (hreads : readsBack (coefficient * 10 ^ places) = true) : ∃ cut, cutAt tie readsBack expansion places = some cut := by
  have hstep : Nat.pow 10 places = 10 ^ places := rfl
  simp only [cutAt, hstep]
  cases hlow : readsBack (expansion / 10 ^ places * 10 ^ places) <;>
    cases hhigh : readsBack ((expansion / 10 ^ places + 1) * 10 ^ places) <;> dsimp only
  · rcases hneighbour with rfl | rfl
    · exact absurd hreads (by simp [hlow])
    · exact absurd hreads (by simp [hhigh])
  · exact ⟨_, rfl⟩
  · exact ⟨_, rfl⟩
  · cases tie <;> split <;> [skip; split; skip; split] <;> exact ⟨_, rfl⟩

/-- The search ends no later than where a cut can be made. -/
theorem exists_cutFrom_eq {tie : Tie} {readsBack : Nat → Bool} {expansion places cut : Nat} (hcut : places ≠ 0)
    (hfound : cutAt tie readsBack expansion places = some cut) {start : Nat} (hstart : places ≤ start) :
    ∃ coefficient more : Nat,
      cutFrom tie readsBack expansion start = ⟨coefficient, ((places + more : Nat) : Int) - 1074⟩ ∧
        readsBack (coefficient * 10 ^ (places + more)) = true := by
  induction start with
  | zero => omega
  | succ start ih =>
    unfold cutFrom
    cases hhere : cutAt tie readsBack expansion (start + 1) with
    | some coefficient =>
      obtain ⟨more, hmore⟩ := Nat.exists_eq_add_of_le hstart
      exact ⟨coefficient, more, by rw [hmore], by rw [← hmore]; exact readsBack_of_cutAt hhere⟩
    | none =>
      have hne : places ≠ start + 1 := by
        rintro rfl
        rw [hfound] at hhere
        cases hhere
      exact ih (by omega)

/-- The search starts at the length of the expansion, which is long enough. -/
theorem le_decimalLength {n : Nat} (hn : 10 ^ 1067 ≤ n) : 1068 ≤ decimalLength n := by
  have hlog : 3544 ≤ n.log2 := by
    rw [Nat.le_log2 (Nat.pos_iff_ne_zero.mp ((Nat.pow_pos (by decide)).trans_le hn))]
    exact le_trans (by decide +kernel) hn
  have hguess : 1066 ≤ n.log2 * 30102 / 100000 := by omega
  rw [decimalLength]
  generalize n.log2 * 30102 / 100000 = guess at *
  split
  · omega
  · rename_i hnot
    by_contra hless
    have hsmall : guess + 1 ≤ 1067 := Nat.le_of_lt_succ (Nat.lt_of_not_le hless)
    have hpower : 10 ^ (guess + 1) ≤ 10 ^ 1067 := pow_le_pow_right₀ (by decide) hsmall
    exact hnot (hpower.trans hn)

/-- The expansion of a millionth has at least 1068 digits, so that the search begins above its six places. -/
theorem ten_pow_le_expansion (hpositive : 0 < count) :
    10 ^ 1067 ≤ units (millionthsRank count) * Nat.pow 5 1074 := by
  have hrank : millionthsRank count ≤ infiniteRank := Nat.le_of_lt_succ (nearestRank_lt _ _)
  have hself := beq_iff_eq.mp (readsAs_expansion hrank)
  have hless : nearestRank (10 ^ 1067) (Nat.pow 5 1074) < millionthsRank 1 := by decide +kernel
  by_contra hnot
  have hmono := nearestRank_mono five_pow_pos five_pow_pos (Nat.mul_le_mul_right (Nat.pow 5 1074) (Nat.le_of_not_le hnot))
  rw [hself] at hmono
  exact absurd (hmono.trans_lt hless) (millionthsRank_le_millionthsRank hpositive).not_gt

/-- The shortest decimal of the number nearest to a millionth has the value of the millionth. Different millionths
    have different nearest numbers, so that a decimal of at most six places that is read as such a number is the
    millionth itself; and the search comes to it before it comes to more places. -/
theorem shortest_millionthsRank (tie : Tie) (hpositive : 0 < count) (hcount : count ≤ 10 ^ 6) :
    ∃ coefficient places : Nat, shortest tie (millionthsRank count) = ⟨coefficient, (places : Int) - 6⟩ ∧
      coefficient * 10 ^ places = count := by
  have hreads : readsAs (millionthsRank count) (count * 10 ^ 1068) = true := by
    have hiff := readsAs_iff_millionthsRank (millionthsRank count) count 0
    rw [Nat.add_zero, pow_zero, Nat.mul_one] at hiff
    exact hiff.mpr rfl
  obtain ⟨cut, hcut⟩ := exists_cutAt_eq tie (eq_below_or_eq_above hcount) hreads
  obtain ⟨coefficient, more, hshortest, hback⟩ := exists_cutFrom_eq (by decide) hcut
    (le_decimalLength (ten_pow_le_expansion hpositive))
  refine ⟨coefficient, more, ?_, eq_of_millionthsRank_eq hcount ((readsAs_iff_millionthsRank _ _ more).mp hback)⟩
  rw [shortest]
  exact hshortest.trans (by rw [show ((1068 + more : Nat) : Int) - 1074 = more - 6 by omega])

/-- A numeral with at most six decimals has a whole number of millionths as its value. -/
theorem magnitude_of_writes {numeral : Numeral} {coefficient places : Nat}
    (hwrites : numeral.Writes (Nat.toDigits 10 coefficient) ((places : Int) - 6)) :
    numeral.magnitude = ((coefficient * 10 ^ places : Nat) : ℚ) / 10 ^ 6 := by
  have hplaces : (-((places : Int) - 6)).toNat = 6 - places := by omega
  have hzeros : ((places : Int) - 6).toNat = places - 6 := by omega
  have hpowers : 10 ^ (places - 6) * 10 ^ 6 = 10 ^ places * 10 ^ (6 - places) := by
    rw [← pow_add, ← pow_add]
    congr 1
    omega
  rw [Numeral.magnitude, hwrites.digitsValue_eq, hwrites.length_fraction, digitsValue_toDigits, hplaces, hzeros,
    div_eq_div_iff (by positivity) (by positivity)]
  have hcross : coefficient * 10 ^ (places - 6) * 10 ^ 6 = coefficient * 10 ^ places * 10 ^ (6 - places) := by
    rw [Nat.mul_assoc, hpowers, Nat.mul_assoc]
  exact_mod_cast hcross

/-- The text of a millionth, zero included, is that of a decimal with at most six places. -/
theorem magnitudeText_millionths (hcount : count ≤ 10 ^ 6) :
    ∃ coefficient places : Nat, coefficient * 10 ^ places = count ∧
      magnitudeText .plain (millionthsRank count) =
        positionalText false (Nat.toDigits 10 coefficient) ((places : Int) - 6) := by
  rcases Nat.eq_zero_or_pos count with rfl | hpositive
  · exact ⟨0, 6, Nat.zero_mul _, by rw [millionthsRank_zero]; rfl⟩
  · obtain ⟨coefficient, places, hshortest, hvalue⟩ := shortest_millionthsRank .upward hpositive hcount
    have hless := millionthsRank_lt (Nat.zero_le _) hpositive
    refine ⟨coefficient, places, hvalue, ?_⟩
    rw [magnitudeText, if_neg (by omega), NumberStyle.plain]
    dsimp only
    rw [if_pos rfl, hshortest, Nat.toString_eq_repr, Nat.toList_repr]

/-- The number nearest to a millionth is written with at most six decimals, and exactly. -/
theorem exists_toText_millionths (negative : Bool) (hcount : count ≤ 10 ^ 6) :
    ∃ numeral : Numeral, (nearest negative (count * unitsPerOne) (10 ^ 6)).toText = numeral.text ∧
      numeral.negative = negative ∧ numeral.fraction.length ≤ 6 ∧ numeral.magnitude = count / 10 ^ 6 := by
  have hfinite := ((millionthsRank_lt_succ hcount).trans_le (Nat.le_of_lt_succ (nearestRank_lt _ _))).ne
  obtain ⟨coefficient, places, hvalue, htext⟩ := magnitudeText_millionths hcount
  obtain ⟨numeral, hsign, hwrites⟩ := Numeral.exists_writes negative coefficient ((places : Int) - 6)
  refine ⟨numeral, ?_, hsign, ?_, ?_⟩
  · have hwritten := toText_number negative ⟨millionthsRank count, nearestRank_lt _ _⟩ hfinite
    rw [htext, hwrites.chars_eq] at hwritten
    rw [Numeral.text, hsign]
    exact hwritten
  · rw [hwrites.length_fraction]
    omega
  · rw [magnitude_of_writes hwrites, hvalue]

end ExperimentCharts.Binary64
