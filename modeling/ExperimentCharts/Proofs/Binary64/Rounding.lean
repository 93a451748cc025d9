import ExperimentCharts.Binary64.Basic
import Mathlib.Tactic.Linarith
import Mathlib.Tactic.Ring

namespace ExperimentCharts.Binary64

theorem unitsPerOne_eq : unitsPerOne = 2 ^ 1074 := rfl

theorem unitsPerOne_pos : 0 < unitsPerOne := Nat.two_pow_pos _

/-- Rounding to a whole number, by the middle above each one. -/
theorem roundHalfEven_le_iff {num den : Nat} (hden : 0 < den) (m : Nat) :
    roundHalfEven num den ≤ m ↔
      2 * num < (2 * m + 1) * den ∨ (2 * num = (2 * m + 1) * den ∧ m % 2 = 0) := by
  have hdivision := Nat.div_add_mod num den
  have hremainder := Nat.mod_lt num hden
  unfold roundHalfEven
  dsimp only
  generalize num / den = quotient at *
  generalize num % den = remainder at *
  have hmiddle : (2 * m + 1) * den = 2 * (den * m) + den := by ring
  rw [hmiddle]
  rcases Nat.lt_trichotomy quotient m with hlt | heq | hgt
  · have hbelow : den * (quotient + 1) ≤ den * m := Nat.mul_le_mul_left den hlt
    rw [Nat.mul_succ] at hbelow
    split <;> [skip; split] <;> omega
  · subst heq
    split <;> [skip; split] <;> omega
  · have habove : den * (m + 1) ≤ den * quotient := Nat.mul_le_mul_left den hgt
    rw [Nat.mul_succ] at habove
    split <;> [skip; split] <;> omega

/-- A rank taken apart: a significand of at most 53 bits, of exactly 53 unless its step is one unit,
    and the number of doublings of that step. -/
structure IsSignificand (rank shift significand : Nat) : Prop where
  rank_eq : rank = shift * ranksPerBinade + significand
  lt : significand < 2 * ranksPerBinade
  full : shift = 0 ∨ ranksPerBinade ≤ significand

/-- Every rank is that of a significand and a shift, so that facts about ranks can be proved for these. -/
theorem exists_isSignificand (rank : Nat) : ∃ shift significand, IsSignificand rank shift significand := by
  by_cases hsmall : rank < ranksPerBinade
  · exact ⟨0, rank, by omega, by omega, .inl rfl⟩
  · have hdivision := Nat.div_add_mod rank ranksPerBinade
    have hremainder := Nat.mod_lt rank (show 0 < ranksPerBinade by decide)
    have hquotient : 1 ≤ rank / ranksPerBinade :=
      (Nat.one_le_div_iff (by decide)).mpr (Nat.le_of_not_lt hsmall)
    refine ⟨rank / ranksPerBinade - 1, ranksPerBinade + rank % ranksPerBinade, ?_, by omega, .inr (by omega)⟩
    obtain ⟨above, habove⟩ := Nat.exists_eq_add_of_le' hquotient
    rw [habove] at hdivision ⊢
    rw [Nat.add_sub_cancel]
    linarith [hdivision]

/-- The value of a significand after some doublings, also of the one past the largest. -/
theorem units_shift {shift significand : Nat} (hle : significand ≤ 2 * ranksPerBinade)
    (hfull : shift = 0 ∨ ranksPerBinade ≤ significand) :
    units (shift * ranksPerBinade + significand) = significand * 2 ^ shift := by
  unfold units
  by_cases hsmall : significand < ranksPerBinade
  · have hzero : shift = 0 := hfull.resolve_right (by omega)
    simp [hzero, hsmall]
  · have hlarge : ¬ shift * ranksPerBinade + significand < ranksPerBinade := by omega
    rw [if_neg hlarge]
    change (_ + _) * 2 ^ _ = _
    obtain ⟨rest, rfl⟩ := Nat.exists_eq_add_of_le (Nat.le_of_not_lt hsmall)
    have hrank : shift * ranksPerBinade + (ranksPerBinade + rest) =
        rest + ranksPerBinade * (shift + 1) := by ring
    rw [hrank, Nat.add_mul_mod_self_left, Nat.add_mul_div_left _ _ (by decide)]
    rcases Nat.lt_or_eq_of_le (show rest ≤ ranksPerBinade by omega) with hrest | rfl
    · rw [Nat.mod_eq_of_lt hrest, Nat.div_eq_of_lt hrest]
      congr 2
      omega
    · rw [Nat.mod_self, Nat.div_self (by decide)]
      rw [show 1 + (shift + 1) - 1 = shift + 1 by omega, Nat.pow_succ]
      ring

/-- The value of a rank is its significand, doubled as often as its shift says. -/
theorem IsSignificand.units_eq {rank shift significand : Nat}
    (hrank : IsSignificand rank shift significand) : units rank = significand * 2 ^ shift := by
  rw [hrank.rank_eq]
  exact units_shift (Nat.le_of_lt hrank.lt) hrank.full

/-- The next rank is one step further, also across a power of two. -/
theorem IsSignificand.units_succ_eq {rank shift significand : Nat}
    (hrank : IsSignificand rank shift significand) : units (rank + 1) = (significand + 1) * 2 ^ shift := by
  rw [hrank.rank_eq, Nat.add_assoc]
  exact units_shift hrank.lt (hrank.full.imp_right fun h => Nat.le_succ_of_le h)

/-- The next rank has a greater value, across the ends of binades too. -/
theorem units_lt_units_succ (rank : Nat) : units rank < units (rank + 1) := by
  obtain ⟨shift, significand, hrank⟩ := exists_isSignificand rank
  rw [hrank.units_eq, hrank.units_succ_eq]
  exact Nat.mul_lt_mul_of_pos_right (Nat.lt_succ_self _) (Nat.two_pow_pos shift)

/-- Ranks are ordered as their values are. No rank is excepted, not even those beyond infinity. -/
theorem units_strictMono : StrictMono units := strictMono_nat_of_lt_succ units_lt_units_succ

theorem units_zero : units 0 = 0 := rfl

theorem units_one : units 1 = 1 := rfl

theorem units_pos {rank : Nat} (hrank : 0 < rank) : 0 < units rank := units_strictMono hrank

theorem units_rankOfOne : units 0x3FF0000000000000 = unitsPerOne := by
  have hunits := @units_shift 1022 ranksPerBinade (by decide) (.inr le_rfl)
  rw [show 1022 * ranksPerBinade + ranksPerBinade = 0x3FF0000000000000 by decide] at hunits
  rw [hunits, unitsPerOne_eq, show ranksPerBinade = 2 ^ 52 by decide, ← pow_add]

/-- The power of two above the whole numbers of 64 bits. -/
theorem units_rankOfTwoPow : units 0x43F0000000000000 = 2 ^ 64 * unitsPerOne := by
  have hunits := @units_shift 1086 ranksPerBinade (by decide) (.inr le_rfl)
  rw [show 1086 * ranksPerBinade + ranksPerBinade = 0x43F0000000000000 by decide] at hunits
  rw [hunits, unitsPerOne_eq, show ranksPerBinade = 2 ^ 52 by decide, ← pow_add, ← pow_add]

/-- Infinity stands where the next power of two would. -/
theorem units_infiniteRank : units infiniteRank = 2 ^ 1024 * unitsPerOne := by
  have hunits := @units_shift 2045 (2 * ranksPerBinade) le_rfl (.inr (by decide))
  rw [show 2045 * ranksPerBinade + 2 * ranksPerBinade = infiniteRank by decide] at hunits
  rw [hunits, unitsPerOne_eq, show 2 * ranksPerBinade = 2 ^ 53 by decide, ← pow_add, ← pow_add]

/-- The doublings that rounding starts from place the fraction between two powers of two. -/
theorem log2_shift_bounds (num : Nat) {den : Nat} (hden : 0 < den) :
    num < 2 * ranksPerBinade * (den * 2 ^ ((num / den).log2 - 52)) ∧
      ((num / den).log2 - 52 = 0 ∨ ranksPerBinade * (den * 2 ^ ((num / den).log2 - 52)) ≤ num) := by
  have hpower (k : Nat) : ranksPerBinade * (den * 2 ^ k) = 2 ^ (k + 52) * den := by
    rw [Nat.pow_add, show (2 : Nat) ^ 52 = ranksPerBinade by decide]
    ring
  constructor
  · rw [Nat.mul_assoc, hpower, ← Nat.mul_assoc, ← Nat.pow_succ', ← Nat.div_lt_iff_lt_mul hden]
    exact Nat.lt_of_lt_of_le Nat.lt_log2_self (Nat.pow_le_pow_right (by decide) (by omega))
  · by_cases hlog : (num / den).log2 ≤ 52
    · exact .inl (by omega)
    · right
      have hquotient : num / den ≠ 0 := by
        intro hzero
        rw [hzero] at hlog
        exact hlog (by decide)
      rw [hpower, ← Nat.le_div_iff_mul_le hden, show (num / den).log2 - 52 + 52 = (num / den).log2 by omega]
      exact Nat.log2_self_le hquotient

/-- A fraction is rounded to at most a finite rank exactly when it lies below the middle between that rank and the
    next one, or on the middle with the rank even. Everything else about rounding follows from this. -/
theorem nearestRank_le_iff {num den : Nat} (hden : 0 < den) {rank : Nat} (hfinite : rank < infiniteRank) :
    nearestRank num den ≤ rank ↔
      2 * num < (units rank + units (rank + 1)) * den ∨
        (2 * num = (units rank + units (rank + 1)) * den ∧ rank % 2 = 0) := by
  obtain ⟨shift, significand, hrank⟩ := exists_isSignificand rank
  obtain ⟨hbelow, habove⟩ := log2_shift_bounds num hden
  unfold nearestRank
  dsimp only
  change Min.min (_ * _ + roundHalfEven num (den * 2 ^ ((num / den).log2 - 52))) _ ≤ _ ↔ _
  generalize (num / den).log2 - 52 = start at *
  have hmiddle : units rank + units (rank + 1) = (2 * significand + 1) * 2 ^ shift := by
    rw [hrank.units_eq, hrank.units_succ_eq]
    ring
  have hstep : 0 < den * 2 ^ start := Nat.mul_pos hden (Nat.two_pow_pos start)
  have hcap : Min.min (start * ranksPerBinade + roundHalfEven num (den * 2 ^ start)) infiniteRank ≤ rank ↔
      start * ranksPerBinade + roundHalfEven num (den * 2 ^ start) ≤ rank := by omega
  rw [hmiddle, hcap, hrank.rank_eq]
  have hlt := hrank.lt
  have hparity : (shift * ranksPerBinade + significand) % 2 = significand % 2 := by
    rw [show ranksPerBinade = 2 * 0x8000000000000 by decide, Nat.mul_left_comm, Nat.add_comm,
      Nat.add_mul_mod_self_left]
  rw [hparity]
  rcases Nat.lt_trichotomy start shift with hless | heq | hmore
  · -- The fraction lies in a lower binade, so both sides hold.
    have hfull : ranksPerBinade ≤ significand := hrank.full.resolve_left (by omega)
    have hround : roundHalfEven num (den * 2 ^ start) ≤ 2 * ranksPerBinade := by
      rw [roundHalfEven_le_iff hstep]
      left
      calc 2 * num < 2 * (2 * ranksPerBinade * (den * 2 ^ start)) := by omega
        _ ≤ (2 * (2 * ranksPerBinade) + 1) * (den * 2 ^ start) := by
          rw [Nat.add_mul, Nat.mul_assoc 2 (2 * ranksPerBinade)]
          exact Nat.le_add_right _ _
    have hshift : (start + 1) * ranksPerBinade ≤ shift * ranksPerBinade := Nat.mul_le_mul_right _ hless
    rw [Nat.succ_mul] at hshift
    have hvalue : 2 * num < (2 * significand + 1) * 2 ^ shift * den := by
      have hpower : 2 * 2 ^ start ≤ 2 ^ shift := by
        rw [← Nat.pow_succ']
        exact Nat.pow_le_pow_right (by decide) hless
      calc 2 * num < 2 * (2 * ranksPerBinade * (den * 2 ^ start)) := by omega
        _ = 2 * ranksPerBinade * (2 * 2 ^ start) * den := by ring
        _ ≤ (2 * significand + 1) * 2 ^ shift * den :=
          Nat.mul_le_mul_right _ (Nat.mul_le_mul (by omega) hpower)
    exact ⟨fun _ => .inl hvalue, fun _ => by omega⟩
  · subst heq
    rw [show (2 * significand + 1) * 2 ^ start * den = (2 * significand + 1) * (den * 2 ^ start) by ring,
      ← roundHalfEven_le_iff hstep, Nat.add_le_add_iff_left]
  · -- The fraction lies in a higher binade, so neither side holds.
    have hlow := habove.resolve_left (by omega)
    have hpower : 2 * 2 ^ shift ≤ 2 ^ start := by
      rw [← Nat.pow_succ']
      exact Nat.pow_le_pow_right (by decide) hmore
    have hvalue : (2 * significand + 1) * 2 ^ shift * den < 2 * num := by
      calc (2 * significand + 1) * 2 ^ shift * den < 2 * (2 * ranksPerBinade) * 2 ^ shift * den := by
            apply Nat.mul_lt_mul_of_pos_right _ hden
            exact Nat.mul_lt_mul_of_pos_right (by omega) (Nat.two_pow_pos shift)
        _ = 2 * ranksPerBinade * (2 * 2 ^ shift) * den := by ring
        _ ≤ 2 * ranksPerBinade * 2 ^ start * den :=
          Nat.mul_le_mul_right _ (Nat.mul_le_mul_left _ hpower)
        _ = 2 * (ranksPerBinade * (den * 2 ^ start)) := by ring
        _ ≤ 2 * num := Nat.mul_le_mul_left 2 hlow
    have hround : ranksPerBinade ≤ roundHalfEven num (den * 2 ^ start) := by
      by_contra hnot
      have hless : roundHalfEven num (den * 2 ^ start) ≤ ranksPerBinade - 1 := by omega
      rw [roundHalfEven_le_iff hstep] at hless
      have hcount : (2 * (ranksPerBinade - 1) + 1) * (den * 2 ^ start) <
          2 * ranksPerBinade * (den * 2 ^ start) :=
        Nat.mul_lt_mul_of_pos_right (by decide) hstep
      rw [Nat.mul_assoc] at hcount
      omega
    have hshift : (shift + 1) * ranksPerBinade ≤ start * ranksPerBinade := Nat.mul_le_mul_right _ hmore
    rw [Nat.succ_mul] at hshift
    exact ⟨fun _ => by omega, fun _ => by omega⟩

/-- Rounding keeps the order of fractions. -/
theorem nearestRank_mono {num den num' den' : Nat} (hden : 0 < den) (hden' : 0 < den')
    (hle : num * den' ≤ num' * den) : nearestRank num den ≤ nearestRank num' den' := by
  rcases Nat.lt_or_ge (nearestRank num' den') infiniteRank with hfinite | hinfinite
  · have hself := (nearestRank_le_iff hden' hfinite).mp le_rfl
    rw [nearestRank_le_iff hden hfinite]
    generalize units (nearestRank num' den') + units (nearestRank num' den' + 1) = middle at *
    have hcross : 2 * num * den' ≤ 2 * num' * den := by linarith
    rcases hself with hlt | ⟨heq, heven⟩
    · left
      have hscaled : 2 * num' * den < middle * den' * den := Nat.mul_lt_mul_of_pos_right hlt hden
      apply Nat.lt_of_mul_lt_mul_right (a := den')
      linarith
    · have hscaled : 2 * num' * den = middle * den' * den := by rw [heq]
      have hbound : 2 * num ≤ middle * den := by
        apply Nat.le_of_mul_le_mul_right _ hden'
        linarith
      rcases Nat.lt_or_eq_of_le hbound with hlt | heq'
      · exact .inl hlt
      · exact .inr ⟨heq', heven⟩
  · exact (Nat.le_of_lt_succ (nearestRank_lt num den)).trans hinfinite

/-- Rounding depends on the value of a fraction only. -/
theorem nearestRank_congr {num den num' den' : Nat} (hden : 0 < den) (hden' : 0 < den')
    (heq : num * den' = num' * den) : nearestRank num den = nearestRank num' den' :=
  Nat.le_antisymm (nearestRank_mono hden hden' heq.le) (nearestRank_mono hden' hden heq.ge)

/-- The value of a rank is rounded to that rank, the value of infinity included. -/
theorem nearestRank_units {rank : Nat} (hrank : rank ≤ infiniteRank) : nearestRank (units rank) 1 = rank := by
  apply Nat.le_antisymm
  · rcases Nat.lt_or_eq_of_le hrank with hfinite | rfl
    · rw [nearestRank_le_iff Nat.one_pos hfinite]
      have hnext := units_lt_units_succ rank
      omega
    · exact Nat.le_of_lt_succ (nearestRank_lt _ _)
  · by_contra hnot
    obtain ⟨before, rfl⟩ := Nat.exists_eq_add_of_le' (show 1 ≤ rank by omega)
    have hless : nearestRank (units (before + 1)) 1 ≤ before := by omega
    rw [nearestRank_le_iff Nat.one_pos (by omega)] at hless
    have hnext := units_lt_units_succ before
    omega

/-- A fraction of at least the value of a rank is rounded to that rank or a higher one. -/
theorem le_nearestRank {rank num den : Nat} (hden : 0 < den) (hrank : rank ≤ infiniteRank)
    (hle : units rank * den ≤ num) : rank ≤ nearestRank num den := by
  calc rank = nearestRank (units rank) 1 := (nearestRank_units hrank).symm
    _ ≤ nearestRank num den := nearestRank_mono Nat.one_pos hden (by omega)

/-- A fraction of at most the value of a rank is rounded to that rank or a lower one. -/
theorem nearestRank_le {rank num den : Nat} (hden : 0 < den) (hrank : rank ≤ infiniteRank)
    (hle : num ≤ units rank * den) : nearestRank num den ≤ rank := by
  calc nearestRank num den ≤ nearestRank (units rank) 1 := nearestRank_mono hden Nat.one_pos (by omega)
    _ = rank := nearestRank_units hrank

/-- Zero is rounded to zero, whatever it is a fraction of. -/
theorem nearestRank_zero {den : Nat} (hden : 0 < den) : nearestRank 0 den = 0 :=
  Nat.le_zero.mp (nearestRank_le hden (Nat.zero_le _) (Nat.zero_le _))

/-- The infinite rank is the only one of a number that is not finite. -/
theorem isFinite_number (negative : Bool) (rank : Fin (infiniteRank + 1)) :
    (Binary64.number negative rank).isFinite = true ↔ rank.val ≠ infiniteRank := by
  simp [isFinite]

/-- An amount of at most the value of a finite rank is rounded to a finite number. -/
theorem isFinite_nearest (negative : Bool) {num den rank : Nat} (hden : 0 < den) (hrank : rank < infiniteRank)
    (hle : num ≤ units rank * den) : (nearest negative num den).isFinite = true := by
  rw [nearest, isFinite_number]
  exact ((nearestRank_le hden hrank.le hle).trans_lt hrank).ne

end ExperimentCharts.Binary64
