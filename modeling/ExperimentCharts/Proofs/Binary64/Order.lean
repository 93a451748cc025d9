import ExperimentCharts.Proofs.Binary64.Arithmetic

namespace ExperimentCharts.Binary64

variable {x y lower upper : Binary64} {p q l u : Int}

/-- Whatever is a number has a place on the line. -/
theorem exists_position (hx : x.isNaN = false) : ∃ p, x.position = some p := by
  cases x with
  | nan negative => cases hx
  | number negative rank => exact ⟨_, rfl⟩

theorem isNaN_of_position (hx : x.position = some p) : x.isNaN = false := by
  cases x with
  | nan negative => cases hx
  | number negative rank => rfl

/-- Numbers compare as their places do. -/
theorem lt_iff_position (hx : x.position = some p) (hy : y.position = some q) : x < y ↔ p < q := by
  change lt x y = true ↔ _
  simp [lt, hx, hy]

/-- The same holds of the order that admits equality, in which both zeros have one place. -/
theorem le_iff_position (hx : x.position = some p) (hy : y.position = some q) : x ≤ y ↔ p ≤ q := by
  change le x y = true ↔ _
  simp [le, hx, hy]

/-- Only numbers that have a place compare. -/
theorem exists_position_of_le (hle : x ≤ y) :
    ∃ p q, x.position = some p ∧ y.position = some q ∧ p ≤ q := by
  change le x y = true at hle
  unfold le at hle
  split at hle
  · rename_i p q hx hy
    exact ⟨p, q, hx, hy, of_decide_eq_true hle⟩
  · cases hle

theorem isNaN_of_le (hle : x ≤ y) : x.isNaN = false ∧ y.isNaN = false := by
  obtain ⟨p, q, hp, hq, -⟩ := exists_position_of_le hle
  exact ⟨isNaN_of_position hp, isNaN_of_position hq⟩

/-- A number is at most itself, which not-a-number is not. -/
theorem le_self (hx : x.isNaN = false) : x ≤ x := by
  obtain ⟨p, hp⟩ := exists_position hx
  rw [le_iff_position hp hp]

theorem le_of_le_of_le {z : Binary64} (hxy : x ≤ y) (hyz : y ≤ z) : x ≤ z := by
  obtain ⟨p, q, hp, hq, hpq⟩ := exists_position_of_le hxy
  obtain ⟨q', r, hq', hr, hqr⟩ := exists_position_of_le hyz
  obtain rfl : q = q' := Option.some.inj (hq.symm.trans hq')
  rw [le_iff_position hp hr]
  omega

theorem le_or_le (hx : x.isNaN = false) (hy : y.isNaN = false) : x ≤ y ∨ y ≤ x := by
  obtain ⟨p, hp⟩ := exists_position hx
  obtain ⟨q, hq⟩ := exists_position hy
  rw [le_iff_position hp hq, le_iff_position hq hp]
  exact le_total p q

/-- The strict order is the other one without its converse. Nothing needs to be known about the two sides, since what
    is not a number is in neither. -/
theorem lt_iff_le_not_le : x < y ↔ x ≤ y ∧ ¬ y ≤ x := by
  change lt x y = true ↔ le x y = true ∧ ¬ le y x = true
  cases hx : x.position with
  | none => simp [lt, le, hx]
  | some p =>
    cases hy : y.position with
    | none => simp [lt, le, hx, hy]
    | some q =>
      simp only [lt, le, hx, hy, decide_eq_true_eq]
      omega

/-- Numeric equality is the equivalence of the numeric order. -/
theorem equal_iff_le_and_le : x.equal y = true ↔ x ≤ y ∧ y ≤ x := by
  change equal x y = true ↔ le x y = true ∧ le y x = true
  cases hx : x.position with
  | none => simp [equal, le, hx]
  | some p =>
    cases hy : y.position with
    | none => simp [equal, le, hx, hy]
    | some q =>
      simp only [equal, le, hx, hy, decide_eq_true_eq]
      omega

theorem isNaN_of_lt (hless : x < y) : x.isNaN = false ∧ y.isNaN = false := isNaN_of_le (lt_iff_le_not_le.mp hless).1

/-- A rounded fraction stands at its nearest rank. -/
theorem position_nearest (num den : Nat) : (nearest false num den).position = some (nearestRank num den : Int) := rfl

theorem position_max (hx : x.position = some p) (hy : y.position = some q) :
    (x.max y).position = some (Max.max p q) := by
  rw [max, if_neg (by simp [isNaN_of_position hx])]
  split
  · rename_i hless
    rw [hy, max_eq_right ((lt_iff_position hx hy).mp hless).le]
  · rename_i hnot
    rw [hx, max_eq_left (not_lt.mp ((lt_iff_position hx hy).not.mp hnot))]

theorem position_min (hx : x.position = some p) (hy : y.position = some q) :
    (x.min y).position = some (Min.min p q) := by
  rw [min, if_neg (by simp [isNaN_of_position hx])]
  split
  · rename_i hless
    rw [hy, min_eq_right ((lt_iff_position hy hx).mp hless).le]
  · rename_i hnot
    rw [hx, min_eq_left (not_lt.mp ((lt_iff_position hy hx).not.mp hnot))]

/-- Clamping a number clamps its place. -/
theorem position_clamp (hx : x.position = some p) (hlower : lower.position = some l)
    (hupper : upper.position = some u) :
    (x.clamp lower upper).position = some (Min.min (Max.max p l) u) :=
  position_min (position_max hx hlower) hupper

/-- Clamping moves a number into a range. -/
theorem clamp_mem (hx : x.isNaN = false) (hrange : lower ≤ upper) :
    lower ≤ x.clamp lower upper ∧ x.clamp lower upper ≤ upper := by
  obtain ⟨p, hp⟩ := exists_position hx
  obtain ⟨l, u, hlower, hupper, hle⟩ := exists_position_of_le hrange
  have hclamp := position_clamp hp hlower hupper
  rw [le_iff_position hlower hclamp, le_iff_position hclamp hupper]
  omega

/-- The total order has one more place, for the negative zero. -/
theorem sortKey_of_position (hx : x.position = some p) :
    (x.sortKey = p ∧ 0 ≤ p) ∨ (x.sortKey = p - 1 ∧ p ≤ 0) := by
  rcases x with _ | ⟨_ | _, rank⟩ <;> cases hx <;> simp [sortKey]

/-- The total order agrees with the numeric one wherever that compares at all. -/
theorem le_of_totalLe (hx : x.isNaN = false) (hy : y.isNaN = false) (hle : x.totalLe y = true) : x ≤ y := by
  obtain ⟨p, hp⟩ := exists_position hx
  obtain ⟨q, hq⟩ := exists_position hy
  have hkey := sortKey_of_position hp
  have hkey' := sortKey_of_position hq
  rw [totalLe, decide_eq_true_eq] at hle
  rw [le_iff_position hp hq]
  omega

/-- What is less in the numeric order comes first in the total order. -/
theorem totalLe_of_lt (hless : x < y) : x.totalLe y = true := by
  obtain ⟨hx, hy⟩ := isNaN_of_lt hless
  by_contra hnot
  have hback := (Bool.or_eq_true _ _ ▸ totalLe_total x y).resolve_left hnot
  exact (lt_iff_le_not_le.mp hless).2 (le_of_totalLe hy hx hback)

theorem pairwise_sorted (values : List Binary64) :
    (sorted values).Pairwise fun x y => x.totalLe y = true :=
  List.pairwise_mergeSort totalLe_trans totalLe_total values

theorem perm_sorted (values : List Binary64) : (sorted values).Perm values := List.mergeSort_perm values totalLe

/-- There is one ascending arrangement of the values, because values in the same place of the total order are the
    same. -/
theorem sorted_eq_of_ascending {values ascending : List Binary64} (hperm : ascending.Perm values)
    (hascending : ascending.Pairwise fun x y => x.totalLe y = true) : sorted values = ascending :=
  List.Perm.eq_of_pairwise (fun _ _ _ _ => totalLe_antisymm) (pairwise_sorted values) hascending
    ((perm_sorted values).trans hperm.symm)

/-- Sorting forgets the order of the values. -/
theorem sorted_eq_of_perm {values others : List Binary64} (hperm : values.Perm others) :
    sorted values = sorted others :=
  sorted_eq_of_ascending ((perm_sorted others).trans hperm.symm) (pairwise_sorted others)

end ExperimentCharts.Binary64
