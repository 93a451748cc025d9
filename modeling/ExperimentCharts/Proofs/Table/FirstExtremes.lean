import ExperimentCharts.Proofs.Binary64.Order
import ExperimentCharts.Proofs.Table.Extremes
import Mathlib.Data.List.Basic

namespace ExperimentCharts

section LinearOrder

variable {α : Type} [LinearOrder α] {values : List α} {range other : α × α}

/-- In a linear order only two values have all the values between them. -/
theorem Spans.eq (hspans : Spans id values range) (hother : Spans id values other) : range = other :=
  Prod.ext (le_antisymm (hspans.lower_le _ hother.lower_mem) (hother.lower_le _ hspans.lower_mem))
    (le_antisymm (hother.le_upper _ hspans.upper_mem) (hspans.le_upper _ hother.upper_mem))

theorem spans_id_of_minAndMax (hrange : minAndMax values = some range) : Spans id values range :=
  spans_of_minAndMax hrange fun _ _ _ _ => Iff.rfl

theorem minAndMax_eq_some_iff_spans : minAndMax values = some range ↔ Spans id values range := by
  refine ⟨spans_id_of_minAndMax, fun hspans => ?_⟩
  obtain ⟨actual, hactual⟩ := exists_minAndMax (List.ne_nil_of_mem hspans.lower_mem)
  rw [hactual, (spans_id_of_minAndMax hactual).eq hspans]

end LinearOrder

/-- Widening treats the two bounds apart. -/
theorem foldl_widen_eq {α : Type} [LT α] [DecidableLT α] (rest : List α) (range : α × α) :
    rest.foldl widen range =
      (rest.foldl (fun least value => if value < least then value else least) range.1,
        rest.foldl (fun greatest value => if greatest < value then value else greatest) range.2) := by
  induction rest generalizing range with
  | nil => rfl
  | cons value rest ih => exact ih (widen range value)

namespace Binary64

/-- Two comparisons, the second of them strict, that order the numbers and leave out what is not one. -/
structure OrdersNumbers (le lt : Binary64 → Binary64 → Prop) : Prop where
  isNaN : ∀ {x y : Binary64}, le x y → x.isNaN = false ∧ y.isNaN = false
  total : ∀ {x y : Binary64}, x.isNaN = false → y.isNaN = false → le x y ∨ le y x
  trans : ∀ {x y z : Binary64}, le x y → le y z → le x z
  lt_iff : ∀ {x y : Binary64}, lt x y ↔ le x y ∧ ¬ le y x
  equal_iff : ∀ {x y : Binary64}, x.equal y = true ↔ le x y ∧ le y x

/-- The numbers of the format upwards. -/
theorem ordersNumbers_le : OrdersNumbers (· ≤ ·) (· < ·) where
  isNaN := isNaN_of_le
  total := le_or_le
  trans := le_of_le_of_le
  lt_iff := lt_iff_le_not_le
  equal_iff := equal_iff_le_and_le

/-- The same downwards, for the greatest value. -/
theorem ordersNumbers_ge : OrdersNumbers (· ≥ ·) (· > ·) where
  isNaN hle := (isNaN_of_le hle).symm
  total hx hy := le_or_le hy hx
  trans hxy hyz := le_of_le_of_le hyz hxy
  lt_iff := lt_iff_le_not_le
  equal_iff := equal_iff_le_and_le.trans and_comm

/-- The extreme of the numbers among some values, and the first of its equals there: the first value that equals it is
    itself, to the sign of a zero. Only a number equals itself. -/
structure IsFirst (le : Binary64 → Binary64 → Prop) (values : List Binary64) (extreme : Binary64) : Prop where
  find?_equal : values.find? extreme.equal = some extreme
  le_of_mem : ∀ value ∈ values, value.isNaN = false → le extreme value

variable {le lt : Binary64 → Binary64 → Prop} {values rest : List Binary64} {extreme other value first : Binary64}
  {range : Binary64 × Binary64}

theorem OrdersNumbers.refl (horders : OrdersNumbers le lt) (hvalue : value.isNaN = false) : le value value :=
  (horders.total hvalue hvalue).elim id id

theorem OrdersNumbers.equal_self (horders : OrdersNumbers le lt) (hvalue : value.isNaN = false) :
    value.equal value = true :=
  horders.equal_iff.mpr ⟨horders.refl hvalue, horders.refl hvalue⟩

namespace IsFirst

theorem mem (hfirst : IsFirst le values extreme) : extreme ∈ values := List.mem_of_find?_eq_some hfirst.find?_equal

/-- The first of the extremes is a number, as it is comparable with itself. -/
theorem isNaN (hfirst : IsFirst le values extreme) (horders : OrdersNumbers le lt) : extreme.isNaN = false := by
  have hself := horders.equal_iff.mp (List.find?_some hfirst.find?_equal)
  exact (horders.isNaN hself.1).1

theorem singleton (horders : OrdersNumbers le lt) (hvalue : value.isNaN = false) : IsFirst le [value] value := by
  constructor
  · exact List.find?_cons_of_pos (horders.equal_self hvalue)
  · rw [List.forall_mem_singleton]
    exact horders.refl

/-- One more value takes the place of the extreme exactly if it lies strictly beyond it. -/
theorem step [DecidableRel lt] (hfirst : IsFirst le values extreme) (horders : OrdersNumbers le lt) :
    IsFirst le (values ++ [value]) (if lt value extreme then value else extreme) := by
  have hnumber := hfirst.isNaN horders
  obtain ⟨hfind, hextreme⟩ := hfirst
  split
  · rename_i hless
    obtain ⟨hle, hnot⟩ := horders.lt_iff.mp hless
    have hvalue := (horders.isNaN hle).1
    constructor
    · -- an earlier equal of the value would be a number beyond the extreme so far
      have hnone : values.find? value.equal = none := by
        rw [List.find?_eq_none]
        intro earlier hearlier hequal
        have hback := (horders.equal_iff.mp hequal).2
        exact hnot (horders.trans (hextreme earlier hearlier (horders.isNaN hback).1) hback)
      rw [List.find?_append, hnone, Option.none_or, List.find?_cons_of_pos (horders.equal_self hvalue)]
    · rw [List.forall_mem_append, List.forall_mem_singleton]
      exact ⟨fun earlier hearlier hnan => horders.trans hle (hextreme earlier hearlier hnan), horders.refl⟩
  · rename_i hnot
    constructor
    · rw [List.find?_append, hfind, Option.some_or]
    · rw [List.forall_mem_append, List.forall_mem_singleton]
      refine ⟨hextreme, fun hvalue => ?_⟩
      by_contra hbeyond
      have hback := (horders.total hnumber hvalue).resolve_left hbeyond
      exact hnot (horders.lt_iff.mpr ⟨hback, hbeyond⟩)

/-- After any number of further values the extreme is still the first of its equals. -/
theorem foldl [DecidableRel lt] (hfirst : IsFirst le values extreme) (horders : OrdersNumbers le lt) :
    IsFirst le (values ++ rest)
      (rest.foldl (fun extreme value => if lt value extreme then value else extreme) extreme) := by
  induction rest generalizing values extreme with
  | nil => rwa [List.append_nil]
  | cons value rest ih =>
    rw [List.append_cons]
    exact ih (hfirst.step horders)

/-- Two extremes in one direction are equal, and so they are the first of the same equals. -/
theorem eq (hfirst : IsFirst le values extreme) (hother : IsFirst le values other) (horders : OrdersNumbers le lt) :
    extreme = other := by
  have hle : le extreme other := hfirst.le_of_mem other hother.mem (hother.isNaN horders)
  have hback : le other extreme := hother.le_of_mem extreme hfirst.mem (hfirst.isNaN horders)
  have hequal : extreme.equal = other.equal := by
    funext value
    rw [Bool.eq_iff_iff, horders.equal_iff, horders.equal_iff]
    exact ⟨fun hvalue => ⟨horders.trans hback hvalue.1, horders.trans hvalue.2 hle⟩,
      fun hvalue => ⟨horders.trans hle hvalue.1, horders.trans hvalue.2 hback⟩⟩
  apply Option.some.inj
  rw [← hfirst.find?_equal, ← hother.find?_equal, hequal]

end IsFirst

/-- Nothing takes the place of a first value that is not a number. -/
theorem widen_of_isNaN (hfirst : first.isNaN = true) (value : Binary64) :
    widen (first, first) value = (first, first) := by
  have hlower : ¬ value < first := fun hless => by simp [(isNaN_of_lt hless).2] at hfirst
  have hupper : ¬ first < value := fun hless => by simp [(isNaN_of_lt hless).1] at hfirst
  rw [widen, if_neg hlower, if_neg hupper]

/-- Where the first value is a number, each extreme is the first of its equals. -/
theorem isFirst_of_minAndMax (hfirst : first.isNaN = false) (hrange : minAndMax (first :: rest) = some range) :
    IsFirst (· ≤ ·) (first :: rest) range.1 ∧ IsFirst (· ≥ ·) (first :: rest) range.2 := by
  obtain rfl := Option.some.inj hrange
  rw [foldl_widen_eq]
  exact ⟨(IsFirst.singleton ordersNumbers_le hfirst).foldl ordersNumbers_le,
    (IsFirst.singleton ordersNumbers_ge hfirst).foldl ordersNumbers_ge⟩

theorem minAndMax_eq_some_iff_isFirst (hfirst : first.isNaN = false) :
    minAndMax (first :: rest) = some range ↔
      IsFirst (· ≤ ·) (first :: rest) range.1 ∧ IsFirst (· ≥ ·) (first :: rest) range.2 := by
  refine ⟨isFirst_of_minAndMax hfirst, fun ⟨hleast, hgreatest⟩ => ?_⟩
  obtain ⟨actual, hactual⟩ := exists_minAndMax (List.cons_ne_nil first rest)
  obtain ⟨hleast', hgreatest'⟩ := isFirst_of_minAndMax hfirst hactual
  rw [hactual, Prod.ext (hleast'.eq hleast ordersNumbers_le) (hgreatest'.eq hgreatest ordersNumbers_ge)]

end Binary64

open Binary64

/-- There are extremes unless there are no values. In a linear order they are the two values with all the values
    between them. Where the first of some numbers of the format is not a number, both extremes are that one; otherwise
    they are the least and the greatest of those that are numbers, each the first of its equals, whatever stands
    between them. -/
theorem minAndMax_extremes :
    (∀ {α : Type} [LT α] [DecidableLT α] (values : List α), minAndMax values = none ↔ values = []) ∧
    (∀ {α : Type} [LinearOrder α] (values : List α) (range : α × α),
      minAndMax values = some range ↔ Spans id values range) ∧
    ∀ (first : Binary64) (rest : List Binary64),
      (first.isNaN = true → minAndMax (first :: rest) = some (first, first)) ∧
      (first.isNaN = false → ∀ range : Binary64 × Binary64,
        minAndMax (first :: rest) = some range ↔
          IsFirst (· ≤ ·) (first :: rest) range.1 ∧ IsFirst (· ≥ ·) (first :: rest) range.2) := by
  refine ⟨fun values => minAndMax_eq_none_iff, fun values range => minAndMax_eq_some_iff_spans, fun first rest => ?_⟩
  constructor
  · intro hfirst
    exact congrArg some (List.foldl_fixed' (widen_of_isNaN hfirst) rest)
  · intro hfirst range
    exact minAndMax_eq_some_iff_isFirst hfirst

/-- Both zeros, the positive one first, an infinity, and two values that are not numbers. -/
def signedZeros : List Binary64 := [zero false, invalid, zero true, infinity false, .nan false]

/-- Of two zeros the first is kept, and what is not a number matters in the first place only. -/
theorem minAndMax_signedZeros :
    minAndMax ([] : List Binary64) = none ∧ Spans id ([3, -1, 7] : List Int) (-1, 7) ∧
      (invalid.isNaN = true ∧ minAndMax (invalid :: signedZeros) = some (invalid, invalid)) ∧
      ((zero false).isNaN = false ∧ minAndMax signedZeros = some (zero false, infinity false) ∧
        IsFirst (· ≤ ·) signedZeros (zero false) ∧ IsFirst (· ≥ ·) signedZeros (infinity false)) := by
  obtain ⟨hnone, hspans, hnumbers⟩ := minAndMax_extremes
  have hrange : minAndMax signedZeros = some (zero false, infinity false) := by decide
  refine ⟨(hnone []).mpr rfl, (hspans _ _).mp (by decide), ⟨rfl, ?_⟩, rfl, hrange, ?_⟩
  · exact (hnumbers invalid signedZeros).1 rfl
  · exact ((hnumbers (zero false) _).2 rfl _).mp hrange

end ExperimentCharts
