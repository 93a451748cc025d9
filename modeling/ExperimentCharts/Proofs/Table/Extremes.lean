import ExperimentCharts.Table
import Mathlib.Order.Lattice

namespace ExperimentCharts

variable {α κ : Type} [LT α] [DecidableLT α] [LinearOrder κ] {key : α → κ} {values rest : List α}
  {range : α × α} {value : α}

theorem minAndMax_eq_none_iff : minAndMax values = none ↔ values = [] := by
  cases values <;> simp [minAndMax]

theorem exists_minAndMax (hnonempty : values ≠ []) : ∃ range, minAndMax values = some range :=
  Option.ne_none_iff_exists'.mp (minAndMax_eq_none_iff.not.mpr hnonempty)

/-- The least and the greatest of some values, which compare as keys of theirs do. -/
structure Spans (key : α → κ) (values : List α) (range : α × α) : Prop where
  lower_mem : range.1 ∈ values
  upper_mem : range.2 ∈ values
  lower_le : ∀ value ∈ values, key range.1 ≤ key value
  le_upper : ∀ value ∈ values, key value ≤ key range.2

/-- One more value keeps the range right. -/
theorem Spans.widen (hspans : Spans key values range) (hlower : value < range.1 ↔ key value < key range.1)
    (hupper : range.2 < value ↔ key range.2 < key value) :
    Spans key (values ++ [value]) (widen range value) := by
  obtain ⟨hlower_mem, hupper_mem, hlower_le, hle_upper⟩ := hspans
  constructor <;> simp only [ExperimentCharts.widen, List.forall_mem_append, List.forall_mem_singleton]
  · split <;> simp [hlower_mem]
  · split <;> simp [hupper_mem]
  · split
    · rename_i hless
      have hless := hlower.mp hless
      exact ⟨fun other hother => hless.le.trans (hlower_le other hother), le_rfl⟩
    · rename_i hnot
      exact ⟨hlower_le, not_lt.mp (hnot ∘ hlower.mpr)⟩
  · split
    · rename_i hless
      have hless := hupper.mp hless
      exact ⟨fun other hother => (hle_upper other hother).trans hless.le, le_rfl⟩
    · rename_i hnot
      exact ⟨hle_upper, not_lt.mp (hnot ∘ hupper.mpr)⟩

theorem Spans.foldl_widen (hspans : Spans key values range)
    (hlt : ∀ x ∈ values ++ rest, ∀ y ∈ values ++ rest, (x < y ↔ key x < key y)) :
    Spans key (values ++ rest) (rest.foldl ExperimentCharts.widen range) := by
  induction rest generalizing values range with
  | nil => rwa [List.append_nil]
  | cons value rest ih =>
    have hvalue : value ∈ values ++ value :: rest := by simp
    have hwidened := hspans.widen (hlt value hvalue _ (List.mem_append_left _ hspans.lower_mem))
      (hlt _ (List.mem_append_left _ hspans.upper_mem) value hvalue)
    rw [List.append_cons] at hlt ⊢
    exact ih hwidened hlt

/-- What is found has all values between its ends. -/
theorem spans_of_minAndMax (hrange : minAndMax values = some range)
    (hlt : ∀ x ∈ values, ∀ y ∈ values, (x < y ↔ key x < key y)) : Spans key values range := by
  cases values with
  | nil => cases hrange
  | cons first rest =>
    have hfirst : Spans key [first] (first, first) := by constructor <;> simp
    obtain rfl := Option.some.inj hrange
    exact hfirst.foldl_widen hlt

end ExperimentCharts
