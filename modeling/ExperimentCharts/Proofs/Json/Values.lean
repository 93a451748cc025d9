import ExperimentCharts.Json.Value
import ExperimentCharts.Proofs.Binary64.Arithmetic

namespace ExperimentCharts.Json

/-- The digits that fit are gathered up to the limit. -/
theorem gather_le {significand : Nat} (hle : significand ≤ significandLimit) (digits : List UInt8) :
    (gather significand digits).1 ≤ significandLimit := by
  induction digits generalizing significand with
  | nil => exact hle
  | cons digit digits ih =>
    simp only [gather]
    split
    · exact ih ‹_›
    · exact hle

theorem digitValue_le {byte : UInt8} (hdigit : isDigit byte = true) : digitValue byte ≤ 9 := by
  simp only [isDigit, Bool.and_eq_true, decide_eq_true_eq, UInt8.le_iff_toNat_le] at hdigit
  have hhigh : byte.toNat ≤ 57 := hdigit.2
  simp only [digitValue]
  omega

/-- What is gathered is far from overflowing. -/
theorem isFinite_ofNat {significand : Nat} (hle : significand ≤ significandLimit) :
    (Binary64.ofNat significand).isFinite = true :=
  Binary64.isFinite_nearest_whole false (hle.trans (by decide))

/-- Scaling refuses what is too large, so that the result is finite. -/
theorem isFinite_of_scale {steps : Nat} {magnitude result : Binary64} {exponent : Int}
    (hmagnitude : magnitude.isFinite = true) (hscale : scale steps magnitude exponent = some result) :
    result.isFinite = true := by
  fun_induction scale steps magnitude exponent with
  | case1 | case5 => cases hscale
  | case2 steps magnitude exponent hexponent power _ product hproduct =>
    rw [← Option.some.inj hscale]
    exact Binary64.isFinite_mul hmagnitude (Binary64.isFinite_ten_pow hexponent) hproduct
  | case3 steps magnitude exponent hexponent power =>
    rw [← Option.some.inj hscale]
    exact Binary64.isFinite_div_ten_pow hmagnitude hexponent
  | case4 | case6 =>
    cases hscale
    exact hmagnitude
  | case7 magnitude exponent _ _ _ steps ih =>
    exact ih (Binary64.isFinite_div_ten_pow hmagnitude le_rfl) hscale

namespace Reader

/-- Every value that the reader gives has the property. -/
def Gives {α : Type} (reader : Reader α) (P : α → Prop) : Prop :=
  ∀ cursor value rest, reader cursor = .ok value rest → P value

variable {α β : Type} {P : α → Prop}

theorem gives_pure {value : α} (hvalue : P value) : Gives (pure value) P := by
  intro cursor found rest hfound
  cases hfound
  exact hvalue

theorem gives_throw (failure : Failure) : Gives (throw failure) P := by
  intro cursor found rest hfound
  cases hfound

theorem gives_fail (fault : Fault) : Gives (fail fault) P := by
  intro cursor found rest hfound
  cases hfound

/-- What a first reader gives is what the next one may rely on. -/
theorem gives_bind {reader : Reader α} {next : α → Reader β} {Q : β → Prop} (hreader : Gives reader P)
    (hnext : ∀ value, P value → Gives (next value) Q) : Gives (reader >>= next) Q := by
  intro cursor found rest hfound
  cases hvalue : reader cursor with
  | ok value after =>
    have hrun : (reader >>= next) cursor = next value after := by
      change EStateM.bind reader next cursor = _
      simp only [EStateM.bind, hvalue]
    rw [hrun] at hfound
    exact hnext value (hreader cursor value after hvalue) after found rest hfound
  | error failure after =>
    have hrun : (reader >>= next) cursor = .error failure after := by
      change EStateM.bind reader next cursor = _
      simp only [EStateM.bind, hvalue]
    rw [hrun] at hfound
    cases hfound

/-- What comes after a step that may give anything. -/
theorem gives_after {reader : Reader α} {next : α → Reader β} {Q : β → Prop}
    (hnext : ∀ value, Gives (next value) Q) : Gives (reader >>= next) Q :=
  gives_bind (P := fun _ => True) (fun _ _ _ _ => trivial) fun value _ => hnext value

/-- A number that was scaled is finite, or it was refused for being out of range. -/
theorem scaled_gives (negative : Bool) {significand : Nat} (hle : significand ≤ significandLimit) (exponent : Int) :
    Gives (scaled negative significand exponent) fun number => number.toBinary64.isFinite = true := by
  unfold scaled
  cases hscale : scale 4 (Binary64.ofNat significand) exponent with
  | none => exact gives_fail _
  | some magnitude =>
    have hfinite := isFinite_of_scale (isFinite_ofNat hle) hscale
    apply gives_pure
    cases negative with
    | false => exact hfinite
    | true => exact (Binary64.isFinite_neg magnitude).trans hfinite

theorem exponent_gives (negative : Bool) {significand : Nat} (hle : significand ≤ significandLimit) (shift : Int) :
    Gives (exponent negative significand shift) fun number => number.toBinary64.isFinite = true := by
  unfold exponent
  refine gives_after fun _ => gives_after fun negativeExponent => gives_after fun byte => ?_
  split
  · exact gives_fail _
  split
  · exact gives_fail _
  refine gives_after fun cursor => gives_after fun digits => ?_
  split
  · split
    · exact gives_throw _
    · exact gives_pure (Binary64.isFinite_zero negative)
  · exact scaled_gives negative hle _

theorem fraction_gives (negative : Bool) {significand : Nat} (hle : significand ≤ significandLimit) (shift : Nat) :
    Gives (fraction negative significand shift) fun number => number.toBinary64.isFinite = true := by
  unfold fraction
  refine gives_after fun _ => gives_after fun digits => ?_
  split
  · refine gives_after fun byte => ?_
    split <;> exact gives_fail _
  · have hgather := gather_le hle digits
    refine gives_after fun byte => ?_
    split
    · exact exponent_gives negative hgather _
    · exact exponent_gives negative hgather _
    · exact scaled_gives negative hgather _

theorem afterInteger_gives (negative : Bool) {significand : Nat} (hle : significand ≤ significandLimit)
    (dropped : Nat) :
    Gives (afterInteger negative significand dropped) fun number => number.toBinary64.isFinite = true := by
  unfold afterInteger
  refine gives_after fun byte => ?_
  have hwhole : significand ≤ 2 ^ 64 := hle.trans (by decide)
  split
  · exact fraction_gives negative hle _
  · exact exponent_gives negative hle _
  · exact exponent_gives negative hle _
  split
  · exact scaled_gives negative hle _
  split
  · exact gives_pure (Binary64.isFinite_nearest_whole _ (by simpa using hwhole))
  split
  · exact gives_pure ((Binary64.isFinite_neg _).trans (isFinite_ofNat hle))
  · exact gives_pure (Binary64.isFinite_nearest_whole _ (by simpa using hwhole))

/-- All numbers are finite. -/
theorem number_gives (negative : Bool) :
    Gives (number negative) fun number => number.toBinary64.isFinite = true := by
  unfold number
  refine gives_after fun byte => ?_
  split
  · exact gives_fail _
  split
  · refine gives_after fun byte => ?_
    split
    · split
      · exact gives_fail _
      · exact afterInteger_gives negative (by decide) 0
    · exact afterInteger_gives negative (by decide) 0
  split
  · have hfirst := digitValue_le ‹_›
    refine gives_after fun digits => ?_
    exact afterInteger_gives negative (gather_le (hfirst.trans (by decide)) digits) _
  · exact gives_fail _

theorem wrongKind_gives (expected : String) : Gives (wrongKind expected) P := by
  unfold wrongKind
  exact gives_after fun found => gives_fail _

/-- All numbers that are asked for are finite, the integers too. -/
theorem float_gives : Gives float fun value => value.isFinite = true := by
  unfold float
  refine gives_after fun byte => ?_
  split
  · exact gives_after fun _ => gives_bind (number_gives true) fun _ hfinite => gives_pure hfinite
  split
  · exact gives_bind (number_gives false) fun _ hfinite => gives_pure hfinite
  · exact wrongKind_gives _

theorem enclosed_gives {content : Reader α} (hcontent : Gives content P) (closing : Reader Unit) :
    Gives (enclosed content closing) P := by
  intro cursor value rest hvalue
  unfold enclosed at hvalue
  split at hvalue
  · rename_i found after hfound
    split at hvalue
    · cases hvalue
      exact hcontent cursor.step value after hfound
    · cases hvalue
  · split at hvalue <;> cases hvalue

theorem elements_gives {item : Reader α} (hitem : Gives item P) (rounds : Nat) (first : Bool) :
    Gives (elements item rounds first) fun values => ∀ value ∈ values, P value := by
  induction rounds generalizing first with
  | zero => exact gives_fail _
  | succ rounds ih =>
    unfold elements
    refine gives_after fun more => ?_
    split
    · refine gives_bind hitem fun value hvalue => gives_bind (ih false) fun values hvalues => gives_pure ?_
      exact List.forall_mem_cons.mpr ⟨hvalue, hvalues⟩
    · exact gives_pure (by simp)

theorem list_gives {item : Reader α} (hitem : Gives item P) :
    Gives (list item) fun values => ∀ value ∈ values, P value := by
  unfold list
  refine gives_after fun byte => ?_
  split
  · exact enclosed_gives (gives_after fun rounds => elements_gives hitem rounds true) endList
  · exact wrongKind_gives _

/-- A property that the blank form has and that the reading of each field keeps. -/
structure Form.Keeps (form : Form α) (P : α → Prop) : Prop where
  blank : P form.blank
  read : ∀ field ∈ form.fields, ∀ value, P value → Gives (field.read value) P

/-- Fields that are read one after the other keep what each of them keeps. -/
theorem fieldsInOrder_gives {form : Form α} (index : Nat) {fields : List (Field α)}
    (hfields : ∀ field ∈ fields, ∀ value, P value → Gives (field.read value) P) {value : α}
    (hvalue : P value) : Gives (fieldsInOrder form index value fields) P := by
  induction fields generalizing index value with
  | nil => exact gives_pure hvalue
  | cons field fields ih =>
    obtain ⟨hfield, hrest⟩ := List.forall_mem_cons.mp hfields
    unfold fieldsInOrder
    refine gives_after fun more => ?_
    split
    · exact gives_bind (hfield value hvalue) fun next hnext => ih (index + 1) hrest hnext
    split
    · exact ih (index + 1) hrest hvalue
    · exact gives_throw _

/-- Fields that are read by their keys do, in any order. -/
theorem fieldsByKey_gives {form : Form α} (hform : form.Keeps P) (rounds : Nat) (keys : List String) (first : Bool)
    {value : α} (hvalue : P value) : Gives (fieldsByKey form rounds keys first value) P := by
  induction rounds generalizing keys first value with
  | zero => exact gives_fail _
  | succ rounds ih =>
    unfold fieldsByKey
    refine gives_after fun key => ?_
    split
    · split
      · exact gives_throw _
      · exact gives_pure hvalue
    split
    · rename_i field hfield
      split
      · exact gives_throw _
      · refine gives_after fun _ => gives_bind ?_ fun next hnext => ih _ false hnext
        exact hform.read field (List.mem_of_find?_eq_some hfield) value hvalue
    · exact gives_after fun _ => gives_after fun _ => ih keys false hvalue

/-- Every record that is read has the properties that its form keeps. -/
theorem record_gives {form : Form α} (hform : form.Keeps P) : Gives (record form) P := by
  unfold record
  refine gives_after fun byte => ?_
  split
  · exact enclosed_gives (fieldsInOrder_gives 0 hform.read hform.blank) endList
  split
  · exact enclosed_gives (gives_after fun rounds => fieldsByKey_gives hform rounds [] true hform.blank) endObject
  · exact wrongKind_gives _

theorem file_gives {value : Reader α} (hvalue : Gives value P) : Gives (file value) P := by
  unfold file
  refine gives_bind hvalue fun result hresult => gives_after fun byte => ?_
  split
  · exact gives_pure hresult
  · exact gives_fail _

end Reader

end ExperimentCharts.Json
