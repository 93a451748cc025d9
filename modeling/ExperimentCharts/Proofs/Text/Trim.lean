import ExperimentCharts.Text.Blank
import ExperimentCharts.Text.Utf8
import Mathlib.Data.List.DropRight

namespace ExperimentCharts.Text

/-- The bytes of a text are decoded to that text. -/
theorem decode_encode (text : String) : decode (encode text) = .ok text := by
  have hbytes : (encode text).toByteArray = text.toByteArray := String.utf8Encode_toList
  have hvalid : text.toByteArray.IsValidUTF8 := text.isValidUTF8
  rw [decode, hbytes, String.fromUTF8?, dif_pos hvalid]
  rfl

section Strip

variable {α β : Type}

theorem strip_eq_rdropWhile (p : α → Bool) (items : List α) :
    strip p items = (items.dropWhile p).rdropWhile p := rfl

/-- Dropping the blank items of an encoding from its start drops the blank characters. -/
theorem dropWhile_flatMap {p : α → Bool} {q : β → Bool} {encoding : α → List β}
    (hnonempty : ∀ item, encoding item ≠ []) (hblank : ∀ item, ∀ code ∈ encoding item, q code = p item)
    (items : List α) : (items.flatMap encoding).dropWhile q = (items.dropWhile p).flatMap encoding := by
  induction items with
  | nil => rfl
  | cons item items ih =>
    rw [List.flatMap_cons]
    cases hitem : p item with
    | true =>
      rw [List.dropWhile_append_of_pos fun code hcode => (hblank item code hcode).trans hitem,
        List.dropWhile_cons_of_pos hitem, ih]
    | false =>
      obtain ⟨code, codes, hcodes⟩ := List.exists_cons_of_ne_nil (hnonempty item)
      have hcode : q code = false := (hblank item code (by simp [hcodes])).trans hitem
      rw [hcodes, List.cons_append, List.dropWhile_cons_of_neg (by simp [hcode]),
        List.dropWhile_cons_of_neg (by simp [hitem]), List.flatMap_cons, hcodes, List.cons_append]

/-- Blank codes of blank items are stripped with the items: a blank byte of an encoded text is always a character of
    its own. -/
theorem strip_flatMap {p : α → Bool} {q : β → Bool} {encoding : α → List β}
    (hnonempty : ∀ item, encoding item ≠ []) (hblank : ∀ item, ∀ code ∈ encoding item, q code = p item)
    (items : List α) : strip q (items.flatMap encoding) = (strip p items).flatMap encoding := by
  rw [strip, dropWhile_flatMap hnonempty hblank, List.reverse_flatMap,
    dropWhile_flatMap (p := p) (by simpa using hnonempty) (by simpa using hblank), List.reverse_flatMap, strip]
  congr 1
  funext item
  simp

/-- Stripping less first makes no difference. -/
theorem strip_strip {p q : α → Bool} (himplies : ∀ item, p item = true → q item = true) (items : List α) :
    strip q (strip p items) = strip q items := by
  have hdrop (items : List α) : (items.dropWhile p).dropWhile q = items.dropWhile q := by
    conv_rhs => rw [← List.takeWhile_append_dropWhile (p := p) (l := items)]
    rw [List.dropWhile_append_of_pos fun item hitem => himplies item (List.mem_takeWhile_imp hitem)]
  rw [strip_eq_rdropWhile, strip_eq_rdropWhile, strip_eq_rdropWhile, ← hdrop items]
  generalize items.dropWhile p = rest
  -- What is cut off at the end is blank, so dropping blanks from the start stops before it or takes it all.
  conv_rhs => rw [← List.rdropWhile_append_rtakeWhile (p := p) (l := rest)]
  have htail : ∀ item ∈ rest.rtakeWhile p, q item = true :=
    fun item hitem => himplies item (List.mem_rtakeWhile_imp hitem)
  have hcut (kept : List α) : (kept ++ rest.rtakeWhile p).rdropWhile q = kept.rdropWhile q := by
    rw [List.rdropWhile, List.reverse_append,
      List.dropWhile_append_of_pos fun item hitem => htail item (List.mem_reverse.mp hitem), List.rdropWhile]
  rw [List.dropWhile_append]
  split
  · rename_i hall
    rw [List.isEmpty_iff.mp hall, List.dropWhile_eq_nil_iff.mpr htail]
  · rw [hcut]

/-- What was stripped does not start with a blank. -/
theorem head?_strip {p : α → Bool} {items : List α} {item : α} (hitem : (strip p items).head? = some item) :
    p item = false := by
  rw [strip_eq_rdropWhile] at hitem
  -- What is cut off at the end comes after the first item.
  obtain ⟨rest, hrest⟩ := List.rdropWhile_prefix p (items.dropWhile p)
  have hnot := List.head?_dropWhile_not p items
  rw [← hrest, List.head?_append, hitem] at hnot
  simpa using hnot

theorem getLast?_strip {p : α → Bool} {items : List α} {item : α} (hitem : (strip p items).getLast? = some item) :
    p item = false := by
  rw [strip, List.getLast?_reverse] at hitem
  have hnot := List.head?_dropWhile_not p (items.dropWhile p).reverse
  rw [hitem] at hnot
  simpa using hnot

end Strip

/-- A text neither starts nor ends with white space. -/
structure IsTrimmed (text : String) : Prop where
  start : ∀ c, text.toList.head? = some c → isBlank c = false
  finish : ∀ c, text.toList.getLast? = some c → isBlank c = false

instance (text : String) : Decidable (IsTrimmed text) :=
  decidable_of_iff (text.toList.head?.all (!isBlank ·) = true ∧ text.toList.getLast?.all (!isBlank ·) = true) (by
    simp only [Option.all_eq_true, Bool.not_eq_true']
    exact ⟨fun hends => ⟨hends.1, hends.2⟩, fun htrimmed => ⟨htrimmed.start, htrimmed.finish⟩⟩)

/-- Trimmed texts have no blanks at their ends. -/
theorem isTrimmed_trim (text : String) : IsTrimmed (trim text) := by
  rw [trim]
  constructor
  · intro c hc
    rw [String.toList_ofList] at hc
    exact head?_strip hc
  · intro c hc
    rw [String.toList_ofList] at hc
    exact getLast?_strip hc

/-- A text that is trimmed stays as it is. -/
theorem IsTrimmed.trim_eq {text : String} (htrimmed : IsTrimmed text) : trim text = text := by
  have hdrop : text.toList.dropWhile isBlank = text.toList := by
    rw [List.dropWhile_eq_self_iff]
    intro hpos
    simp [htrimmed.start _ (List.head?_eq_getElem?.trans (List.getElem?_eq_getElem hpos))]
  have hrdrop : text.toList.rdropWhile isBlank = text.toList := by
    rw [List.rdropWhile_eq_self_iff]
    intro hne
    simp [htrimmed.finish _ (List.getLast?_eq_some_getLast hne)]
  rw [trim, strip_eq_rdropWhile, hdrop, hrdrop, String.ofList_toList]

/-- The white space characters of one byte that are taken for blank before a text is decoded. -/
def isBlankAscii (c : Char) : Bool := c == ' ' || c == '\t' || c == '\n' || c == '\r' || c == '\x0c'

/-- These characters, by their codes. -/
theorem isBlankAscii_iff (c : Char) :
    isBlankAscii c = true ↔ c.toNat = 32 ∨ c.toNat = 9 ∨ c.toNat = 10 ∨ c.toNat = 13 ∨ c.toNat = 12 := by
  simp [isBlankAscii, or_assoc, ← Char.toNat_inj]

/-- They are white space of texts as well, so that trimming removes all that was stripped before. -/
theorem isBlank_of_isBlankAscii {c : Char} (hblank : isBlankAscii c = true) : isBlank c = true := by
  simp only [isBlankAscii, Bool.or_eq_true, beq_iff_eq] at hblank
  rcases hblank with (((rfl | rfl) | rfl) | rfl) | rfl <;> decide

end ExperimentCharts.Text
