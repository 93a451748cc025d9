namespace ExperimentCharts.Text

/-- White space: the characters that have the property in the Unicode standard. -/
def isBlank (c : Char) : Bool :=
  let code := c.toNat
  (9 ≤ code && code ≤ 13) || code == 0x20 || code == 0x85 || code == 0xA0 || code == 0x1680 ||
  (0x2000 ≤ code && code ≤ 0x200A) || code == 0x2028 || code == 0x2029 || code == 0x202F ||
  code == 0x205F || code == 0x3000

/-- A list without the members at both ends that satisfy `p`. -/
def strip {α : Type} (p : α → Bool) (items : List α) : List α :=
  ((items.dropWhile p).reverse.dropWhile p).reverse

/-- A text without the white space at both ends. -/
def trim (text : String) : String := String.ofList (strip isBlank text.toList)

end ExperimentCharts.Text
