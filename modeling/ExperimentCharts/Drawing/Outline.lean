namespace ExperimentCharts

/-- A pixel. -/
structure Point where
  x : Int
  y : Int
deriving DecidableEq

/-- The point on the other side of the diagonal. -/
def Point.swap (point : Point) : Point := ⟨point.y, point.x⟩

/-- The pairs of neighbours in a list. -/
def neighbours {α : Type} (items : List α) : List (α × α) := items.zip items.tail

/-- A place on a line, as a fraction with a positive denominator. -/
structure Crossing where
  num : Int
  den : Int

namespace Crossing

def le (a b : Crossing) : Bool := decide (a.num * b.den ≤ b.num * a.den)

/-- The last pixel at or before the place. -/
def floor (crossing : Crossing) : Int := crossing.num.fdiv crossing.den

/-- The first pixel at or after the place. -/
def ceil (crossing : Crossing) : Int := -((-crossing.num).fdiv crossing.den)

end Crossing

namespace Outline

/-- The sides of an outline, of which the last one leads back to the first corner. -/
def sides (corners : List Point) : List (Point × Point) :=
  neighbours (corners ++ corners.take 1)

/-- The upper left and the lower right corner of the smallest box around an outline. -/
def box (corners : List Point) : Point × Point :=
  let xs := corners.map Point.x
  let ys := corners.map Point.y
  (⟨xs.min?.getD 0, ys.min?.getD 0⟩, ⟨xs.max?.getD 0, ys.max?.getD 0⟩)

/-- Whether there are corners and all of them lie in one column or row. -/
def isFlat (corners : List Point) : Bool :=
  let (least, greatest) := box corners
  !corners.isEmpty && (least.x == greatest.x || least.y == greatest.y)

/-- Whether an outline is swept by columns: if it is wider than high. Any other one is swept by rows. -/
def isWide (corners : List Point) : Bool :=
  let (least, greatest) := box corners
  decide (greatest.y - least.y < greatest.x - least.x)

/-- Whether a row passes through the box around an outline. -/
def hasRow (corners : List Point) (row : Int) : Bool :=
  let (least, greatest) := box corners
  least.y ≤ row && row ≤ greatest.y

/-- Where a side crosses a column. A side starts with the column of its left end and is over by that of
    its right end. -/
def crossing? (column : Int) (side : Point × Point) : Option Crossing :=
  let (first, last) := if side.1.x ≤ side.2.x then side else side.swap
  let length := last.x - first.x
  if first.x ≤ column ∧ column < last.x then
    some ⟨first.y * length + (last.y - first.y) * (column - first.x), length⟩
  else none

/-- Every second stretch between crossings, by its first and its last pixel. -/
def stretches : List Crossing → List (Int × Int)
  | a :: b :: rest => (a.ceil, b.floor) :: stretches rest
  | _ => []

/-- The rows inside an outline in a column. -/
def inColumn (corners : List Point) (column : Int) : List (Int × Int) :=
  stretches (((sides corners).filterMap (crossing? column)).mergeSort Crossing.le)

/-- The stretch with the given pixel of a line. -/
def stretchAt? (pixel : Int) (line : List (Int × Int)) : Option (Int × Int) :=
  line.find? fun stretch => stretch.1 ≤ pixel && pixel ≤ stretch.2

/-- The stretch of a sweep's line that holds a pixel inside an outline. The line is crossed by the sides
    that reach it and go on past it, and every second stretch between the crossings is inside. -/
def stretch? (corners : List Point) (pixel : Point) : Option (Int × Int) :=
  if isWide corners then stretchAt? pixel.y (inColumn corners pixel.x)
  else stretchAt? pixel.x (inColumn (corners.map Point.swap) pixel.y)

end Outline

end ExperimentCharts
