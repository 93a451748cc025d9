import ExperimentCharts.Binary64.Root
import ExperimentCharts.Drawing.Shape

namespace ExperimentCharts

/-- A place between pixels. -/
structure Spot where
  x : Binary64
  y : Binary64

namespace Spot

def ofPoint (point : Point) : Spot := ⟨.ofInt point.x, .ofInt point.y⟩

/-- The pixel nearest to a place. -/
def toPoint (spot : Spot) : Point := ⟨spot.x.round .signed32, spot.y.round .signed32⟩

/-- The pixel of a place without its fractions. -/
def truncate (spot : Spot) : Point := ⟨spot.x.truncate .signed32, spot.y.truncate .signed32⟩

def same (a b : Spot) : Bool := a.x.equal b.x && a.y.equal b.y

end Spot

/-- The direction from one pixel to another one, as a place at a distance of one. -/
def direction (a b : Point) : Spot :=
  let dx := b.x - a.x
  let dy := b.y - a.y
  let distance := (Binary64.ofInt (dx * dx + dy * dy)).sqrt
  ⟨.ofInt dx / distance, .ofInt dy / distance⟩

/-- The place at a distance from a pixel, to the left of a direction as seen with y upwards. -/
def beside (distance : Binary64) (pixel : Point) (direction : Spot) : Spot :=
  ⟨.ofInt pixel.x + distance * -direction.y, .ofInt pixel.y + distance * direction.x⟩

/-- Turns below this count as none. -/
def leastTurn : Binary64 := 1 / 0x10000000000000

/-- How many times its distance from the line an edge can go on outside a turn. -/
def miterLimit : Binary64 := 4

/-- The left edge of a line where it turns: the meeting point of the edges of both legs, or else, where
    that is too far outside, the ends of both edges. -/
def turnAt (half : Binary64) (a b c : Point) : List Point :=
  let forth := direction a b
  let back := direction c b
  let p := beside half b forth
  let q := beside half b ⟨-back.x, -back.y⟩
  let turn := forth.x * back.y - forth.y * back.x
  if turn.abs ≤ leastTurn then [p.truncate]
  else
    let reach := ((q.x - p.x) * back.y - (q.y - p.y) * back.x) / turn
    let tip : Spot := ⟨p.x + reach * forth.x, p.y + reach * forth.y⟩
    let dx := tip.x - .ofInt b.x
    let dy := tip.y - .ofInt b.y
    if 0 < turn ∧ half * half * (miterLimit * miterLimit) < dx * dx + dy * dy then
      [p.toPoint, q.toPoint]
    else [tip.toPoint]

/-- The left edge of a line from the end of the leg between two points on. -/
def edgeAfter (half : Binary64) (a b : Point) : List Point → List Point
  | [] => [(beside half b (direction a b)).toPoint]
  | c :: rest => turnAt half a b c ++ edgeAfter half b c rest

/-- The left edge of a line through points that differ from their neighbours. -/
def edge (half : Binary64) : List Point → List Point
  | a :: b :: rest => (beside half a (direction a b)).toPoint :: edgeAfter half a b rest
  | _ => []

/-- The outline of a line of a width through some points. It runs along the left edge of the line to the
    end and along the other edge back. Where the line turns, the edges of its legs go on until they
    meet, unless that is far outside a sharp turn. -/
def outline (width : Nat) (points : List Point) : List Point :=
  let path := points.eraseReps
  let half : Binary64 := width / 2
  edge half path ++ edge half path.reverse

/-- A pattern of dashes along a line. -/
structure DashPattern where
  dash : Nat
  space : Nat

/-- A dashed line on its way: the place reached, how much of the current dash or space is behind it,
    the corners of the current dash in reverse, and the dashes before it in reverse. -/
structure DashState where
  place : Spot
  covered : Binary64
  solid : Bool
  corners : List Point
  dashes : List (List Point)

namespace DashState

/-- The state at the first point; a line starts with a dash. -/
def start (point : Point) : DashState := ⟨.ofPoint point, 0, true, [point], []⟩

/-- The state after going on straight, to the end of the dash or space or to the target, whichever comes
    first. -/
def step (pattern : DashPattern) (target : Spot) (state : DashState) : DashState :=
  let dx := target.x - state.place.x
  let dy := target.y - state.place.y
  let distance := (dx * dx + dy * dy).sqrt
  let length : Binary64 := if state.solid then pattern.dash else pattern.space
  let left := length - state.covered
  let (place, covered) : Spot × Binary64 :=
    if left < distance then
      (⟨state.place.x + dx * left / distance, state.place.y + dy * left / distance⟩,
        state.covered + left)
    else (target, state.covered + distance)
  let corners := if state.solid then place.toPoint :: state.corners else state.corners
  if length ≤ covered then
    if state.solid then ⟨place, 0, false, [], corners.reverse :: state.dashes⟩
    else ⟨place, 0, true, [place.toPoint], state.dashes⟩
  else { state with place, covered, corners }

/-- The state at the target, after at most the given number of steps. -/
def advance (pattern : DashPattern) (target : Spot) : (steps : Nat) → DashState → DashState
  | 0, state => { state with place := target }
  | steps + 1, state =>
    if state.place.same target then state
    else advance pattern target steps (state.step pattern target)

/-- The dashes up to here, of which the last may be cut short. -/
def finish (state : DashState) : List (List Point) :=
  (if 1 < state.corners.length then state.corners.reverse :: state.dashes else state.dashes).reverse

end DashState

/-- The dashes of a line through some points. A step covers a dash, a space or the rest of the way to
    a point, so there are fewer of them than pixels. -/
def dashes (pattern : DashPattern) : List Point → List (List Point)
  | [] => []
  | first :: rest =>
    let legs := (first :: rest).zip rest
    (legs.foldl (fun state leg =>
      let steps := 2 * ((leg.2.x - leg.1.x).natAbs + (leg.2.y - leg.1.y).natAbs) + 8
      state.advance pattern (.ofPoint leg.2) steps) (DashState.start first)).finish

/-- How a line is drawn. -/
structure LineLook where
  color : Color
  width : Nat
  pattern : Option DashPattern := none

/-- A line through some points. -/
def LineLook.paint (look : LineLook) (points : List Point) : List Painted :=
  let pieces := match look.pattern with
    | some pattern => dashes pattern points
    | none => [points]
  pieces.map fun piece => filled (outline look.width piece) look.color

end ExperimentCharts
