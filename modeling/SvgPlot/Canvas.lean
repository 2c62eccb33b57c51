import SvgPlot.Length

/-!
# The canvas

The area that a plot is drawn on, in points. Its origin is the lower left corner, while markup counts from the upper
left one, so vertical positions are turned around.
-/

namespace SvgPlot

structure Canvas where
  width : Float
  height : Float
deriving DecidableEq

/-- What a numeric attribute stands for, which decides how it turns into numbers on the canvas. -/
inductive Quantity where
  | x
  | y
  | width
  | height
  /-- a length that belongs to neither axis, such as a radius -/
  | length
  /-- a list of positions -/
  | points
deriving Repr, DecidableEq

namespace Canvas

/-- A position from the left edge. -/
def across (canvas : Canvas) (length : Length) : Float := length.toPoints canvas.width

/-- The size of a vertical extent. -/
def along (canvas : Canvas) (length : Length) : Float := length.toPoints canvas.height

/-- A position below the upper edge, as a height above the lower one. -/
def above (canvas : Canvas) (length : Length) : Float := canvas.height - canvas.along length

/-- The positions of a coordinate list, one after the other. -/
def positions (canvas : Canvas) (pairs : List (Length × Length)) : List Float :=
  pairs.flatMap fun (x, y) => [canvas.across x, canvas.above y]

/-- The numbers that an attribute value gives on the canvas. -/
def measure (canvas : Canvas) (quantity : Quantity) (raw : String) : Except LengthError (List Float) :=
  match quantity with
  | .x | .width | .length => (Length.read raw).map fun length => [canvas.across length]
  | .y => (Length.read raw).map fun length => [canvas.above length]
  | .height => (Length.read raw).map fun length => [canvas.along length]
  | .points => (Length.readPairs raw).map canvas.positions

end Canvas

end SvgPlot
