import SvgPlot.Shape

/-!
# Marks

A mark is one drawing instruction: a shape with its numbers in points, perhaps a text that goes with it, and the marks
inside it.
-/

namespace SvgPlot

structure Mark where
  shape : Shape
  numbers : List Float
  data : Option String
  children : List Mark
deriving Inhabited

namespace Mark

mutual

/-- The number of marks in the tree. -/
def size : Mark → Nat
  | ⟨_, _, _, children⟩ => 1 + sizes children

/-- The number of marks in a row of trees. -/
def sizes : List Mark → Nat
  | [] => 0
  | m :: rest => m.size + sizes rest

end

mutual

/-- Every mark before its children, with its depth below the first, put in front of a list. -/
def rowsOnto (depth : Nat) (tail : List (Nat × Mark)) : Mark → List (Nat × Mark)
  | ⟨shape, numbers, data, children⟩ =>
    (depth, ⟨shape, numbers, data, children⟩) :: rowsOfAllOnto (depth + 1) tail children

def rowsOfAllOnto (depth : Nat) (tail : List (Nat × Mark)) : List Mark → List (Nat × Mark)
  | [] => tail
  | m :: rest => m.rowsOnto depth (rowsOfAllOnto depth tail rest)

end

/-- The marks of the tree, each before its children, with their depths; the root is at depth 0. -/
def rows (m : Mark) : List (Nat × Mark) := m.rowsOnto 0 []

end Mark

end SvgPlot
