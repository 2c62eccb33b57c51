import SvgPlot.Decimal.Notation
import SvgPlot.Text.Quoted
import SvgPlot.Traversal

/-!
# Listings

A tree of marks as text, one line for each mark: the shape, the numbers in brackets, and the data in quotes. The
indentation shows the nesting.
-/

namespace SvgPlot

/-- How a listing is laid out.

The two counts are any numbers here, while a machine has bounds for them: its formatter may take no more than
`2 ^ 16 - 1` digits after a point, and a line can have no more than `2 ^ 63 - 1` spaces before its text. Beyond these
bounds a machine has no listing to give. Within them it gives the one that is written here: lines are written from the
outside in, so the first one that is indented is refused before the product of level and indentation can leave a machine
word. -/
structure Layout where
  /-- digits after the point -/
  precision : Nat := 2
  /-- spaces for each level -/
  indent : Nat := 2
  showData : Bool := true
  skipRoot : Bool := false
deriving Repr, DecidableEq, Inhabited

namespace Layout

/-- The numbers of a mark, in brackets. -/
def numbers (layout : Layout) (xs : List Float) : String :=
  let list := ", ".intercalate (xs.map (Decimal.fixed layout.precision))
  s!"[{list}]"

/-- The data of a mark, if it is shown. -/
def data (layout : Layout) (data : Option String) : String :=
  match data with
  | some text => if layout.showData then s!" {String.ofList (Text.quoted text.toList)}" else ""
  | none => ""

/-- The line of a mark, without its end. -/
def line (layout : Layout) (level : Nat) (mark : Mark) : String :=
  let blank := String.ofList (List.replicate (level * layout.indent) ' ')
  s!"{blank}{mark.shape.name} {layout.numbers mark.numbers}{layout.data mark.data}"

/-- Writes a line for each mark; without the root, all others are one level higher. -/
def writer (layout : Layout) : Visitor String where
  enter text mark depth :=
    if layout.skipRoot && depth == 0 then (.descend, text)
    else
      let level := if layout.skipRoot then depth - 1 else depth
      (.descend, text ++ layout.line level mark ++ "\n")
  leave text _ _ := text

end Layout

/-- The listing of a tree. -/
def Mark.listing (layout : Layout) (root : Mark) : String := layout.writer.walk "" root

end SvgPlot
