import SvgPlot.Traversal

/-!
# Counting marks

How many marks of each shape a tree has, by a walk through it.
-/

namespace SvgPlot

/-- The shapes seen so far with their numbers, in increasing order of the shape names. -/
structure Tally where
  entries : List (Shape × Nat)
deriving Repr, DecidableEq

namespace Tally

def empty : Tally := ⟨[]⟩

def addTo (shape : Shape) : List (Shape × Nat) → List (Shape × Nat)
  | [] => [(shape, 1)]
  | (s, n) :: rest =>
    if shape = s then (s, n + 1) :: rest
    else if shape.name < s.name then (shape, 1) :: (s, n) :: rest
    else (s, n) :: addTo shape rest

/-- One more mark of a shape. -/
def add (t : Tally) (shape : Shape) : Tally := ⟨addTo shape t.entries⟩

/-- The number of marks of a shape. -/
def count (t : Tally) (shape : Shape) : Nat := (t.entries.find? fun entry => entry.1 == shape).elim 0 Prod.snd

def total (t : Tally) : Nat := t.entries.foldr (fun entry n => entry.2 + n) 0

/-- Counts every mark, or every mark but the root. -/
def counter (withRoot : Bool) : Visitor Tally where
  enter t mark depth := (.descend, if depth == 0 && !withRoot then t else t.add mark.shape)
  leave t _ _ := t

/-- The marks of a tree, the root among them. -/
def of (root : Mark) : Tally := (counter true).walk empty root

/-- The marks of a tree below the root. -/
def below (root : Mark) : Tally := (counter false).walk empty root

end Tally

end SvgPlot
