/-!
# Text sizes

Positions in a text are counted in bytes of its UTF-8 form.
-/

namespace SvgPlot.Text

/-- The number of bytes of the UTF-8 form. -/
def byteLength (cs : List Char) : Nat := cs.foldr (fun c n => c.utf8Size + n) 0

@[simp] theorem byteLength_nil : byteLength [] = 0 := rfl

@[simp] theorem byteLength_cons (c : Char) (cs : List Char) :
    byteLength (c :: cs) = c.utf8Size + byteLength cs := rfl

@[simp] theorem byteLength_append (as bs : List Char) :
    byteLength (as ++ bs) = byteLength as + byteLength bs := by
  induction as with
  | nil => simp
  | cons c as ih => simp only [List.cons_append, byteLength_cons, ih, Nat.add_assoc]

/-- The position in `whole` at which its last part `rest` begins. -/
def positionOf (whole rest : List Char) : Nat := byteLength whole - byteLength rest

/-- The position of the end of the first part. -/
theorem positionOf_append (before rest : List Char) : positionOf (before ++ rest) rest = byteLength before := by
  simp [positionOf]

end SvgPlot.Text
