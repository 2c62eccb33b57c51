/-!
# Pages

The page that a plot is made for, in points. Any two numbers can be put down as a page; one that is asked for by its
sides is checked first.
-/

namespace SvgPlot

structure Page where
  width : Float
  height : Float
deriving DecidableEq

namespace Page

/-- Whether a number can be a side. -/
def IsSide (x : Float) : Prop := x.isFinite = true ∧ 0.0 < x

instance (x : Float) : Decidable (IsSide x) := inferInstanceAs (Decidable (_ ∧ _))

/-- The page passes the check of its sides. -/
def IsAdmitted (page : Page) : Prop := IsSide page.width ∧ IsSide page.height

instance (page : Page) : Decidable page.IsAdmitted := inferInstanceAs (Decidable (_ ∧ _))

/-- The page with these sides, if it is admitted. -/
def of? (width height : Float) : Option Page :=
  let page : Page := ⟨width, height⟩
  if page.IsAdmitted then some page else none

theorem of?_eq_some_iff {width height : Float} {page : Page} :
    of? width height = some page ↔ page = ⟨width, height⟩ ∧ page.IsAdmitted := by
  simp only [of?]
  split
  · rename_i h
    constructor
    · rintro ⟨⟩
      exact ⟨rfl, h⟩
    · rintro ⟨rfl, -⟩
      rfl
  · rename_i h
    constructor
    · rintro ⟨⟩
    · rintro ⟨rfl, hadmitted⟩
      exact absurd hadmitted h

def letter : Page := ⟨612.0, 792.0⟩

def a4 : Page := ⟨595.28, 841.89⟩

theorem isAdmitted_letter : letter.IsAdmitted := by decide

theorem isAdmitted_a4 : a4.IsAdmitted := by decide

instance : Inhabited Page := ⟨letter⟩

end Page

end SvgPlot
