import SvgPlot.Decimal.Numeral
import SvgPlot.Decimal.Shortest

/-!
# Ways to write a double

Two notations that need no exponent: the shortest digits in full length (`plain`), and a given number of places after
the point, rounded from the exact value (`fixed`).
-/

namespace SvgPlot.Decimal

def minusIf (negative : Bool) : Option Char := if negative then some '-' else none

/-- Digits with the last `places` of them after the point, and at least one before it. -/
def splitDigits (digits : Nat) (places : Nat) : List Char × List Char :=
  let ds := Nat.toDigits 10 digits
  let padded := List.replicate (places + 1 - ds.length) '0' ++ ds
  padded.splitAt (padded.length - places)

/-- The positional spelling of a decimal: no exponent, and no point in a whole number. -/
def Scaled.positional (negative : Bool) (s : Scaled) : Numeral :=
  if s.exponent < 0 then
    let (whole, fraction) := splitDigits s.digits s.exponent.natAbs
    ⟨minusIf negative, whole, some fraction, none⟩
  else
    ⟨minusIf negative, Nat.toDigits 10 s.digits ++ List.replicate s.exponent.toNat '0', none, none⟩

/-- The names of the values that no numeral stands for. -/
def nameOfInfinite (negative : Bool) : String := if negative then "-inf" else "inf"

/-- The shortest digits that read back, written out; an exact tie between two goes up. -/
def plain (x : Float) : String :=
  match Binary.ofFloat x with
  | .notANumber => "NaN"
  | .infinite negative => nameOfInfinite negative
  | .finite negative m q => String.ofList ((shortest .up m q).positional negative).text

/-- The exact value rounded to `places` digits after the point, a half going to the even neighbour. -/
def fixed (places : Nat) (x : Float) : String :=
  match Binary.ofFloat x with
  | .notANumber => "NaN"
  | .infinite negative => nameOfInfinite negative
  | .finite negative m q =>
    let (factor, divisor) := powerOfTwo q
    let (whole, fraction) := splitDigits (roundDiv .even (m * factor * Nat.pow 10 places) divisor) places
    String.ofList
      (⟨minusIf negative, whole, if places == 0 then none else some fraction, none⟩ : Numeral).text

end SvgPlot.Decimal
