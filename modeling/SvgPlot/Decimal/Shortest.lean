import SvgPlot.Decimal.Binary
import SvgPlot.Decimal.Rounding

/-!
# Shortest decimals

The decimal with the fewest digits that reads back as a given double, and of those the nearest to it. The numbers that
read back as `m * 2 ^ q` form an interval around it; the search looks for a point of the decimal grid in that interval,
from the coarsest grid to finer ones. A grid that has a point in the interval has one next to the value itself, so two
candidates for each grid are enough, and seventeen digits always are.
-/

namespace SvgPlot.Decimal

/-- The decimal `digits * 10 ^ exponent`. -/
structure Scaled where
  digits : Nat
  exponent : Int
deriving Repr, DecidableEq

/-- The greatest `e` with `10 ^ e ≤ num / den`. -/
def magnitude (num den : Nat) : Int :=
  if den ≤ num then ((Nat.toDigits 10 (num / den)).length : Int) - 1
  else -((Nat.toDigits 10 ((den - 1) / num)).length : Int)

/-- A positive value `value / unit` with the ends of the interval of numbers that round to it, over the same unit. -/
structure Neighbourhood where
  value : Nat
  low : Nat
  high : Nat
  unit : Nat
  /-- whether the ends round to the value too -/
  closed : Bool
deriving Repr, DecidableEq

/-- In quarters of the last mantissa bit: half a bit on either side, but a quarter below a power of two, where doubles
lie twice as dense. -/
def Neighbourhood.of (mantissa : Nat) (exponent : Int) : Neighbourhood :=
  let (factor, divisor) := powerOfTwo (exponent - 2)
  let below := if mantissa == leadingBit && exponent != -1074 then 1 else 2
  { value := 4 * mantissa * factor
    low := (4 * mantissa - below) * factor
    high := (4 * mantissa + 2) * factor
    unit := divisor
    closed := mantissa % 2 == 0 }

/-- Whether `digits * 10 ^ exponent` rounds to the value. -/
def Neighbourhood.holds (v : Neighbourhood) (s : Scaled) : Bool :=
  let (factor, divisor) := powerOfTen s.exponent
  let point := s.digits * factor * v.unit
  if v.closed then v.low * divisor ≤ point && point ≤ v.high * divisor
  else v.low * divisor < point && point < v.high * divisor

/-- The point of the grid of multiples of `10 ^ exponent` nearest to the value among those next to it that round to
it. -/
def Neighbourhood.candidate? (tie : Tie) (v : Neighbourhood) (exponent : Int) : Option Scaled :=
  let (factor, divisor) := powerOfTen exponent
  let num := v.value * divisor
  let den := factor * v.unit
  let below : Scaled := ⟨num / den, exponent⟩
  let above : Scaled := ⟨num / den + 1, exponent⟩
  let near : Scaled := ⟨roundDiv tie num den, exponent⟩
  match v.holds below, v.holds above with
  | true, true => some near
  | true, false => some below
  | false, true => some above
  | false, false => none

/-- Trailing zeros of the digits moved into the exponent, `room` of them at most. -/
def Scaled.trimmed : (room : Nat) → Scaled → Scaled
  | 0, s => s
  | room + 1, s =>
    if s.digits % 10 == 0 && s.digits != 0 then Scaled.trimmed room ⟨s.digits / 10, s.exponent + 1⟩ else s

/-- The first grid that has a candidate, from one digit to seventeen. -/
def Neighbourhood.shortest (tie : Tie) (v : Neighbourhood) : Scaled :=
  let top := magnitude v.value v.unit
  let found := (List.range 17).findSome? fun (n : Nat) => v.candidate? tie (top - n)
  (found.getD ⟨v.value / v.unit, 0⟩).trimmed 18

/-- The shortest decimal for `mantissa * 2 ^ exponent`; zero is `0 * 10 ^ 0`. -/
def shortest (tie : Tie) (mantissa : Nat) (exponent : Int) : Scaled :=
  if mantissa == 0 then ⟨0, 0⟩ else (Neighbourhood.of mantissa exponent).shortest tie

end SvgPlot.Decimal
