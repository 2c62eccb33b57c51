import SvgPlot.Decimal.Notation
import SvgPlot.Json.Value

/-!
# JSON numbers and doubles

A double is written with its shortest digits, and always with a point or an exponent. A number is read by taking as many
digits as fit in 64 bits and scaling them once, which for long numbers is not always the nearest double.
-/

namespace SvgPlot.Json

open Decimal (Numeral Scaled)

/-! ## Writing -/

/-- The power of ten of the first digit. -/
def topExponent (s : Scaled) : Int := s.exponent + (Nat.toDigits 10 s.digits).length - 1

/-- Values from `1e-5` up to but not including `1e16` are written without an exponent. -/
def isPositional (s : Scaled) : Bool := s.digits == 0 || (-5 ≤ topExponent s && topExponent s < 16)

/-- One digit before the point, and an exponent with a sign. -/
def scientific (negative : Bool) (s : Scaled) : Numeral :=
  let digits := Nat.toDigits 10 s.digits
  let rest := digits.drop 1
  let top := topExponent s
  { sign := Decimal.minusIf negative
    whole := digits.take 1
    fraction := if rest.isEmpty then none else some rest
    exponent := some ⟨'e', some (if top < 0 then '-' else '+'), Nat.toDigits 10 top.natAbs⟩ }

/-- A decimal in JSON; a whole number gets a zero after the point. -/
def numeralOfScaled (negative : Bool) (s : Scaled) : Numeral :=
  if isPositional s then
    let n := s.positional negative
    if n.fraction.isNone then { n with fraction := some ['0'] } else n
  else scientific negative s

/-- The numeral of a double, if it is finite. Of two shortest decimals that are equally near the even one is taken. -/
def numeral? (x : Float) : Option Numeral :=
  match Decimal.Binary.ofFloat x with
  | .finite negative m q => some (numeralOfScaled negative (Decimal.shortest .even m q))
  | _ => none

/-- Values that are not finite have no numeral and are written as null. -/
def Value.ofFloat (x : Float) : Value := (numeral? x).elim .null .number

/-! ## Reading -/

/-- Whether a numeral has the form of a JSON number. -/
def isNumber (n : Numeral) : Bool :=
  n.sign != some '+' && !n.whole.isEmpty && (n.whole.length == 1 || n.whole.head? != some '0') &&
    n.fraction != some []

/-- The digits after a number, as long as it fits in 64 bits, taken into it; with the count of those that were. -/
def gather : (number count : Nat) → List Char → Nat × Nat
  | number, count, [] => (number, count)
  | number, count, c :: rest =>
    let next := number * 10 + Decimal.digitValue c
    if 0xffffffffffffffff < next then (number, count) else gather next (count + 1) rest

/-- The double nearest to `10 ^ n`. -/
def tenTo (n : Nat) : Float := Decimal.nearest 1 n

/-- `x * 10 ^ exponent` in steps of at most 308 places; too large a result is a fault. -/
def scaleTo (x : Float) (exponent : Int) : Option Float :=
  if x == 0.0 then some x
  else if 308 < exponent then none
  else if 0 ≤ exponent then
    let result := x * tenTo exponent.natAbs
    if result.isInf then none else some result
  else if exponent < -308 then scaleTo (x / tenTo 308) (exponent + 308)
  else some (x / tenTo exponent.natAbs)
termination_by exponent.natAbs

/-- Where the digits of an exponent stop to count; it is more than any number of digits makes up for. -/
def exponentBound : Nat := 0x80000000

/-- The magnitude of a number. -/
def magnitude (n : Numeral) : Option Float :=
  let (significand, taken) := gather 0 0 n.whole
  let dropped := n.whole.length - taken
  let (significand, added) := gather significand 0 (n.fraction.getD [])
  let exponent : Int := dropped - added + n.exponent.elim 0 (Decimal.Exponent.value exponentBound)
  scaleTo (Decimal.nearest significand 0) exponent

/-- The double that a number is read as. -/
def toFloat? (n : Numeral) : Option Float :=
  (magnitude n).map fun x => if n.isNegative then -x else x

end SvgPlot.Json
