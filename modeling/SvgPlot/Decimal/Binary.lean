/-!
# The value of a double

A double taken apart: not a number, infinite, or a sign with a whole mantissa and a power of two.
-/

namespace SvgPlot.Decimal

/-- What a double stands for. `finite negative m q` is `± m * 2 ^ q`; the sign of zero is kept. -/
inductive Binary where
  | notANumber
  | infinite (negative : Bool)
  | finite (negative : Bool) (mantissa : Nat) (exponent : Int)
deriving Repr, DecidableEq

/-- The highest bit of a mantissa, which is not stored. -/
def leadingBit : Nat := 0x10000000000000

/-- Bit 63 is the sign, the next eleven are the biased exponent, the other 52 the mantissa. An exponent field of zero
marks the numbers without the leading mantissa bit. -/
def Binary.ofFloat (x : Float) : Binary :=
  let bits := x.toBits.toNat
  let negative := bits / 0x8000000000000000 == 1
  let field : Nat := bits / leadingBit % 0x800
  let fraction := bits % leadingBit
  if field == 2047 then
    if fraction == 0 then .infinite negative else .notANumber
  else if field == 0 then .finite negative fraction (-1074)
  else .finite negative (fraction + leadingBit) ((field : Int) - 1075)

/-- The factors `a`, `b` with `2 ^ q = a / b`, one of them being 1. -/
def powerOfTwo (q : Int) : Nat × Nat := (Nat.pow 2 q.toNat, Nat.pow 2 (-q).toNat)

/-- The factors `a`, `b` with `10 ^ k = a / b`, one of them being 1. -/
def powerOfTen (k : Int) : Nat × Nat := (Nat.pow 10 k.toNat, Nat.pow 10 (-k).toNat)

end SvgPlot.Decimal
