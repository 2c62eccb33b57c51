/-!
# Rounding a quotient

One division that rounds to the nearest whole number, with the treatment of an exact half as a parameter. The result is
never more than half a unit away (`roundDiv_le`, `le_roundDiv`).
-/

namespace SvgPlot.Decimal

/-- Where an exact half goes. -/
inductive Tie where
  /-- to the even neighbour -/
  | even
  /-- to the greater neighbour -/
  | up
deriving Repr, DecidableEq

/-- Whether the greater neighbour of a half above `floor` is chosen. -/
def Tie.takesUpper : Tie → Nat → Bool
  | .even, floor => floor % 2 == 1
  | .up, _ => true

/-- The whole number nearest to `num / den`. -/
def roundDiv (tie : Tie) (num den : Nat) : Nat :=
  let floor := num / den
  let twice := 2 * (num % den)
  if twice < den then floor
  else if den < twice then floor + 1
  else if tie.takesUpper floor then floor + 1
  else floor

theorem roundDiv_le (tie : Tie) (num den : Nat) (h : 0 < den) :
    2 * (roundDiv tie num den * den) ≤ 2 * num + den := by
  have hdiv := Nat.div_add_mod num den
  have hmod := Nat.mod_lt num h
  have hcomm : den * (num / den) = num / den * den := Nat.mul_comm ..
  unfold roundDiv
  simp only
  split
  · omega
  · have hsucc : (num / den + 1) * den = num / den * den + den := Nat.succ_mul ..
    split
    · omega
    · split <;> omega

theorem le_roundDiv (tie : Tie) (num den : Nat) (h : 0 < den) :
    2 * num ≤ 2 * (roundDiv tie num den * den) + den := by
  have hdiv := Nat.div_add_mod num den
  have hmod := Nat.mod_lt num h
  have hcomm : den * (num / den) = num / den * den := Nat.mul_comm ..
  unfold roundDiv
  simp only
  have hsucc : (num / den + 1) * den = num / den * den + den := Nat.succ_mul ..
  split
  · omega
  · split
    · omega
    · split <;> omega

end SvgPlot.Decimal
