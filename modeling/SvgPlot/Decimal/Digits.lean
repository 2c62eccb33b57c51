/-!
# Numbers spelled by digits

`digitsValue` is the number that decimal digits spell, highest digit first. Two more readings serve long texts:
`halvedValue` finds the same number from its halves (`halvedValue_eq`), and `digitsUpTo` stops at a bound, below which
it is the same number again (`digitsUpTo_eq`).
-/

namespace SvgPlot.Decimal

/-- What a decimal digit stands for. -/
def digitValue (c : Char) : Nat := c.toNat - '0'.toNat

/-- Reads digits after a number. -/
def appendDigits (number : Nat) (digits : List Char) : Nat := digits.foldl (fun n c => 10 * n + digitValue c) number

/-- The number that decimal digits spell. -/
def digitsValue (digits : List Char) : Nat := appendDigits 0 digits

theorem appendDigits_eq (number : Nat) (digits : List Char) :
    appendDigits number digits = number * Nat.pow 10 digits.length + digitsValue digits := by
  induction digits generalizing number with
  | nil => exact (Nat.mul_one number).symm
  | cons c rest ih =>
    have hcons (n : Nat) : appendDigits n (c :: rest) = appendDigits (10 * n + digitValue c) rest := rfl
    have hpow : Nat.pow 10 (rest.length + 1) = Nat.pow 10 rest.length * 10 := rfl
    rw [digitsValue, hcons, hcons, ih, ih (10 * 0 + digitValue c), List.length_cons, hpow, Nat.add_mul, Nat.add_mul,
      Nat.mul_zero, Nat.zero_mul, Nat.zero_add, Nat.mul_comm 10 number, Nat.mul_assoc,
      Nat.mul_comm 10 (Nat.pow 10 rest.length), Nat.add_assoc]

theorem digitsValue_append (first second : List Char) :
    digitsValue (first ++ second) = digitsValue first * Nat.pow 10 second.length + digitsValue second := by
  rw [← appendDigits_eq, digitsValue, digitsValue, appendDigits, List.foldl_append]
  rfl

/-- The number that decimal digits spell, from the numbers that halves of them spell, so that many digits take a few
large products. -/
def halvedValue : (halvings : Nat) → List Char → Nat
  | 0, digits => digitsValue digits
  | halvings + 1, digits =>
    let second := digits.drop (digits.length / 2)
    halvedValue halvings (digits.take (digits.length / 2)) * Nat.pow 10 second.length + halvedValue halvings second

theorem halvedValue_eq (halvings : Nat) (digits : List Char) : halvedValue halvings digits = digitsValue digits := by
  induction halvings generalizing digits with
  | zero => rfl
  | succ halvings ih =>
    rw [halvedValue, ih, ih, ← digitsValue_append, List.take_append_drop]

/-- The number that decimal digits spell, as far as it counts: once it reaches the bound, the digits left do not. -/
def digitsUpTo (bound : Nat) (digits : List Char) : Nat :=
  digits.foldl (fun n c => if n < bound then 10 * n + digitValue c else n) 0

theorem le_appendDigits (number : Nat) (digits : List Char) : number ≤ appendDigits number digits := by
  induction digits generalizing number with
  | nil => exact Nat.le_refl number
  | cons c rest ih =>
    have := ih (10 * number + digitValue c)
    rw [appendDigits, List.foldl_cons, ← appendDigits]
    omega

theorem digitsUpTo_eq {bound : Nat} {digits : List Char} (h : digitsValue digits < bound) :
    digitsUpTo bound digits = digitsValue digits := by
  suffices hfrom : ∀ number, appendDigits number digits < bound →
      digits.foldl (fun n c => if n < bound then 10 * n + digitValue c else n) number = appendDigits number digits from
    hfrom 0 h
  clear h
  induction digits with
  | nil => intro number _; rfl
  | cons c rest ih =>
    intro number h
    have hle := le_appendDigits number (c :: rest)
    rw [List.foldl_cons, if_pos (by omega)]
    exact ih (10 * number + digitValue c) h

end SvgPlot.Decimal
