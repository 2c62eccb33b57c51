import SvgPlot.Decimal.Digits

/-!
# Decimal numerals

A numeral as it is written: sign, digits before and after the point, power of ten. `Numeral.read?` takes the longest
numeral a text starts with, `Numeral.text` writes one, and `Numeral.toFloat` is the double nearest to its value.
-/

namespace SvgPlot.Decimal

/-- A written power of ten, such as `e-7`. -/
structure Exponent where
  mark : Char
  sign : Option Char
  digits : List Char
deriving Repr, DecidableEq

/-- A written number, such as `-12.50e+3`. A point that no digit follows is `fraction = some []`. -/
structure Numeral where
  sign : Option Char
  whole : List Char
  fraction : Option (List Char)
  exponent : Option Exponent
deriving Repr, DecidableEq

def Exponent.text (e : Exponent) : List Char := e.mark :: e.sign.toList ++ e.digits

/-- The point and the digits after it. -/
def fractionText : Option (List Char) → List Char
  | none => []
  | some digits => '.' :: digits

def exponentText : Option Exponent → List Char
  | none => []
  | some e => e.text

def Numeral.text (n : Numeral) : List Char :=
  n.sign.toList ++ n.whole ++ fractionText n.fraction ++ exponentText n.exponent

/-! ## Reading -/

/-- The sign that a text may start with. -/
def signOf : List Char → Option Char
  | '+' :: _ => some '+'
  | '-' :: _ => some '-'
  | _ => none

/-- The text after the sign it may start with. -/
def afterSign (cs : List Char) : List Char := cs.drop (signOf cs).toList.length

/-- The ASCII digits that a text starts with. -/
def digitsOf (cs : List Char) : List Char := cs.takeWhile Char.isDigit

def afterDigits (cs : List Char) : List Char := cs.dropWhile Char.isDigit

/-- An `e` or `E` counts as an exponent only with at least one digit after it and its sign. -/
def Exponent.read? : List Char → Option (Exponent × List Char)
  | [] => none
  | mark :: rest =>
    let digits := digitsOf (afterSign rest)
    if (mark == 'e' || mark == 'E') && !digits.isEmpty then
      some (⟨mark, signOf rest, digits⟩, afterDigits (afterSign rest))
    else none

/-- The digits after a point, if there is a point, and the text after them. -/
def readFraction : List Char → Option (List Char) × List Char
  | '.' :: rest => (some (digitsOf rest), afterDigits rest)
  | cs => (none, cs)

/-- The exponent that a text may start with, and the text after it. -/
def readExponent (cs : List Char) : Option Exponent × List Char :=
  match Exponent.read? cs with
  | some (exponent, rest) => (some exponent, rest)
  | none => (none, cs)

/-- The longest numeral at the start of a text, and the rest of the text. A numeral has at least one digit before its
exponent. -/
def Numeral.read? (cs : List Char) : Option (Numeral × List Char) :=
  let whole := digitsOf (afterSign cs)
  let fraction := readFraction (afterDigits (afterSign cs))
  if whole.isEmpty && (fraction.1.getD []).isEmpty then none
  else
    let exponent := readExponent fraction.2
    some (⟨signOf cs, whole, fraction.1, exponent.1⟩, exponent.2)

/-! ## Reading loses nothing -/

theorem signOf_append_afterSign (cs : List Char) : (signOf cs).toList ++ afterSign cs = cs := by
  unfold afterSign
  unfold signOf
  split <;> rfl

theorem digitsOf_append_afterDigits (cs : List Char) : digitsOf cs ++ afterDigits cs = cs :=
  List.takeWhile_append_dropWhile

theorem Exponent.text_append_of_read? {cs rest : List Char} {e : Exponent} (h : read? cs = some (e, rest)) :
    e.text ++ rest = cs := by
  cases cs with
  | nil => simp [read?] at h
  | cons mark tail =>
    simp only [read?] at h
    split at h
    · cases h
      simp only [text, List.cons_append, List.append_assoc, digitsOf_append_afterDigits, signOf_append_afterSign]
    · cases h

theorem fractionText_append_readFraction (cs : List Char) :
    fractionText (readFraction cs).1 ++ (readFraction cs).2 = cs := by
  unfold readFraction
  split
  · simp [fractionText, digitsOf_append_afterDigits]
  · rfl

theorem exponentText_append_readExponent (cs : List Char) :
    exponentText (readExponent cs).1 ++ (readExponent cs).2 = cs := by
  unfold readExponent
  split
  · rename_i h
    exact Exponent.text_append_of_read? h
  · rfl

theorem Numeral.text_append_of_read? {cs rest : List Char} {n : Numeral} (h : read? cs = some (n, rest)) :
    n.text ++ rest = cs := by
  simp only [read?] at h
  split at h
  · cases h
  · cases h
    have := exponentText_append_readExponent (readFraction (afterDigits (afterSign cs))).2
    simp only [text, List.append_assoc]
    rw [this, fractionText_append_readFraction, digitsOf_append_afterDigits, signOf_append_afterSign]

theorem Numeral.text_ne_nil_of_read? {cs rest : List Char} {n : Numeral} (h : read? cs = some (n, rest)) :
    n.text ≠ [] := by
  simp only [read?] at h
  split at h
  · cases h
  · rename_i hsome
    cases h
    intro hnil
    simp only [text, List.append_eq_nil_iff] at hnil
    obtain ⟨⟨⟨-, hwhole⟩, hfraction⟩, -⟩ := hnil
    apply hsome
    cases hread : (readFraction (afterDigits (afterSign cs))).1 with
    | none => simp [hwhole]
    | some digits => rw [hread] at hfraction; cases hfraction

/-! ## Value -/

/-- The power that an exponent stands for, where its digits count until they reach the bound. -/
def Exponent.value (bound : Nat) (e : Exponent) : Int :=
  if e.sign == some '-' then -(digitsUpTo bound e.digits : Int) else digitsUpTo bound e.digits

/-- All digits of the number, without its point. -/
def Numeral.digits (n : Numeral) : List Char := n.whole ++ n.fraction.getD []

/-- All digits read as one whole number. -/
def Numeral.significand (n : Numeral) : Nat := halvedValue (Nat.log2 (n.digits.length / 16)) n.digits

theorem Numeral.significand_eq (n : Numeral) : n.significand = digitsValue n.digits := halvedValue_eq _ _

/-- Where the digits of an exponent stop to count. -/
def exponentBound : Nat := 65536

/-- The power of ten that the significand is multiplied with. -/
def Numeral.scale (n : Numeral) : Int :=
  (n.exponent.elim 0 (Exponent.value exponentBound)) - ((n.fraction.getD []).length : Int)

def Numeral.isNegative (n : Numeral) : Bool := n.sign == some '-'

/-- The double nearest to `significand * 10 ^ scale`, a half going to the even neighbour. From `2 ^ 1024` on it is
infinite. -/
def nearest (significand : Nat) (scale : Int) : Float :=
  if Nat.pow 2 1024 * Nat.pow 10 (-scale).toNat ≤ significand then 1.0 / 0.0
  else Float.ofScientific significand (scale < 0) scale.natAbs

def Numeral.toFloat (n : Numeral) : Float :=
  let magnitude := nearest n.significand n.scale
  if n.isNegative then -magnitude else magnitude

/-- A whole number without a sign. -/
def Numeral.ofNat (n : Nat) : Numeral := ⟨none, Nat.toDigits 10 n, none, none⟩

end SvgPlot.Decimal
