import SvgPlot.Json.Token

/-!
# Written numerals

A numeral that is written is read back, and a JSON numeral is what every finite double is written as.

* `Numeral.IsWritten` says that the parts of a numeral are digits and signs where these belong, with a digit before the
  point; `Numeral.IsWellFormed` also allows all digits after it. Such a numeral is read back in front of every text that
  it does not go on in (`Numeral.read?_text_append`).
* `isWrittenNumber_of_numeral?` says that a finite double is written as a JSON number. Only a zero in front of other
  digits could prevent that, and the decimal of a double is zero only for zero itself (`digits_shortest`).
-/

namespace SvgPlot

namespace Decimal

/-! ## Reading back -/

def AreDigits (cs : List Char) : Prop := ∀ c ∈ cs, c.isDigit = true

/-- A numeral does not go on in the text that follows it. -/
def EndsNumeral (rest : List Char) : Prop :=
  ∀ c ∈ rest.head?, c.isDigit = false ∧ c ≠ '.' ∧ c ≠ 'e' ∧ c ≠ 'E'

/-- A sign, or none. -/
def IsSign (sign : Option Char) : Prop := sign = none ∨ sign = some '+' ∨ sign = some '-'

structure Exponent.IsWritten (e : Exponent) : Prop where
  mark : e.mark = 'e' ∨ e.mark = 'E'
  sign : IsSign e.sign
  digits : AreDigits e.digits
  nonempty : e.digits ≠ []

structure Numeral.IsWritten (n : Numeral) : Prop where
  sign : IsSign n.sign
  whole : AreDigits n.whole
  nonempty : n.whole ≠ []
  fraction : ∀ digits ∈ n.fraction, AreDigits digits
  exponent : ∀ e ∈ n.exponent, e.IsWritten

/-- As `Numeral.IsWritten`, but the digits before the exponent may all stand after the point. -/
structure Numeral.IsWellFormed (n : Numeral) : Prop where
  sign : IsSign n.sign
  whole : AreDigits n.whole
  nonempty : n.digits ≠ []
  fraction : ∀ digits ∈ n.fraction, AreDigits digits
  exponent : ∀ e ∈ n.exponent, e.IsWritten

theorem Numeral.IsWritten.isWellFormed {n : Numeral} (hn : n.IsWritten) : n.IsWellFormed :=
  ⟨hn.sign, hn.whole, List.append_ne_nil_of_left_ne_nil hn.nonempty _, hn.fraction, hn.exponent⟩

theorem digitsOf_append {digits rest : List Char} (hdigits : AreDigits digits)
    (hrest : ∀ c ∈ rest.head?, c.isDigit = false) :
    digitsOf (digits ++ rest) = digits ∧ afterDigits (digits ++ rest) = rest := by
  rw [digitsOf, afterDigits, List.takeWhile_append_of_pos hdigits, List.dropWhile_append_of_pos hdigits]
  cases rest with
  | nil => exact ⟨List.append_nil digits, rfl⟩
  | cons c rest =>
    have hc : c.isDigit = false := hrest c rfl
    rw [List.takeWhile_cons, List.dropWhile_cons, hc]
    exact ⟨List.append_nil digits, rfl⟩

/-- A sign in front of a text that does not begin with one. -/
theorem signOf_append {sign : Option Char} {rest : List Char} (hsign : IsSign sign)
    (hrest : ∀ c ∈ rest.head?, c ≠ '+' ∧ c ≠ '-') :
    signOf (sign.toList ++ rest) = sign ∧ afterSign (sign.toList ++ rest) = rest := by
  have hnone : signOf rest = none := by
    rw [signOf]
    · rintro tail rfl
      exact (hrest '+' rfl).1 rfl
    · rintro tail rfl
      exact (hrest '-' rfl).2 rfl
  rcases hsign with rfl | rfl | rfl
  · exact ⟨hnone, by rw [afterSign, Option.toList_none, List.nil_append, hnone]; rfl⟩
  · exact ⟨rfl, rfl⟩
  · exact ⟨rfl, rfl⟩

theorem ne_sign_of_isDigit {c : Char} (h : c.isDigit = true) : c ≠ '+' ∧ c ≠ '-' := by
  constructor
  · rintro rfl
    cases h
  · rintro rfl
    cases h

theorem ne_sign_of_areDigits {digits : List Char} (rest : List Char) (hdigits : AreDigits digits)
    (hnonempty : digits ≠ []) : ∀ c ∈ (digits ++ rest).head?, c ≠ '+' ∧ c ≠ '-' := by
  intro c hc
  cases digits with
  | nil => exact absurd rfl hnonempty
  | cons d digits =>
    obtain rfl : d = c := Option.some.inj hc
    exact ne_sign_of_isDigit (hdigits d List.mem_cons_self)

theorem readFraction_append {fraction : Option (List Char)} {rest : List Char}
    (hfraction : ∀ digits ∈ fraction, AreDigits digits) (hrest : ∀ c ∈ rest.head?, c.isDigit = false ∧ c ≠ '.') :
    readFraction (fractionText fraction ++ rest) = (fraction, rest) := by
  cases fraction with
  | some digits =>
    obtain ⟨hdigits, hafter⟩ := digitsOf_append (hfraction digits rfl) fun c hc => (hrest c hc).1
    rw [fractionText, List.cons_append, readFraction, hdigits, hafter]
  | none =>
    rw [fractionText, List.nil_append, readFraction]
    rintro tail rfl
    exact (hrest '.' rfl).2 rfl

theorem Exponent.read?_text_append {e : Exponent} (he : e.IsWritten) {rest : List Char}
    (hrest : ∀ c ∈ rest.head?, c.isDigit = false) : Exponent.read? (e.text ++ rest) = some (e, rest) := by
  obtain ⟨hsign, hafter⟩ := signOf_append he.sign (ne_sign_of_areDigits rest he.digits he.nonempty)
  obtain ⟨hdigits, hrest⟩ := digitsOf_append he.digits hrest
  have hmark : (e.mark == 'e' || e.mark == 'E') = true := by
    rcases he.mark with h | h <;> rw [h] <;> rfl
  have hnonempty : (!e.digits.isEmpty) = true := by simpa using he.nonempty
  simp only [text, List.cons_append, List.append_assoc, read?, hsign, hafter, hdigits, hrest, hmark, hnonempty,
    Bool.and_self, if_true]

theorem readExponent_append {exponent : Option Exponent} {rest : List Char}
    (hexponent : ∀ e ∈ exponent, e.IsWritten) (hrest : EndsNumeral rest) :
    readExponent (exponentText exponent ++ rest) = (exponent, rest) := by
  cases exponent with
  | some e =>
    have hread := Exponent.read?_text_append (hexponent e rfl) fun c hc => (hrest c hc).1
    rw [exponentText, readExponent, hread]
  | none =>
    have hnone : Exponent.read? rest = none := by
      cases rest with
      | nil => rfl
      | cons c tail =>
        obtain ⟨-, -, he, hE⟩ := hrest c rfl
        simp [Exponent.read?, he, hE]
    rw [exponentText, List.nil_append, readExponent, hnone]

/-- What follows the fraction of a numeral does not belong to its digits. -/
theorem not_digit_of_exponentText {exponent : Option Exponent} {rest : List Char}
    (hexponent : ∀ e ∈ exponent, e.IsWritten) (hrest : EndsNumeral rest) :
    ∀ c ∈ (exponentText exponent ++ rest).head?, c.isDigit = false ∧ c ≠ '.' := by
  intro c hc
  cases exponent with
  | none => exact ⟨(hrest c hc).1, (hrest c hc).2.1⟩
  | some e =>
    obtain rfl : e.mark = c := Option.some.inj hc
    rcases (hexponent e rfl).mark with h | h <;> rw [h] <;> decide

/-- What stands after the sign of a numeral is no sign. -/
theorem Numeral.IsWellFormed.ne_sign {n : Numeral} (hn : n.IsWellFormed) (rest : List Char) :
    ∀ c ∈ (n.whole ++ (fractionText n.fraction ++ rest)).head?, c ≠ '+' ∧ c ≠ '-' := by
  by_cases hwhole : n.whole = []
  · intro c hc
    cases hfraction : n.fraction with
    | none => exact absurd (by rw [digits, hwhole, hfraction]; rfl) hn.nonempty
    | some digits =>
      rw [hwhole, hfraction] at hc
      obtain rfl : '.' = c := Option.some.inj hc
      decide
  · exact ne_sign_of_areDigits _ hn.whole hwhole

/-- A numeral is read back in front of every text that it does not go on in. -/
theorem Numeral.read?_text_append {n : Numeral} (hn : n.IsWellFormed) {rest : List Char} (hrest : EndsNumeral rest) :
    Numeral.read? (n.text ++ rest) = some (n, rest) := by
  have hstart := hn.ne_sign (exponentText n.exponent ++ rest)
  obtain ⟨sign, whole, fraction, exponent⟩ := n
  obtain ⟨hsign, hwhole, hnonempty, hfraction, hexponent⟩ := hn
  simp only at hsign hwhole hfraction hexponent hstart
  have htail := not_digit_of_exponentText hexponent hrest
  have hpoint : ∀ c ∈ (fractionText fraction ++ (exponentText exponent ++ rest)).head?, c.isDigit = false := by
    cases fraction with
    | none => exact fun c hc => (htail c hc).1
    | some digits =>
      intro c hc
      obtain rfl : '.' = c := Option.some.inj hc
      rfl
  obtain ⟨hsignOf, hafterSign⟩ := signOf_append hsign hstart
  obtain ⟨hdigits, hafter⟩ := digitsOf_append hwhole hpoint
  have hreadFraction := readFraction_append hfraction htail
  have hreadExponent := readExponent_append hexponent hrest
  have hsome : (whole.isEmpty && (fraction.getD []).isEmpty) = false := by
    cases whole with
    | cons d whole => rfl
    | nil => simpa [digits] using hnonempty
  simp only [text, List.append_assoc, read?, hafterSign, hdigits, hafter, hreadFraction, hreadExponent, hsignOf,
    hsome, Bool.false_eq_true, if_false]

/-! ## Digits of numbers -/

theorem areDigits_toDigits (n : Nat) : AreDigits (Nat.toDigits 10 n) :=
  fun _ hc => Nat.isDigit_of_mem_toDigits (by decide) (by decide) hc

theorem areDigits_append {first second : List Char} (hfirst : AreDigits first) (hsecond : AreDigits second) :
    AreDigits (first ++ second) := by
  intro c hc
  rcases List.mem_append.1 hc with hc | hc
  · exact hfirst c hc
  · exact hsecond c hc

theorem areDigits_replicate (count : Nat) : AreDigits (List.replicate count '0') := by
  intro c hc
  rw [List.eq_of_mem_replicate hc]
  rfl

theorem areDigits_take {digits : List Char} (h : AreDigits digits) (count : Nat) : AreDigits (digits.take count) :=
  fun c hc => h c (List.mem_of_mem_take hc)

theorem areDigits_drop {digits : List Char} (h : AreDigits digits) (count : Nat) : AreDigits (digits.drop count) :=
  fun c hc => h c (List.mem_of_mem_drop hc)

theorem head?_toDigits_append (n : Nat) (rest : List Char) :
    (Nat.toDigits 10 n ++ rest).head? = (Nat.toDigits 10 n).head? := by
  rw [List.head?_append]
  cases hfirst : (Nat.toDigits 10 n).head? with
  | none => exact absurd (List.head?_eq_none_iff.1 hfirst) Nat.toDigits_ne_nil
  | some c => rfl

/-- The digits of a number that is not zero do not begin with a zero. -/
theorem head?_toDigits_ne {n : Nat} (h : n ≠ 0) : (Nat.toDigits 10 n).head? ≠ some '0' := by
  induction n using Nat.strongRecOn with
  | ind n ih =>
    by_cases hn : n < 10
    · rw [Nat.toDigits_of_lt_base hn]
      have hdigit : ∀ d < 10, d ≠ 0 → [d.digitChar].head? ≠ some '0' := by decide
      exact hdigit n hn h
    · have hquotient : n / 10 ≠ 0 := by omega
      rw [Nat.toDigits_of_base_le (by decide) (by omega), head?_toDigits_append]
      exact ih (n / 10) (by omega) hquotient

/-! ## The decimal of a double -/

/-- Rounding never goes below the whole part of a quotient. -/
theorem div_le_roundDiv (tie : Tie) (num den : Nat) : num / den ≤ roundDiv tie num den := by
  unfold roundDiv
  simp only
  split
  · exact Nat.le_refl _
  · split
    · omega
    · split <;> omega

section

variable {v : Neighbourhood} {s : Scaled}

/-- Zero does not round to a value that is at some distance from it. -/
theorem Neighbourhood.digits_ne_zero_of_holds (hlow : 0 < v.low) (h : v.holds s = true) : s.digits ≠ 0 := by
  intro hdigits
  have hdivisor : 0 < (powerOfTen s.exponent).2 := Nat.pow_pos (by decide)
  have hpositive : 0 < v.low * (powerOfTen s.exponent).2 := Nat.mul_pos hlow hdivisor
  simp only [holds, hdigits, Nat.zero_mul] at h
  split at h <;> simp only [Bool.and_eq_true, decide_eq_true_eq] at h <;> omega

theorem Neighbourhood.digits_candidate? {tie : Tie} {exponent : Int} (hlow : 0 < v.low)
    (h : v.candidate? tie exponent = some s) : s.digits ≠ 0 := by
  simp only [candidate?] at h
  split at h
  · -- the nearest point is not below the lower of the two
    rename_i hbelow habove
    cases h
    have hne := digits_ne_zero_of_holds hlow hbelow
    have hle := div_le_roundDiv tie (v.value * (powerOfTen exponent).2) ((powerOfTen exponent).1 * v.unit)
    exact fun hzero => hne (Nat.le_zero.1 (hzero ▸ hle))
  · rename_i hbelow habove
    cases h
    exact digits_ne_zero_of_holds hlow hbelow
  · rename_i hbelow habove
    cases h
    exact digits_ne_zero_of_holds hlow habove
  · cases h

/-- Moving zeros into the exponent leaves no zero behind. -/
theorem Scaled.digits_trimmed (room : Nat) {s : Scaled} (h : s.digits ≠ 0) : (s.trimmed room).digits ≠ 0 := by
  induction room generalizing s with
  | zero => exact h
  | succ room ih =>
    rw [trimmed]
    split
    · rename_i hzero
      simp only [Bool.and_eq_true, beq_iff_eq] at hzero
      apply ih
      show s.digits / 10 ≠ 0
      omega
    · exact h

theorem Scaled.trimmed_of_zero (room : Nat) {s : Scaled} (h : s.digits = 0) : s.trimmed room = s := by
  cases room with
  | zero => rfl
  | succ room => rw [trimmed, if_neg (by simp [h])]

end

/-- The decimal of a double is zero only with the exponent zero. -/
theorem digits_shortest (tie : Tie) (mantissa : Nat) (exponent : Int) :
    (shortest tie mantissa exponent).digits ≠ 0 ∨ (shortest tie mantissa exponent).exponent = 0 := by
  rw [shortest]
  split
  · exact .inr rfl
  · rename_i hmantissa
    have hmantissa : mantissa ≠ 0 := by simpa using hmantissa
    have hlow : 0 < (Neighbourhood.of mantissa exponent).low := by
      have hfactor : 0 < (powerOfTwo (exponent - 2)).1 := Nat.pow_pos (by decide)
      refine Nat.mul_pos ?_ hfactor
      split <;> omega
    rw [Neighbourhood.shortest]
    generalize hfound : (List.range 17).findSome? _ = found
    cases found with
    | some s =>
      obtain ⟨n, -, hcandidate⟩ := List.exists_of_findSome?_eq_some hfound
      exact .inl (Scaled.digits_trimmed 18 (Neighbourhood.digits_candidate? hlow hcandidate))
    | none =>
      rw [Option.getD_none]
      by_cases hzero : (Neighbourhood.of mantissa exponent).value / (Neighbourhood.of mantissa exponent).unit = 0
      · rw [Scaled.trimmed_of_zero 18 hzero]
        exact .inr rfl
      · exact .inl (Scaled.digits_trimmed 18 hzero)

end Decimal

/-! ## JSON numbers -/

namespace Json

open Decimal

/-- Digits that fill the places before the point have no zero in front of others. -/
theorem splitDigits_form (digits places : Nat) :
    AreDigits (splitDigits digits places).1 ∧ AreDigits (splitDigits digits places).2 ∧
      (splitDigits digits places).1 ≠ [] ∧ (splitDigits digits places).2.length = places ∧
      ((splitDigits digits places).1.length = 1 ∨ (splitDigits digits places).1.head? ≠ some '0') := by
  have hdigits := areDigits_append (areDigits_replicate (places + 1 - (Nat.toDigits 10 digits).length))
    (areDigits_toDigits digits)
  have hlength : places + 1 ≤
      (List.replicate (places + 1 - (Nat.toDigits 10 digits).length) '0' ++ Nat.toDigits 10 digits).length := by
    rw [List.length_append, List.length_replicate]
    omega
  simp only [splitDigits, List.splitAt_eq]
  refine ⟨areDigits_take hdigits _, areDigits_drop hdigits _, ?_, ?_, ?_⟩
  · intro hnil
    have := congrArg List.length hnil
    rw [List.length_take, List.length_nil] at this
    omega
  · rw [List.length_drop]
    omega
  · by_cases hlong : places + 1 < (Nat.toDigits 10 digits).length
    · -- nothing is put in front, and a number of more than one digit is not zero
      right
      have hnone : places + 1 - (Nat.toDigits 10 digits).length = 0 := by omega
      have hpositive : digits ≠ 0 := by
        rintro rfl
        rw [Nat.toDigits_zero] at hlong
        simp at hlong
      rw [hnone, List.replicate_zero, List.nil_append, List.head?_take, if_neg (by omega)]
      exact head?_toDigits_ne hpositive
    · left
      rw [List.length_take, List.length_append, List.length_replicate]
      omega

theorem isSign_minusIf (negative : Bool) : IsSign (minusIf negative) := by
  cases negative
  · exact .inl rfl
  · exact .inr (.inr rfl)

theorem minusIf_ne_plus (negative : Bool) : (minusIf negative != some '+') = true := by
  cases negative <;> rfl

/-- A numeral whose text is a JSON number. -/
structure IsWrittenNumber (n : Numeral) : Prop where
  written : n.IsWritten
  number : isNumber n = true

section

variable {negative : Bool} {s : Scaled}

/-- What is left to show of a numeral that begins with a minus or with no sign. -/
theorem isNumber_of_form {whole : List Char} {fraction : Option (List Char)} {exponent : Option Exponent}
    (hnonempty : whole ≠ []) (hzero : whole.length = 1 ∨ whole.head? ≠ some '0') (hfraction : fraction ≠ some []) :
    isNumber ⟨minusIf negative, whole, fraction, exponent⟩ = true := by
  simp only [isNumber, minusIf_ne_plus, Bool.true_and, Bool.and_eq_true, Bool.or_eq_true, Bool.not_eq_true',
    List.isEmpty_eq_false_iff, beq_iff_eq, bne_iff_ne]
  exact ⟨⟨hnonempty, hzero⟩, hfraction⟩

/-- A decimal with places after the point. -/
theorem isWrittenNumber_positional_of_neg (negative : Bool) (hexponent : s.exponent < 0) :
    (s.positional negative).fraction.isNone = false ∧ IsWrittenNumber (s.positional negative) := by
  obtain ⟨hwhole, hfraction, hnonempty, hplaces, hzero⟩ := splitDigits_form s.digits s.exponent.natAbs
  have hsome : (splitDigits s.digits s.exponent.natAbs).2 ≠ [] := by
    rw [← List.length_pos_iff, hplaces]
    omega
  rw [Scaled.positional, if_pos hexponent]
  refine ⟨rfl, ⟨isSign_minusIf negative, hwhole, hnonempty, ?_, by rintro _ ⟨⟩⟩, ?_⟩
  · rintro _ ⟨⟩
    exact hfraction
  · exact isNumber_of_form hnonempty hzero fun hnone => hsome (Option.some.inj hnone)

/-- A whole number, with a zero after the point. -/
theorem isWrittenNumber_positional_of_nonneg (negative : Bool) (hexponent : ¬s.exponent < 0)
    (hdecimal : s.digits ≠ 0 ∨ s.exponent = 0) :
    (s.positional negative).fraction.isNone = true ∧
      IsWrittenNumber { s.positional negative with fraction := some ['0'] } := by
  have hnonempty : Nat.toDigits 10 s.digits ++ List.replicate s.exponent.toNat '0' ≠ [] := by
    simp [Nat.toDigits_ne_nil]
  rw [Scaled.positional, if_neg hexponent]
  refine ⟨rfl, ⟨isSign_minusIf negative, ?_, hnonempty, ?_, by rintro _ ⟨⟩⟩, ?_⟩
  · exact areDigits_append (areDigits_toDigits _) (areDigits_replicate _)
  · rintro _ ⟨⟩
    exact areDigits_replicate 1
  · refine isNumber_of_form hnonempty ?_ (by simp)
    by_cases hzero : s.digits = 0
    · -- zero has one digit, since no zeros come after it
      have hexponent : s.exponent = 0 := hdecimal.resolve_left (not_not_intro hzero)
      left
      rw [hzero, hexponent]
      rfl
    · right
      rw [head?_toDigits_append]
      exact head?_toDigits_ne hzero

/-- A decimal with an exponent. -/
theorem isWrittenNumber_scientific : IsWrittenNumber (scientific negative s) := by
  have hdigits := areDigits_toDigits s.digits
  have hlength : (Nat.toDigits 10 s.digits).length ≠ 0 := by
    simp [Nat.toDigits_ne_nil]
  have hone : ((Nat.toDigits 10 s.digits).take 1).length = 1 := by
    rw [List.length_take]
    omega
  have hnonempty : (Nat.toDigits 10 s.digits).take 1 ≠ [] := by
    rw [← List.length_pos_iff, hone]
    exact Nat.one_pos
  refine ⟨⟨isSign_minusIf negative, areDigits_take hdigits 1, hnonempty, ?_, ?_⟩, ?_⟩
  · intro digits h
    simp only [scientific] at h
    split at h
    · cases h
    · cases h
      exact areDigits_drop hdigits 1
  · rintro _ ⟨⟩
    refine ⟨.inl rfl, ?_, areDigits_toDigits _, Nat.toDigits_ne_nil⟩
    split
    · exact .inr (.inr rfl)
    · exact .inr (.inl rfl)
  · refine isNumber_of_form hnonempty (.inl hone) ?_
    split
    · exact nofun
    · rename_i hrest
      simpa using hrest

/-- A decimal is written as a JSON number. -/
theorem isWrittenNumber_numeralOfScaled (hdecimal : s.digits ≠ 0 ∨ s.exponent = 0) :
    IsWrittenNumber (numeralOfScaled negative s) := by
  rw [numeralOfScaled]
  split
  · by_cases hexponent : s.exponent < 0
    · obtain ⟨hsome, hnumber⟩ := isWrittenNumber_positional_of_neg negative hexponent
      simpa only [hsome, Bool.false_eq_true, if_false] using hnumber
    · obtain ⟨hnone, hnumber⟩ := isWrittenNumber_positional_of_nonneg negative hexponent hdecimal
      simpa only [hnone, if_true] using hnumber
  · exact isWrittenNumber_scientific

end

/-- A double is written as a JSON number, if it has a numeral at all. -/
theorem isWrittenNumber_of_numeral? {x : Float} {n : Numeral} (h : numeral? x = some n) : IsWrittenNumber n := by
  unfold numeral? at h
  split at h
  · cases h
    exact isWrittenNumber_numeralOfScaled (digits_shortest _ _ _)
  · cases h

end Json

end SvgPlot
