import Mathlib.Computability.RegularExpressions
import SvgPlot.Cli.Setup
import SvgPlot.Proofs.WrittenNumerals

/-!
# The grammar of lengths

The numerals are the words of a regular expression (`Grammar.numeral`), and a length is the longest of them that the
token begins with and a unit after it.

* `mem_numeral_iff` says that the words of the expression are the texts of well-formed numerals.
* `Numeral.isWellFormed_of_read?` says that only such numerals are read, and `exists_read?_text_append` that no longer
  one is missed: what is left of a text after reading is never longer than what any numeral leaves.
* `Numeral.read?_of_splits` and `Numeral.read?_eq_none` put this together: what is read is the longest numeral.
  `resolve_of_grammar` says what this means for lengths.
-/

namespace SvgPlot

namespace Decimal

/-! ## The regular expression -/

namespace Grammar

def perhaps (p : RegularExpression Char) : RegularExpression Char := 1 + p

def digit : RegularExpression Char := ("0123456789".toList.map .char).sum

def digits : RegularExpression Char := digit * digit.star

def sign : RegularExpression Char := perhaps (.char '+' + .char '-')

/-- Digits with a point among them or behind them perhaps, or a point and then digits. -/
def significand : RegularExpression Char :=
  digits * perhaps (.char '.' * digit.star) + .char '.' * digits

def exponent : RegularExpression Char := (.char 'e' + .char 'E') * sign * digits

/-- A sign perhaps, then digits with a point perhaps, then an exponent perhaps. -/
def numeral : RegularExpression Char := sign * significand * perhaps exponent

theorem mem_perhaps_iff {p : RegularExpression Char} {cs : List Char} :
    cs ∈ (perhaps p).matches' ↔ cs = [] ∨ cs ∈ p.matches' := Iff.rfl

theorem mem_char_iff {c : Char} {cs : List Char} : cs ∈ (RegularExpression.char c).matches' ↔ cs = [c] := Iff.rfl

theorem mem_add_iff {p q : RegularExpression Char} {cs : List Char} :
    cs ∈ (p + q).matches' ↔ cs ∈ p.matches' ∨ cs ∈ q.matches' := Iff.rfl

theorem mem_mul_iff {p q : RegularExpression Char} {cs : List Char} :
    cs ∈ (p * q).matches' ↔ ∃ as ∈ p.matches', ∃ bs ∈ q.matches', as ++ bs = cs := Language.mem_mul

theorem mem_chars_iff_isDigit {c : Char} : c ∈ "0123456789".toList ↔ c.isDigit = true := by
  constructor
  · exact List.all_eq_true.1 (by decide) c
  · intro h
    simp only [Char.isDigit, Bool.and_eq_true, decide_eq_true_eq] at h
    have hlow : 48 ≤ c.toNat := h.1
    have hhigh : c.toNat < 58 := Nat.lt_succ_of_le h.2
    have hall : ∀ n < 58, 48 ≤ n → Char.ofNat n ∈ "0123456789".toList := by decide
    have hmem := hall c.toNat hhigh hlow
    rwa [Char.ofNat_toNat] at hmem

theorem mem_digit_iff {cs : List Char} : cs ∈ digit.matches' ↔ ∃ c, c.isDigit = true ∧ cs = [c] := by
  have hsum (chars : List Char) : cs ∈ (chars.map RegularExpression.char).sum.matches' ↔ ∃ c ∈ chars, cs = [c] := by
    induction chars with
    | nil => simp [RegularExpression.matches'_zero, Language.notMem_zero]
    | cons c chars ih =>
      rw [List.map_cons, List.sum_cons, mem_add_iff, mem_char_iff, ih]
      simp
  rw [digit, hsum]
  simp only [mem_chars_iff_isDigit]

theorem mem_star_digit_iff {cs : List Char} : cs ∈ digit.star.matches' ↔ AreDigits cs := by
  rw [RegularExpression.matches'_star, Language.mem_kstar]
  constructor
  · rintro ⟨parts, rfl, hparts⟩ c hc
    obtain ⟨part, hpart, hc⟩ := List.mem_flatten.1 hc
    obtain ⟨d, hd, rfl⟩ := mem_digit_iff.1 (hparts part hpart)
    rwa [List.mem_singleton.1 hc]
  · intro h
    refine ⟨cs.map fun c => [c], (List.flatMap_singleton' cs).symm, ?_⟩
    intro part hpart
    obtain ⟨c, hc, rfl⟩ := List.mem_map.1 hpart
    exact mem_digit_iff.2 ⟨c, h c hc, rfl⟩

theorem mem_digits_iff {cs : List Char} : cs ∈ digits.matches' ↔ AreDigits cs ∧ cs ≠ [] := by
  rw [digits, mem_mul_iff]
  constructor
  · rintro ⟨as, has, bs, hbs, rfl⟩
    obtain ⟨c, hc, rfl⟩ := mem_digit_iff.1 has
    have hrest := mem_star_digit_iff.1 hbs
    exact ⟨List.forall_mem_cons.2 ⟨hc, hrest⟩, List.cons_ne_nil c bs⟩
  · rintro ⟨h, hne⟩
    obtain ⟨c, rest, rfl⟩ := List.exists_cons_of_ne_nil hne
    obtain ⟨hc, hrest⟩ := List.forall_mem_cons.1 h
    exact ⟨[c], mem_digit_iff.2 ⟨c, hc, rfl⟩, rest, mem_star_digit_iff.2 hrest, rfl⟩

theorem mem_sign_iff {cs : List Char} : cs ∈ sign.matches' ↔ ∃ s, IsSign s ∧ cs = s.toList := by
  simp only [sign, mem_perhaps_iff, mem_add_iff, mem_char_iff, IsSign]
  constructor
  · rintro (rfl | rfl | rfl)
    · exact ⟨none, .inl rfl, rfl⟩
    · exact ⟨some '+', .inr (.inl rfl), rfl⟩
    · exact ⟨some '-', .inr (.inr rfl), rfl⟩
  · rintro ⟨s, rfl | rfl | rfl, rfl⟩
    · exact .inl rfl
    · exact .inr (.inl rfl)
    · exact .inr (.inr rfl)

theorem mem_exponent_iff {cs : List Char} : cs ∈ exponent.matches' ↔ ∃ e : Exponent, e.IsWritten ∧ cs = e.text := by
  simp only [exponent, mem_mul_iff, mem_add_iff, mem_char_iff, mem_sign_iff, mem_digits_iff]
  constructor
  · rintro ⟨_, ⟨mark, hmark, _, ⟨sign, hsign, rfl⟩, rfl⟩, digits, ⟨hdigits, hne⟩, rfl⟩
    rcases hmark with rfl | rfl
    · exact ⟨⟨'e', sign, digits⟩, ⟨.inl rfl, hsign, hdigits, hne⟩, rfl⟩
    · exact ⟨⟨'E', sign, digits⟩, ⟨.inr rfl, hsign, hdigits, hne⟩, rfl⟩
  · rintro ⟨⟨mark, sign, digits⟩, ⟨hmark, hsign, hdigits, hne⟩, rfl⟩
    refine ⟨mark :: sign.toList, ⟨[mark], ?_, sign.toList, ⟨sign, hsign, rfl⟩, rfl⟩, digits, ⟨hdigits, hne⟩, rfl⟩
    exact hmark.imp (congrArg fun c => [c]) (congrArg fun c => [c])

theorem mem_significand_iff {cs : List Char} :
    cs ∈ significand.matches' ↔
      ∃ (whole : List Char) (fraction : Option (List Char)), AreDigits whole ∧
        (∀ digits ∈ fraction, AreDigits digits) ∧ whole ++ fraction.getD [] ≠ [] ∧
        cs = whole ++ fractionText fraction := by
  simp only [significand, mem_add_iff, mem_mul_iff, mem_perhaps_iff, mem_char_iff, mem_digits_iff, mem_star_digit_iff]
  constructor
  · rintro (⟨whole, ⟨hwhole, hne⟩, _, (rfl | ⟨_, rfl, digits, hdigits, rfl⟩), rfl⟩ |
      ⟨_, rfl, digits, ⟨hdigits, hne⟩, rfl⟩)
    · exact ⟨whole, none, hwhole, nofun, by simpa using hne, rfl⟩
    · exact ⟨whole, some digits, hwhole, by rintro _ ⟨⟩; exact hdigits, by simp [hne], rfl⟩
    · exact ⟨[], some digits, nofun, by rintro _ ⟨⟩; exact hdigits, by simpa using hne, rfl⟩
  · rintro ⟨whole, fraction, hwhole, hfraction, hne, rfl⟩
    cases fraction with
    | none => exact .inl ⟨whole, ⟨hwhole, by simpa using hne⟩, [], .inl rfl, rfl⟩
    | some digits =>
      have hdigits := hfraction digits rfl
      by_cases hnil : whole = []
      · subst hnil
        exact .inr ⟨['.'], rfl, digits, ⟨hdigits, by simpa using hne⟩, rfl⟩
      · exact .inl ⟨whole, ⟨hwhole, hnil⟩, _, .inr ⟨['.'], rfl, digits, hdigits, rfl⟩, rfl⟩

/-- The words of the expression are the texts of well-formed numerals. -/
theorem mem_numeral_iff {cs : List Char} : cs ∈ numeral.matches' ↔ ∃ n : Numeral, n.IsWellFormed ∧ cs = n.text := by
  simp only [numeral, mem_mul_iff, mem_perhaps_iff, mem_sign_iff, mem_significand_iff, mem_exponent_iff]
  constructor
  · rintro ⟨_, ⟨_, ⟨sign, hsign, rfl⟩, _, ⟨whole, fraction, hwhole, hfraction, hne, rfl⟩, rfl⟩, _, hexponent, rfl⟩
    rcases hexponent with rfl | ⟨e, he, rfl⟩
    · exact ⟨⟨sign, whole, fraction, none⟩, ⟨hsign, hwhole, hne, hfraction, nofun⟩,
        by simp [Numeral.text, exponentText]⟩
    · refine ⟨⟨sign, whole, fraction, some e⟩, ⟨hsign, hwhole, hne, hfraction, ?_⟩,
        by simp [Numeral.text, exponentText]⟩
      rintro _ ⟨⟩
      exact he
  · rintro ⟨⟨sign, whole, fraction, exponent⟩, ⟨hsign, hwhole, hne, hfraction, hexponent⟩, rfl⟩
    refine ⟨_, ⟨_, ⟨sign, hsign, rfl⟩, _, ⟨whole, fraction, hwhole, hfraction, hne, rfl⟩, rfl⟩, exponentText exponent,
      ?_, by simp [Numeral.text]⟩
    cases exponent with
    | none => exact .inl rfl
    | some e => exact .inr ⟨e, hexponent e rfl, rfl⟩

end Grammar

/-! ## What is read -/

theorem isSign_signOf (cs : List Char) : IsSign (signOf cs) := by
  unfold signOf
  split
  · exact .inr (.inl rfl)
  · exact .inr (.inr rfl)
  · exact .inl rfl

theorem areDigits_digitsOf (cs : List Char) : AreDigits (digitsOf cs) := List.all_eq_true.1 List.all_takeWhile

theorem areDigits_readFraction {cs digits : List Char} (h : digits ∈ (readFraction cs).1) : AreDigits digits := by
  unfold readFraction at h
  split at h
  · obtain rfl := Option.some.inj h
    exact areDigits_digitsOf _
  · cases h

theorem isWritten_readExponent {cs : List Char} {e : Exponent} (h : e ∈ (readExponent cs).1) : e.IsWritten := by
  unfold readExponent Exponent.read? at h
  cases cs with
  | nil => cases h
  | cons mark rest =>
    simp only at h
    by_cases hread : (mark == 'e' || mark == 'E') && !(digitsOf (afterSign rest)).isEmpty
    · rw [if_pos hread] at h
      obtain rfl := Option.some.inj h
      simp only [Bool.and_eq_true, Bool.or_eq_true, beq_iff_eq, Bool.not_eq_true', List.isEmpty_eq_false_iff] at hread
      exact ⟨hread.1, isSign_signOf rest, areDigits_digitsOf _, hread.2⟩
    · rw [if_neg hread] at h
      cases h

/-- Only well-formed numerals are read. -/
theorem Numeral.isWellFormed_of_read? {cs rest : List Char} {n : Numeral} (h : read? cs = some (n, rest)) :
    n.IsWellFormed := by
  simp only [read?] at h
  split at h
  · cases h
  · rename_i hsome
    cases h
    refine ⟨isSign_signOf cs, areDigits_digitsOf _, ?_, fun _ => areDigits_readFraction,
      fun _ => isWritten_readExponent⟩
    simpa [digits, List.append_eq_nil_iff] using hsome

/-! ## Nothing longer is missed -/

theorem length_afterDigits_le (cs : List Char) : (afterDigits cs).length ≤ cs.length :=
  (List.dropWhile_suffix _).length_le

theorem length_readFraction_le (cs : List Char) : (readFraction cs).2.length ≤ cs.length := by
  have h := congrArg List.length (fractionText_append_readFraction cs)
  rw [List.length_append] at h
  omega

theorem length_readExponent_le (cs : List Char) : (readExponent cs).2.length ≤ cs.length := by
  have h := congrArg List.length (exponentText_append_readExponent cs)
  rw [List.length_append] at h
  omega

theorem digitsOf_append_of_areDigits {digits : List Char} (h : AreDigits digits) (rest : List Char) :
    digitsOf (digits ++ rest) = digits ++ digitsOf rest := List.takeWhile_append_of_pos h

theorem afterDigits_append_of_areDigits {digits : List Char} (h : AreDigits digits) (rest : List Char) :
    afterDigits (digits ++ rest) = afterDigits rest := List.dropWhile_append_of_pos h

/-- With an exponent the digits that follow it are read. -/
theorem Exponent.exists_read?_text_append {e : Exponent} (he : e.IsWritten) (rest : List Char) :
    ∃ f, Exponent.read? (e.text ++ rest) = some (f, afterDigits rest) := by
  obtain ⟨mark, sign, digits⟩ := e
  obtain ⟨hmark, hsign, hdigits, hne⟩ := he
  simp only at hmark hsign hdigits hne
  obtain ⟨hsignOf, hafterSign⟩ := signOf_append hsign (ne_sign_of_areDigits rest hdigits hne)
  refine ⟨⟨mark, sign, digits ++ digitsOf rest⟩, ?_⟩
  simp only [text, List.cons_append, List.append_assoc, read?, hsignOf, hafterSign,
    digitsOf_append_of_areDigits hdigits, afterDigits_append_of_areDigits hdigits]
  rw [if_pos]
  simp [hmark, hne]

section

variable {whole : List Char} {fraction : Option (List Char)} {exponent : Option Exponent}

theorem length_readExponent_append_le (hexponent : ∀ e ∈ exponent, e.IsWritten) (rest : List Char) :
    (readExponent (exponentText exponent ++ rest)).2.length ≤ rest.length := by
  cases exponent with
  | none => exact length_readExponent_le rest
  | some e =>
    obtain ⟨f, hread⟩ := Exponent.exists_read?_text_append (hexponent e rfl) rest
    rw [exponentText, readExponent, hread]
    exact length_afterDigits_le rest

/-- Reading on over digits does not get past a point or the mark of an exponent. -/
theorem exists_afterDigits_append (fraction : Option (List Char)) (hexponent : ∀ e ∈ exponent, e.IsWritten)
    (rest : List Char) :
    ∃ left, afterDigits (fractionText fraction ++ (exponentText exponent ++ rest)) =
      fractionText fraction ++ (exponentText exponent ++ left) ∧ left.length ≤ rest.length := by
  cases fraction with
  | some digits => exact ⟨rest, rfl, le_rfl⟩
  | none =>
    cases exponent with
    | none => exact ⟨afterDigits rest, rfl, length_afterDigits_le rest⟩
    | some e =>
      refine ⟨rest, ?_, le_rfl⟩
      obtain ⟨mark, sign, digits⟩ := e
      rcases (hexponent _ rfl).mark with rfl | rfl <;> rfl

/-- Reading on over a fraction does not get past the mark of an exponent. -/
theorem exists_readFraction_append (hfraction : ∀ digits ∈ fraction, AreDigits digits)
    (hexponent : ∀ e ∈ exponent, e.IsWritten) (rest : List Char) :
    ∃ left, (readFraction (fractionText fraction ++ (exponentText exponent ++ rest))).2 =
      exponentText exponent ++ left ∧ left.length ≤ rest.length := by
  cases fraction with
  | some digits =>
    obtain ⟨left, hafter, hle⟩ := exists_afterDigits_append none hexponent rest
    refine ⟨left, ?_, hle⟩
    show afterDigits (digits ++ (exponentText exponent ++ rest)) = _
    rw [afterDigits_append_of_areDigits (hfraction digits rfl)]
    exact hafter
  | none =>
    cases exponent with
    | none => exact ⟨(readFraction rest).2, rfl, length_readFraction_le rest⟩
    | some e =>
      refine ⟨rest, ?_, le_rfl⟩
      obtain ⟨mark, sign, digits⟩ := e
      rcases (hexponent _ rfl).mark with rfl | rfl <;> rfl

/-- Whatever follows, a digit is found before the exponent. -/
theorem exists_digit_of_append (hwhole : AreDigits whole) (hfraction : ∀ digits ∈ fraction, AreDigits digits)
    (hnonempty : whole ++ fraction.getD [] ≠ []) (rest : List Char) :
    ((digitsOf (whole ++ (fractionText fraction ++ rest))).isEmpty &&
      ((readFraction (afterDigits (whole ++ (fractionText fraction ++ rest)))).1.getD []).isEmpty) = false := by
  cases whole with
  | cons d whole =>
    rw [digitsOf_append_of_areDigits hwhole]
    rfl
  | nil =>
    cases fraction with
    | none => exact absurd rfl hnonempty
    | some digits =>
      have hdigits : digitsOf (digits ++ rest) ≠ [] := by
        rw [digitsOf_append_of_areDigits (hfraction digits rfl)]
        exact List.append_ne_nil_of_left_ne_nil (by simpa using hnonempty) _
      show (true && (digitsOf (digits ++ rest)).isEmpty) = false
      simpa using hdigits

end

/-- What is left after reading is not longer than what a numeral at the start of the text leaves. -/
theorem Numeral.exists_read?_text_append {n : Numeral} (hn : n.IsWellFormed) (rest : List Char) :
    ∃ m left, read? (n.text ++ rest) = some (m, left) ∧ left.length ≤ rest.length := by
  have hstart := hn.ne_sign (exponentText n.exponent ++ rest)
  obtain ⟨sign, whole, fraction, exponent⟩ := n
  obtain ⟨hsign, hwhole, hnonempty, hfraction, hexponent⟩ := hn
  simp only at hsign hwhole hfraction hexponent hstart
  obtain ⟨-, hafterSign⟩ := signOf_append hsign hstart
  have hdigit := exists_digit_of_append hwhole hfraction hnonempty (exponentText exponent ++ rest)
  obtain ⟨first, hafter, hfirst⟩ := exists_afterDigits_append fraction hexponent rest
  obtain ⟨second, hread, hsecond⟩ := exists_readFraction_append hfraction hexponent first
  have hlast := length_readExponent_append_le hexponent second
  simp only [text, List.append_assoc, read?, hafterSign, hdigit, Bool.false_eq_true, if_false]
  refine ⟨_, _, rfl, ?_⟩
  rw [afterDigits_append_of_areDigits hwhole, hafter, hread]
  omega

/-! ## The longest numeral -/

/-- A text taken apart into the longest numeral that it begins with and the rest. -/
structure Grammar.Splits (cs number rest : List Char) : Prop where
  append : number ++ rest = cs
  isNumeral : number ∈ numeral.matches'
  longest : ∀ other, other <+: cs → other ∈ numeral.matches' → other.length ≤ number.length

/-- The longest numeral is what is read, from the text as from the numeral alone. -/
theorem Numeral.read?_of_splits {cs number rest : List Char} (h : Grammar.Splits cs number rest) :
    ∃ n, read? cs = some (n, rest) ∧ read? number = some (n, []) := by
  obtain ⟨written, hwritten, hnumber⟩ := Grammar.mem_numeral_iff.1 h.isNumeral
  obtain ⟨n, left, hread, hle⟩ := exists_read?_text_append hwritten rest
  rw [← hnumber, h.append] at hread
  have hn := isWellFormed_of_read? hread
  have htext : n.text ++ left = number ++ rest := by rw [h.append, text_append_of_read? hread]
  have hlongest : n.text.length ≤ number.length :=
    h.longest n.text ⟨left, text_append_of_read? hread⟩ (Grammar.mem_numeral_iff.2 ⟨n, hn, rfl⟩)
  have hlength := congrArg List.length htext
  rw [List.length_append, List.length_append] at hlength
  obtain ⟨hsame, hleft⟩ := List.append_inj htext (by omega)
  refine ⟨n, by rw [hread, hleft], ?_⟩
  have hends : EndsNumeral [] := nofun
  have halone := read?_text_append hn hends
  rwa [List.append_nil, hsame] at halone

theorem Numeral.read?_eq_none {cs : List Char} (h : ∀ number, number <+: cs → number ∉ Grammar.numeral.matches') :
    read? cs = none := by
  cases hread : read? cs with
  | none => rfl
  | some found =>
    obtain ⟨n, rest⟩ := found
    have hnumeral := Grammar.mem_numeral_iff.2 ⟨n, isWellFormed_of_read? hread, rfl⟩
    exact absurd hnumeral (h n.text ⟨rest, text_append_of_read? hread⟩)

end Decimal

/-! ## Lengths -/

namespace LengthUnit

/-- What may stand after the number of a length, and the unit that it means. -/
def suffixes : List (String × LengthUnit) :=
  [("", pixel), ("px", pixel), ("%", percent), ("in", inch), ("cm", centimetre), ("mm", millimetre), ("pc", pica),
    ("pt", point)]

theorem ofSuffix?_eq_some_iff {suffix : String} {unit : LengthUnit} :
    ofSuffix? suffix = some unit ↔ (suffix, unit) ∈ suffixes := by
  constructor
  · intro h
    unfold ofSuffix? at h
    split_ifs at h <;> cases h <;> simp_all [suffixes]
  · intro h
    simp only [suffixes, List.mem_cons, Prod.mk.injEq, List.not_mem_nil, or_false] at h
    rcases h with ⟨rfl, rfl⟩ | ⟨rfl, rfl⟩ | ⟨rfl, rfl⟩ | ⟨rfl, rfl⟩ | ⟨rfl, rfl⟩ | ⟨rfl, rfl⟩ | ⟨rfl, rfl⟩ |
        ⟨rfl, rfl⟩ <;>
      rfl

end LengthUnit

namespace Length

open Decimal

/-- What is read of a text: all but the blanks around it. -/
def tokenOf (raw : String) : List Char := Text.trimChars raw.toList

section

variable {raw : String}

theorem read_eq_notANumber (h : '\n' ∈ tokenOf raw ∨ Numeral.read? (tokenOf raw) = none) :
    read raw = .error (.notANumber (Text.trim raw)) := by
  show ofToken (tokenOf raw) = _
  rw [ofToken]
  rcases h with hfeed | hnone
  · rw [if_pos (List.contains_iff_mem.2 hfeed)]
    rfl
  · rw [hnone, ite_self]
    rfl

/-- What follows the numeral of a length decides on its unit. -/
theorem read_eq_of_read? {n : Numeral} {suffix : List Char} (hfeed : '\n' ∉ tokenOf raw)
    (hread : Numeral.read? (tokenOf raw) = some (n, suffix)) :
    read raw = (LengthUnit.ofSuffix? (String.ofList suffix)).elim (.error (.unknownUnit (String.ofList suffix)))
      fun unit => .ok ⟨n.toFloat, unit⟩ := by
  show ofToken (tokenOf raw) = _
  rw [ofToken, if_neg (fun hcontains => hfeed (List.contains_iff_mem.1 hcontains)), hread]
  cases hunit : LengthUnit.ofSuffix? (String.ofList suffix) with
  | none => simp only [hunit, Option.elim_none]
  | some unit => simp only [hunit, Option.elim_some]

end

/-- A length is read as its grammar says. A token that has a line feed in it, or that does not begin with a numeral, is
no number. What follows the longest numeral has to be the suffix of a unit. The numeral by itself is a double, the value
of the length; and the reference plays no part but in the points that a length comes to. -/
theorem resolve_of_grammar (raw : String) :
    ('\n' ∈ tokenOf raw ∨ (∀ number, number <+: tokenOf raw → number ∉ Grammar.numeral.matches') →
      ∀ reference, resolve raw reference = .error (.notANumber (Text.trim raw))) ∧
    (∀ number suffix, '\n' ∉ tokenOf raw → Grammar.Splits (tokenOf raw) number suffix →
      ∃ value, Cli.readFloat? number = some value ∧
        ((∀ unit, (String.ofList suffix, unit) ∉ LengthUnit.suffixes) →
          ∀ reference, resolve raw reference = .error (.unknownUnit (String.ofList suffix))) ∧
        ∀ unit, (String.ofList suffix, unit) ∈ LengthUnit.suffixes →
          ∀ reference, resolve raw reference = .ok (unit.toPoints value reference)) ∧
    ∀ first second, (resolve raw first).map (fun _ => ()) = (resolve raw second).map fun _ => () := by
  refine ⟨?_, ?_, ?_⟩
  · intro h reference
    rw [resolve, read_eq_notANumber (h.imp_right Numeral.read?_eq_none)]
    rfl
  · intro number suffix hfeed hsplits
    obtain ⟨n, hread, halone⟩ := Numeral.read?_of_splits hsplits
    refine ⟨n.toFloat, by rw [Cli.readFloat?, halone], ?_, ?_⟩
    · intro hunit reference
      have hnone : LengthUnit.ofSuffix? (String.ofList suffix) = none :=
        Option.eq_none_iff_forall_ne_some.2 fun unit h => hunit unit (LengthUnit.ofSuffix?_eq_some_iff.1 h)
      rw [resolve, read_eq_of_read? hfeed hread, hnone]
      rfl
    · intro unit hunit reference
      rw [resolve, read_eq_of_read? hfeed hread, LengthUnit.ofSuffix?_eq_some_iff.2 hunit]
      rfl
  · intro first second
    simp only [resolve]
    cases read raw <;> simp only [Except.map]

/-- A point without digits after it and an exponent: the numeral goes on to the last digit. -/
theorem resolve_of_grammar_pointed :
    Grammar.Splits "1.e3in".toList "1.e3".toList "in".toList ∧
      ∃ value, Cli.readFloat? "1.e3".toList = some value ∧
        ∀ reference, resolve " 1.e3in" reference = .ok (LengthUnit.inch.toPoints value reference) := by
  have hsplits : Grammar.Splits "1.e3in".toList "1.e3".toList "in".toList := by
    refine ⟨rfl, by decide +kernel, ?_⟩
    have hall : ∀ other ∈ "1.e3in".toList.inits,
        other ∈ Grammar.numeral.matches' → other.length ≤ "1.e3".toList.length := by decide +kernel
    intro other hother
    exact hall other ((List.mem_inits _ _).2 hother)
  have htoken : tokenOf " 1.e3in" = "1.e3in".toList := by decide +kernel
  have hlengths := (resolve_of_grammar " 1.e3in").2.1 "1.e3".toList "in".toList
  rw [htoken] at hlengths
  obtain ⟨value, hvalue, -, hunits⟩ := hlengths (by decide) hsplits
  exact ⟨hsplits, value, hvalue, hunits .inch (by decide)⟩

end Length

end SvgPlot
