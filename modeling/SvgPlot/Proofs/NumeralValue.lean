import SvgPlot.Proofs.LengthGrammar
import SvgPlot.Proofs.NearestDouble

/-!
# Numerals stand for the nearest double

`Numeral.magnitude` is the rational number that the digits of a numeral spell, and `Numeral.isNearest_toFloat` says that
no double is nearer to it than the one that the numeral is read as. Infinity and zero stand in for what is out of range.

* A decimal is worked out in one of two ways. With few digits it is a product or quotient of whole numbers that are
  doubles, which is rounded once (`isNearest_toFloat_mul`, `isNearest_toFloat_div`). With more the exact product or
  quotient is rounded (`isNearest_ofScientific_unpacked`).
* Not all digits of a long exponent are read. As long as the other digits are fewer than tens of thousands, the number
  is out of range with those that are read and with all of them (`Numeral.isNearest_toFloat_of_long`).
* `exists_isNearest_of_splits` says it for the longest numeral that a text begins with, which is the number of a length.
-/

namespace SvgPlot

namespace Decimal

open Float.Model (Format UnpackedFloat totalExponent)
open Float.Model.UnpackedFloat

/-! ## Decimals out of range -/

theorem ten_zpow_toNat {n : Int} (h : 0 ≤ n) : (10 : ℚ) ^ n = (10 ^ n.toNat : Nat) := by
  push_cast
  rw [← zpow_natCast, Int.toNat_of_nonneg h]

theorem two_zpow_le_ten_zpow {n : Int} (h : 0 ≤ n) : (2 : ℚ) ^ n ≤ 10 ^ n :=
  zpow_le_zpow_left₀ h (by norm_num) (by norm_num)

theorem ten_zpow_le_two_zpow {n : Int} (h : n ≤ 0) : (10 : ℚ) ^ n ≤ 2 ^ n := by
  have hinverse := inv_anti₀ (by positivity) (two_zpow_le_ten_zpow (show 0 ≤ -n by omega))
  rwa [zpow_neg, zpow_neg, inv_inv, inv_inv] at hinverse

/-- A decimal with a large exponent is out of range, if it is not zero. -/
theorem overflow_le_scaled {significand : Nat} {scale : Int} (hsignificand : 0 < significand) (hscale : 1024 ≤ scale) :
    overflow ≤ significand * 10 ^ scale := by
  have hone : (1 : ℚ) ≤ significand := by exact_mod_cast hsignificand
  apply overflow_le hscale
  calc (2 : ℚ) ^ scale ≤ 10 ^ scale := two_zpow_le_ten_zpow (by omega)
    _ ≤ significand * 10 ^ scale := le_mul_of_one_le_left (by positivity) hone

theorem two_zpow_le_scaled {k significand : Nat} {scale : Int}
    (h : Nat.pow 2 k * Nat.pow 10 (-scale).toNat ≤ significand) : (2 : ℚ) ^ (k : Int) ≤ significand * 10 ^ scale := by
  have hcast : (2 : ℚ) ^ (k : Int) * 10 ^ ((-scale).toNat : Int) ≤ significand := by
    have hpowers : 2 ^ k * 10 ^ (-scale).toNat ≤ significand := h
    rw [zpow_natCast, zpow_natCast]
    exact_mod_cast hpowers
  calc (2 : ℚ) ^ (k : Int) ≤ 2 ^ (k : Int) * 10 ^ ((-scale).toNat + scale) :=
        le_mul_of_one_le_right (by positivity) (one_le_zpow₀ (by norm_num) (by omega))
    _ = 2 ^ (k : Int) * 10 ^ ((-scale).toNat : Int) * 10 ^ scale := by rw [zpow_add₀ (by norm_num), mul_assoc]
    _ ≤ significand * 10 ^ scale := mul_le_mul_of_nonneg_right hcast (by positivity)

/-- A decimal that starts far behind the point is next to zero. -/
theorem scaled_le {significand places : Nat} {scale : Int} (hsignificand : significand ≤ 10 ^ places)
    (hscale : places + scale ≤ -1075) : (significand : ℚ) * 10 ^ scale ≤ 2 ^ (-1075 : Int) := by
  have hplaces : (significand : ℚ) ≤ 10 ^ (places : Int) := by
    rw [zpow_natCast]
    exact_mod_cast hsignificand
  calc (significand : ℚ) * 10 ^ scale ≤ 10 ^ (places : Int) * 10 ^ scale :=
        mul_le_mul_of_nonneg_right hplaces (by positivity)
    _ = 10 ^ (places + scale) := by rw [zpow_add₀ (by norm_num)]
    _ ≤ 2 ^ (places + scale) := ten_zpow_le_two_zpow (by omega)
    _ ≤ 2 ^ (-1075 : Int) := zpow_le_zpow_right₀ (by norm_num) hscale

/-! ## Exact decimals -/

section

variable (significand : Nat) {scale : Int}

theorem scaled_eq_product (h : 0 ≤ scale) : (significand * 10 ^ scale : ℚ) =
    (significand <<< 53 : Nat) * 2 ^ (-(53 : Nat) : Int) * ((10 ^ scale.toNat : Nat) * 2 ^ (0 : Int)) := by
  rw [ten_zpow_toNat h, Nat.shiftLeft_eq, zpow_neg, zpow_natCast, zpow_zero]
  push_cast
  field_simp
  norm_num

theorem scaled_eq_quotient (h : scale ≤ 0) : (significand * 10 ^ scale : ℚ) =
    significand * 2 ^ (0 : Int) / ((10 ^ (-scale).toNat : Nat) * 2 ^ (0 : Int)) := by
  rw [← ten_zpow_toNat (by omega), zpow_neg, zpow_zero, mul_one, mul_one, div_inv_eq_mul]

end

/-- The model of a decimal: a large exponent gives infinity, a small one zero, and any other a product or quotient. -/
theorem isNearest_ofScientific_unpacked (significand : Nat) (scale : Int) :
    (Binary.ofFloat (Float.ofModel (.pack (UnpackedFloat.ofScientific Format.binary64 significand scale)))).IsNearest
      false (significand * 10 ^ scale) := by
  have hbits : Format.binary64.mantissaBits = 53 := rfl
  rw [UnpackedFloat.ofScientific]
  simp only [hbits]
  split
  · rename_i hnone
    rw [ofFloat_pack_zero, hnone, Nat.cast_zero, zero_mul]
    exact isNearest_zero false (le_refl _) (by positivity)
  · rename_i hsome
    have hpos := Nat.pos_of_ne_zero hsome
    split
    · rw [ofFloat_pack_infinity]
      exact ⟨rfl, overflow_le_scaled hpos (by omega)⟩
    · split
      · have hlog : significand ≤ 10 ^ (significand.log2 + 1) :=
          Nat.le_trans (Nat.le_of_lt Nat.lt_log2_self) (Nat.pow_le_pow_left (by decide) _)
        rw [ofFloat_pack_zero]
        exact isNearest_zero false (by positivity) (scaled_le hlog (by omega))
      · split
        · rename_i hwhole
          have hdigits : 1 ≤ 10 ^ scale.toNat := Nat.one_le_pow _ _ (by decide)
          rw [scaled_eq_product significand hwhole]
          apply isNearest_mul
          rw [Nat.shiftLeft_eq]
          calc 2 ^ 52 ≤ 1 * 2 ^ 53 * 1 := by decide
            _ ≤ significand * 2 ^ 53 * 10 ^ scale.toNat := Nat.mul_le_mul (Nat.mul_le_mul_right _ hpos) hdigits
        · rw [scaled_eq_quotient significand (by omega)]
          exact isNearest_div 0 0 _ _

/-! ## Whole numbers that are doubles -/

/-- A double with all its digits that stands for a whole number. -/
def Binary.IsWhole (n : Nat) : Binary → Prop
  | .finite false m q => 2 ^ 52 ≤ m ∧ m * (powerOfTwo q).1 = n * (powerOfTwo q).2
  | _ => False

instance (n : Nat) (b : Binary) : Decidable (b.IsWhole n) := by
  unfold Binary.IsWhole
  split <;> infer_instance

theorem two_zpow_eq (q : Int) : (2 : ℚ) ^ q = ((powerOfTwo q).1 : ℚ) / (powerOfTwo q).2 := by
  show (2 : ℚ) ^ q = ((2 ^ q.toNat : Nat) : ℚ) / (2 ^ (-q).toNat : Nat)
  have hsplit : q = (q.toNat : Int) - ((-q).toNat : Int) := by omega
  rw [hsplit, zpow_sub₀ (by norm_num), ← hsplit, zpow_natCast, zpow_natCast]
  push_cast
  rfl

theorem Binary.IsWhole.exists_unpack_eq {x : Float} {n : Nat} (h : (Binary.ofFloat x).IsWhole n) :
    ∃ m q hm, x.toModel.unpack = .finite .positive m q hm ∧ 2 ^ 52 ≤ m ∧ (m : ℚ) * 2 ^ q = n := by
  rw [ofFloat_eq] at h
  generalize x.toModel.unpack = f at h
  cases f with
  | notANumber => exact h.elim
  | infinity => exact h.elim
  | zero sign =>
    cases sign with
    | negative => exact h.elim
    | positive => exact absurd h.1 (by decide)
  | finite sign m q hm =>
    cases sign with
    | negative => exact h.elim
    | positive =>
      obtain ⟨hfull, hvalue⟩ := h
      refine ⟨m, q, hm, rfl, hfull, ?_⟩
      have hpos : (0 : ℚ) < (powerOfTwo q).2 := by exact_mod_cast Nat.two_pow_pos _
      rw [two_zpow_eq, ← mul_div_assoc, div_eq_iff (ne_of_gt hpos)]
      exact_mod_cast hvalue

/-- A whole number is shifted to where it fills a mantissa. -/
theorem shiftLeft_fills {n : Nat} (hpos : 0 < n) (h : n.log2 ≤ 52) :
    2 ^ 52 ≤ n <<< (52 - n.log2) ∧ n <<< (52 - n.log2) < 2 ^ 53 := by
  obtain ⟨shift, hshift⟩ : ∃ shift, shift = 52 - n.log2 := ⟨_, rfl⟩
  have hlower : n.log2 + shift = 52 := by omega
  have hupper : n.log2 + 1 + shift = 53 := by omega
  rw [← hshift, Nat.shiftLeft_eq, ← hlower, ← hupper, Nat.pow_add, Nat.pow_add]
  constructor
  · exact Nat.mul_le_mul_right _ (Nat.log2_self_le (Nat.ne_of_gt hpos))
  · exact Nat.mul_lt_mul_of_pos_right Nat.lt_log2_self (Nat.two_pow_pos _)

/-- The whole numbers that a mantissa has room for are doubles. -/
theorem isWhole_toFloat {n : Nat} (hpos : 0 < n) (h : n < 2 ^ 53) : (Binary.ofFloat n.toUInt64.toFloat).IsWhole n := by
  have hword : n.toUInt64.toNat = n := Nat.mod_eq_of_lt (by omega)
  have hmodel : n.toUInt64.toFloat =
      Float.ofModel (.pack (UnpackedFloat.normalize Format.binary64 n.toUInt64.toNat 0 .positive)) := rfl
  have hcompare : compare (n : Int) 0 = .gt := by
    rw [Int.compare_eq_gt]
    omega
  have hlog : n.log2 < 53 := (Nat.log2_lt (Nat.ne_of_gt hpos)).2 h
  have hplace : Format.binary64.targetExponent (totalExponent n 0) = n.log2 - 52 := by
    show lastPlace n 0 = n.log2 - 52
    rw [lastPlace_eq]
    omega
  obtain ⟨hlower, hupper⟩ := shiftLeft_fills hpos (show n.log2 ≤ 52 by omega)
  obtain ⟨shift, hshift⟩ : ∃ shift : Nat, 52 - n.log2 = shift := ⟨_, rfl⟩
  have hamount : (0 - (n.log2 - 52 : Int)).toNat = shift := by omega
  rw [hshift] at hlower hupper
  have hkept := shiftToTargetExponent_of_lt hupper (show -1074 ≤ (0 - (shift : Int)) by omega)
  have hround := roundWithAccuracy_eq_unpackedOf .positive hkept rfl hkept
  rw [hmodel, hword, UnpackedFloat.normalize, hcompare]
  simp only [Int.toNat_natCast, UnpackedFloat.round, hplace, decreaseExponent, hamount, hround]
  rw [ofFloat_pack_unpackedOf .positive ⟨hupper, by omega, .inl hlower⟩, if_pos (by omega)]
  refine ⟨hlower, ?_⟩
  have hnone : (0 - (shift : Int)).toNat = 0 := by omega
  have hplaces : (-(0 - (shift : Int))).toNat = shift := by omega
  show n <<< shift * 2 ^ (0 - (shift : Int)).toNat = n * 2 ^ (-(0 - (shift : Int))).toNat
  rw [hnone, hplaces, Nat.shiftLeft_eq, Nat.pow_zero, Nat.mul_one]

theorem isWhole_powerOfTen : ∀ e, (h : e < Float.exactlyRepresentablePowersOfTen.size) →
    (Binary.ofFloat Float.exactlyRepresentablePowersOfTen[e]).IsWhole (10 ^ e) := by
  decide +kernel

theorem unpack_toFloat_zero : (0 : Nat).toUInt64.toFloat.toModel.unpack = .zero .positive := rfl

section

variable {n k : Nat} {x : Float}

/-- A product of whole numbers that are doubles is rounded once. -/
theorem isNearest_toFloat_mul (hn : n < 2 ^ 53) (hx : (Binary.ofFloat x).IsWhole k) :
    (Binary.ofFloat (n.toUInt64.toFloat * x)).IsNearest false (n * k) := by
  obtain ⟨m₂, q₂, hm₂, hunpack₂, -, hvalue₂⟩ := hx.exists_unpack_eq
  have hmodel : n.toUInt64.toFloat * x =
      Float.ofModel (.pack (mul Format.binary64 n.toUInt64.toFloat.toModel.unpack x.toModel.unpack)) := rfl
  have hsign : Sign.positive * Sign.positive = .positive := rfl
  rw [hmodel, hunpack₂]
  by_cases hzero : n = 0
  · subst hzero
    rw [unpack_toFloat_zero, mul, hsign, ofFloat_pack_zero, Nat.cast_zero, zero_mul]
    exact isNearest_zero false (le_refl _) (by positivity)
  · obtain ⟨m₁, q₁, hm₁, hunpack₁, hfull₁, hvalue₁⟩ := (isWhole_toFloat (Nat.pos_of_ne_zero hzero) hn).exists_unpack_eq
    rw [hunpack₁, ← hvalue₁, ← hvalue₂]
    exact isNearest_mul q₁ q₂ hm₁ hm₂ (Nat.le_trans hfull₁ (Nat.le_mul_of_pos_right _ hm₂))

theorem isNearest_toFloat_div (hn : n < 2 ^ 53) (hx : (Binary.ofFloat x).IsWhole k) :
    (Binary.ofFloat (n.toUInt64.toFloat / x)).IsNearest false (n / k) := by
  obtain ⟨m₂, q₂, hm₂, hunpack₂, -, hvalue₂⟩ := hx.exists_unpack_eq
  have hmodel : n.toUInt64.toFloat / x =
      Float.ofModel (.pack (div Format.binary64 n.toUInt64.toFloat.toModel.unpack x.toModel.unpack)) := rfl
  have hsign : Sign.positive / Sign.positive = .positive := rfl
  rw [hmodel, hunpack₂]
  by_cases hzero : n = 0
  · subst hzero
    rw [unpack_toFloat_zero, div, hsign, ofFloat_pack_zero, Nat.cast_zero, zero_div]
    exact isNearest_zero false (le_refl _) (by positivity)
  · obtain ⟨m₁, q₁, hm₁, hunpack₁, hfull₁, hvalue₁⟩ := (isWhole_toFloat (Nat.pos_of_ne_zero hzero) hn).exists_unpack_eq
    rw [hunpack₁, ← hvalue₁, ← hvalue₂]
    exact isNearest_div q₁ q₂ hm₁ hm₂

end

/-! ## Decimals -/

/-- Small decimals are worked out with doubles and all others with whole numbers; both ways give the nearest double. -/
theorem isNearest_ofScientific (significand : Nat) (negative : Bool) (exponent : Nat) :
    (Binary.ofFloat (Float.ofScientific significand negative exponent)).IsNearest false
      (significand * 10 ^ (if negative then -(exponent : Int) else exponent)) := by
  by_cases hsmall : significand < 2 ^ 53 ∧ exponent ≤ 22
  · have hpower := isWhole_powerOfTen exponent (show exponent < 23 by omega)
    rw [Float.ofScientific, dif_pos hsmall]
    cases negative with
    | false =>
      have hproduct := isNearest_toFloat_mul hsmall.1 hpower
      rw [Nat.cast_pow, ← zpow_natCast] at hproduct
      exact hproduct
    | true =>
      have hquotient := isNearest_toFloat_div hsmall.1 hpower
      rw [Nat.cast_pow, ← zpow_natCast, div_eq_mul_inv, ← zpow_neg] at hquotient
      exact hquotient
  · have hmodel := isNearest_ofScientific_unpacked significand (if negative then -(exponent : Int) else exponent)
    rw [Float.ofScientific, dif_neg hsmall]
    cases negative with
    | false => exact hmodel
    | true =>
      have hnegative : Int.negOfNat exponent = -(exponent : Int) := Int.negOfNat_eq
      simp only [if_true, hnegative] at hmodel ⊢
      exact hmodel

theorem isNearest_nearest (significand : Nat) (scale : Int) :
    (Binary.ofFloat (nearest significand scale)).IsNearest false (significand * 10 ^ scale) := by
  unfold nearest
  generalize hk : 1024 = k
  split
  · rename_i hlarge
    have hinfinity : Binary.ofFloat (1.0 / 0.0) = .infinite false := by decide
    rw [hinfinity]
    exact ⟨rfl, overflow_le (by omega) (two_zpow_le_scaled hlarge)⟩
  · have hscale : (if scale < 0 then -(scale.natAbs : Int) else scale.natAbs) = scale := by
      split <;> omega
    have hnearest := isNearest_ofScientific significand (scale < 0) scale.natAbs
    simp only [decide_eq_true_eq, hscale] at hnearest
    exact hnearest

/-! ## Numerals -/

/-- The power that an exponent stands for. -/
def Exponent.power (e : Exponent) : Int :=
  if e.sign == some '-' then -(digitsValue e.digits : Int) else digitsValue e.digits

/-- The power of ten that the digits of a numeral are multiplied with. -/
def Numeral.power (n : Numeral) : Int := n.exponent.elim 0 Exponent.power - ((n.fraction.getD []).length : Int)

/-- The magnitude of the number that a numeral spells. -/
def Numeral.magnitude (n : Numeral) : ℚ := digitsValue n.digits * 10 ^ n.power

/-- Whether all digits of the exponent count, or the others are too few to make up for those that do not. -/
def Numeral.CountsExponent (n : Numeral) : Prop :=
  (∀ e ∈ n.exponent, digitsValue e.digits < exponentBound) ∨ n.digits.length ≤ 64000

theorem le_digitsUpTo {bound : Nat} {digits : List Char} (h : bound ≤ digitsValue digits) :
    bound ≤ digitsUpTo bound digits := by
  suffices hfrom : ∀ number, bound ≤ number ∨ bound ≤ appendDigits number digits →
      bound ≤ digits.foldl (fun n c => if n < bound then 10 * n + digitValue c else n) number from
    hfrom 0 (.inr h)
  clear h
  induction digits with
  | nil => exact fun number h => h.elim id id
  | cons c rest ih =>
    intro number h
    rw [List.foldl_cons]
    split
    · rename_i hless
      exact ih _ (h.imp_left fun hle => by omega)
    · rename_i hmore
      exact ih _ (.inl (by omega))

theorem digitValue_le {c : Char} (h : c.isDigit = true) : digitValue c ≤ 9 := by
  simp only [Char.isDigit, Bool.and_eq_true, decide_eq_true_eq] at h
  have hhigh : c.toNat ≤ 57 := h.2
  show c.toNat - 48 ≤ 9
  omega

theorem digitsValue_lt {digits : List Char} (h : AreDigits digits) : digitsValue digits < 10 ^ digits.length := by
  induction digits using List.reverseRecOn with
  | nil => decide
  | append_singleton digits c ih =>
    have hfront := ih fun d hd => h d (List.mem_append_left _ hd)
    have hlast := digitValue_le (h c (List.mem_append_right _ (List.mem_singleton_self c)))
    have hvalue : digitsValue (digits ++ [c]) = 10 * digitsValue digits + digitValue c := by
      rw [digitsValue, appendDigits, List.foldl_append]
      rfl
    rw [hvalue, List.length_append, List.length_singleton, Nat.pow_succ]
    omega

theorem Exponent.value_eq_power {e : Exponent} (h : digitsValue e.digits < exponentBound) :
    e.value exponentBound = e.power := by
  rw [value, power, digitsUpTo_eq h]

theorem Numeral.IsWellFormed.areDigits {n : Numeral} (hn : n.IsWellFormed) : AreDigits n.digits := by
  intro c hc
  rcases List.mem_append.1 hc with hwhole | hfraction
  · exact hn.whole c hwhole
  · cases hsome : n.fraction with
    | none => rw [hsome] at hfraction; cases hfraction
    | some digits => rw [hsome] at hfraction; exact hn.fraction digits hsome c hfraction

section

variable {x : Float} {significand places : Nat} {scale scale' : Int}

/-- Large exponents are not told apart. -/
theorem isNearest_of_large_scale (h : (Binary.ofFloat x).IsNearest false (significand * 10 ^ scale))
    (hscale : 1024 ≤ scale) (hscale' : 1024 ≤ scale') :
    (Binary.ofFloat x).IsNearest false (significand * 10 ^ scale') := by
  by_cases hzero : significand = 0
  · subst hzero
    rw [Nat.cast_zero, zero_mul] at h ⊢
    exact h
  · have hpos := Nat.pos_of_ne_zero hzero
    exact h.of_overflow (overflow_le_scaled hpos hscale) (overflow_le_scaled hpos hscale')

/-- Exponents far below zero are not told apart. -/
theorem isNearest_of_small_scale (h : (Binary.ofFloat x).IsNearest false (significand * 10 ^ scale))
    (hsignificand : significand ≤ 10 ^ places) (hscale : places + scale ≤ -1075) (hscale' : places + scale' ≤ -1075) :
    (Binary.ofFloat x).IsNearest false (significand * 10 ^ scale') := by
  have hsmall := scaled_le hsignificand hscale
  have hsmall' := scaled_le hsignificand hscale'
  exact isNearest_of_small h (by positivity) hsmall (by positivity) hsmall'

end

theorem Numeral.length_fraction_le (n : Numeral) : (n.fraction.getD []).length ≤ n.digits.length := by
  rw [digits, List.length_append]
  omega

/-- The magnitude of a numeral decides, and the sign is put in front of it. -/
theorem Numeral.isNearest_toFloat_of_nearest {n : Numeral}
    (h : (Binary.ofFloat (nearest n.significand n.scale)).IsNearest false n.magnitude) :
    (Binary.ofFloat n.toFloat).IsNearest n.isNegative n.magnitude := by
  unfold toFloat
  generalize nearest n.significand n.scale = x at *
  cases n.isNegative with
  | false => exact h
  | true => exact isNearest_neg h

/-- An exponent that is not read to its end is too large to matter. -/
theorem Numeral.isNearest_toFloat_of_long {n : Numeral} {e : Exponent} (hn : n.IsWellFormed) (he : n.exponent = some e)
    (hlong : exponentBound ≤ digitsValue e.digits) (hshort : n.digits.length ≤ 64000) :
    (Binary.ofFloat n.toFloat).IsNearest n.isNegative n.magnitude := by
  have hbound : exponentBound = 65536 := rfl
  have hcount := le_digitsUpTo hlong
  have hfraction := n.length_fraction_le
  have hnearest := isNearest_nearest n.significand n.scale
  have hsignificand := Nat.le_of_lt (digitsValue_lt hn.areDigits)
  have hscale : n.scale = e.value exponentBound - ((n.fraction.getD []).length : Int) := by rw [scale, he]; rfl
  have hpower : n.power = e.power - ((n.fraction.getD []).length : Int) := by rw [power, he]; rfl
  apply isNearest_toFloat_of_nearest
  rw [magnitude]
  rw [← n.significand_eq] at hsignificand ⊢
  by_cases hsign : (e.sign == some '-') = true
  · rw [Exponent.value, if_pos hsign] at hscale
    rw [Exponent.power, if_pos hsign] at hpower
    exact isNearest_of_small_scale hnearest hsignificand (by omega) (by omega)
  · rw [Exponent.value, if_neg hsign] at hscale
    rw [Exponent.power, if_neg hsign] at hpower
    exact isNearest_of_large_scale hnearest (by omega) (by omega)

theorem Numeral.scale_eq_power {n : Numeral} (h : ∀ e ∈ n.exponent, digitsValue e.digits < exponentBound) :
    n.scale = n.power := by
  rw [scale, power]
  cases he : n.exponent with
  | none => rfl
  | some e =>
    have hvalue := Exponent.value_eq_power (h e he)
    simp only [Option.elim_some, hvalue]

/-- A numeral stands for the double nearest to the number that it spells. -/
theorem Numeral.isNearest_toFloat {n : Numeral} (hn : n.IsWellFormed) (h : n.CountsExponent) :
    (Binary.ofFloat n.toFloat).IsNearest n.isNegative n.magnitude := by
  by_cases hcounts : ∀ e ∈ n.exponent, digitsValue e.digits < exponentBound
  · apply isNearest_toFloat_of_nearest
    rw [magnitude, ← scale_eq_power hcounts, ← n.significand_eq]
    exact isNearest_nearest n.significand n.scale
  · push Not at hcounts
    obtain ⟨e, he, hlong⟩ := hcounts
    exact isNearest_toFloat_of_long hn he hlong (h.resolve_left fun hall => Nat.not_lt.2 hlong (hall e he))

/-- The longest numeral that a text begins with stands, by itself, for the double nearest to what it spells. -/
theorem exists_isNearest_of_splits {cs number rest : List Char} (h : Grammar.Splits cs number rest) :
    ∃ (n : Numeral) (x : Float), n.text = number ∧ n.IsWellFormed ∧ Cli.readFloat? number = some x ∧
      (n.CountsExponent → (Binary.ofFloat x).IsNearest n.isNegative n.magnitude) := by
  obtain ⟨n, hread, halone⟩ := Numeral.read?_of_splits h
  have hn := Numeral.isWellFormed_of_read? hread
  have htext := Numeral.text_append_of_read? halone
  rw [List.append_nil] at htext
  exact ⟨n, n.toFloat, htext, hn, by rw [Cli.readFloat?, halone], n.isNearest_toFloat hn⟩

end Decimal

end SvgPlot
