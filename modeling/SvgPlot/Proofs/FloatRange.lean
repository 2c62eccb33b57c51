import Mathlib
import SvgPlot.Decimal.Binary
import SvgPlot.Decimal.Numeral

/-!
# The range of doubles

Which operations on doubles keep to finite numbers, or at least to numbers.

* `Fits n f` bounds an unpacked double by `2 ^ n`. Rounding keeps the bound (`fits_roundWithAccuracy`): what is dropped
  from the mantissa is made up for by one place at most, and only where there is room for it (`HasRoom`). Packing keeps
  it as long as `2 ^ n` is a double (`fits_unpack_pack`).
* `Binary.IsWithin n` is the same bound on what a double stands for (`fits_of_isWithin`).
* A product, quotient or difference is a number, if its operands are and it is none of the forms that have no value
  (`isNaN_mul`, `isNaN_div`, `isNaN_sub`).
-/

namespace SvgPlot.Decimal

open Float.Model (Format UnpackedFloat totalExponent)
open Float.Model.UnpackedFloat

/-! ## Rounding -/

/-- A mantissa of at most `d` places, after the rounding that is still to come. -/
structure HasRoom (d : Nat) (em : ExtendedMantissa) : Prop where
  mantissa : em.mantissa ≤ 2 ^ d
  inexact : em.roundBit = true ∨ em.stickyBit = true → em.mantissa < 2 ^ d

theorem hasRoom_shiftRightOne {d : Nat} {em : ExtendedMantissa} (h : HasRoom (d + 1) em) :
    HasRoom d em.shiftRightOne := by
  obtain ⟨hmantissa, hinexact⟩ := h
  rw [Nat.pow_succ] at hmantissa hinexact
  refine ⟨show em.mantissa / 2 ≤ 2 ^ d by omega, ?_⟩
  rintro (hround | hsticky)
  · have hodd : em.mantissa % 2 ≠ 0 := by simpa [ExtendedMantissa.shiftRightOne] using hround
    show em.mantissa / 2 < 2 ^ d
    omega
  · have hless := hinexact (by simpa [ExtendedMantissa.shiftRightOne] using hsticky)
    show em.mantissa / 2 < 2 ^ d
    omega

theorem hasRoom_shiftRight {d : Nat} (count : Nat) {em : ExtendedMantissa} (h : HasRoom (d + count) em) :
    HasRoom d (em >>> count) := by
  induction count generalizing d with
  | zero => exact h
  | succ count ih =>
    have hinner : HasRoom (d + 1) (em >>> count) := ih (by rwa [Nat.add_assoc, Nat.add_comm 1])
    exact hasRoom_shiftRightOne hinner

theorem roundedMantissa_le {d : Nat} {em : ExtendedMantissa} (h : HasRoom d em) : em.roundedMantissa ≤ 2 ^ d := by
  obtain ⟨mantissa, roundBit, stickyBit⟩ := em
  obtain ⟨hmantissa, hinexact⟩ := h
  simp only at hmantissa hinexact
  cases roundBit <;> cases stickyBit <;>
    simp only [ExtendedMantissa.roundedMantissa, ExtendedMantissa.accuracy, Accuracy.roundToNearestEven]
  · exact hmantissa
  · exact hmantissa
  · have := hinexact (.inl rfl)
    omega
  · exact hinexact (.inl rfl)

theorem hasRoom_exact {d m : Nat} (h : m ≤ 2 ^ d) : HasRoom d (.ofMantissaAndAccuracy m .exact) :=
  ⟨h, by rintro (h | h) <;> cases h⟩

theorem mantissa_ofMantissaAndAccuracy (m : Nat) (accuracy : Accuracy) :
    (ExtendedMantissa.ofMantissaAndAccuracy m accuracy).mantissa = m := by
  unfold ExtendedMantissa.ofMantissaAndAccuracy
  split <;> rfl

theorem hasRoom_of_lt {d m : Nat} (accuracy : Accuracy) (h : m < 2 ^ d) :
    HasRoom d (.ofMantissaAndAccuracy m accuracy) := by
  refine ⟨?_, fun _ => ?_⟩
  · rw [mantissa_ofMantissaAndAccuracy]
    exact Nat.le_of_lt h
  · rwa [mantissa_ofMantissaAndAccuracy]

/-- What is left over makes a quotient less than its bound. -/
theorem hasRoom_quotient {d num den : Nat} (hden : 0 < den) (h : num ≤ 2 ^ d * den) :
    HasRoom d (.ofMantissaAndAccuracy (num / den) (accuracyOfFraction (num % den) den)) := by
  unfold accuracyOfFraction
  split
  · exact hasRoom_exact (Nat.div_le_of_le_mul (by rwa [Nat.mul_comm]))
  · rename_i hremainder
    apply hasRoom_of_lt
    rw [Nat.div_lt_iff_lt_mul hden]
    refine Nat.lt_of_le_of_ne h fun heq => hremainder ?_
    rw [heq, Nat.mul_mod_left]

/-- An unpacked double is finite and at most `2 ^ n` in magnitude, and its mantissa ends 52 places below that. -/
def Fits (n : Nat) : UnpackedFloat → Prop
  | .zero _ => True
  | .finite _ mantissa exponent _ => ∃ d : Nat, 52 ≤ d ∧ exponent = n - d ∧ mantissa ≤ 2 ^ d
  | _ => False

theorem Fits.isFinite {n : Nat} {f : UnpackedFloat} (h : Fits n f) : f.isFinite = true := by
  cases f with
  | zero => rfl
  | finite => rfl
  | infinity => exact h.elim
  | notANumber => exact h.elim

/-- A number below a power of two has no more places than that. -/
theorem totalExponent_le {n d m : Nat} (h : m ≤ 2 ^ d) : totalExponent m ((n : Int) - d) ≤ n + 1 := by
  have hlog : m.log2 ≤ d := by
    by_cases hm : m = 0
    · subst hm
      exact Nat.zero_le d
    · have hlt : m < 2 ^ (d + 1) := by
        rw [Nat.pow_succ]
        have := Nat.two_pow_pos d
        omega
      have := (Nat.log2_lt hm).2 hlt
      omega
  unfold totalExponent
  omega

theorem targetExponent_le {n : Nat} {e : Int} (h : e ≤ n + 1) : Format.binary64.targetExponent e ≤ n - 52 := by
  have hmin : Format.binary64.minExponent = -1074 := by decide
  have hbits : Format.binary64.mantissaBits = 53 := rfl
  rw [Format.targetExponent, hmin, hbits]
  omega

section

variable {n d : Nat}

/-- Shifting a mantissa to where a double has it. -/
theorem exists_shiftToTargetExponent {m : Nat} {accuracy : Accuracy} (hd : 52 ≤ d)
    (hroom : HasRoom d (.ofMantissaAndAccuracy m accuracy)) (hm : m ≤ 2 ^ d) :
    ∃ d' : Nat, 52 ≤ d' ∧ (shiftToTargetExponent Format.binary64 m ((n : Int) - d) accuracy).2 = n - d' ∧
      HasRoom d' (shiftToTargetExponent Format.binary64 m ((n : Int) - d) accuracy).1 := by
  have htarget := targetExponent_le (totalExponent_le (n := n) hm)
  rw [shiftToTargetExponent, shiftToExponent]
  generalize Format.binary64.targetExponent (totalExponent m ((n : Int) - d)) = target at htarget
  have hshift : (target - ((n : Int) - d)).toNat ≤ d - 52 := by omega
  refine ⟨d - (target - ((n : Int) - d)).toNat, by omega, ?_, ?_⟩
  · show (n : Int) - d + (target - ((n : Int) - d)).toNat = n - (d - (target - ((n : Int) - d)).toNat : Nat)
    omega
  · apply hasRoom_shiftRight
    rwa [Nat.sub_add_cancel (by omega)]

/-- Rounding keeps to a power of two. -/
theorem fits_roundWithAccuracy {m : Nat} {accuracy : Accuracy} (sign : Sign) (hd : 52 ≤ d) (hm : m ≤ 2 ^ d)
    (hroom : HasRoom d (.ofMantissaAndAccuracy m accuracy)) :
    Fits n (roundWithAccuracy Format.binary64 sign m ((n : Int) - d) accuracy) := by
  obtain ⟨d₁, hd₁, hexponent₁, hroom₁⟩ := exists_shiftToTargetExponent (n := n) hd hroom hm
  have hrounded := roundedMantissa_le hroom₁
  obtain ⟨d₂, hd₂, hexponent₂, hroom₂⟩ := exists_shiftToTargetExponent (n := n) hd₁ (hasRoom_exact hrounded) hrounded
  rw [roundWithAccuracy]
  simp only [hexponent₁]
  split
  · trivial
  · exact ⟨d₂, hd₂, hexponent₂, hroom₂.mantissa⟩

theorem fits_round (sign : Sign) {m : Nat} (hd : 52 ≤ d) (hm : m ≤ 2 ^ d) :
    Fits n (UnpackedFloat.round Format.binary64 sign m ((n : Int) - d)) := by
  rw [UnpackedFloat.round]
  generalize Format.binary64.targetExponent _ = target
  rw [decreaseExponent]
  generalize hshift : ((n : Int) - d - target).toNat = shift
  have hexponent : (n : Int) - d - shift = n - (d + shift : Nat) := by omega
  have hshifted : m <<< shift ≤ 2 ^ (d + shift) := by
    rw [Nat.shiftLeft_eq, Nat.pow_add]
    exact Nat.mul_le_mul_right _ hm
  simp only [hexponent]
  exact fits_roundWithAccuracy sign (by omega) hshifted (hasRoom_exact hshifted)

theorem fits_normalize {m : Int} (zeroSign : Sign) (hd : 52 ≤ d) (hm : m.natAbs ≤ 2 ^ d) :
    Fits n (UnpackedFloat.normalize Format.binary64 m ((n : Int) - d) zeroSign) := by
  rw [UnpackedFloat.normalize]
  split
  · exact fits_round _ hd (by omega)
  · trivial
  · exact fits_round _ hd (by omega)

end

/-! ## Packing -/

/-- The leading bit of a mantissa. -/
theorem toNat_one_append (b : BitVec 52) : (1#1 ++ b).toNat = 2 ^ 52 + b.toNat := by
  rw [BitVec.toNat_append, ← Nat.shiftLeft_add_eq_or_of_lt b.isLt]
  rfl

/-- Bits whose exponent field is below that of `2 ^ n`, or the bits of `2 ^ n` itself. -/
theorem fits_unpack {n : Nat} {b : BitVec 64} (hn : n ≤ 1023)
    (h : (@unpackExponent Format.binary64 b).toNat < n + 1023 ∨
      (@unpackExponent Format.binary64 b).toNat = n + 1023 ∧
        (@unpackMantissa Format.binary64 b).toNat = 0) :
    Fits n (unpack Format.binary64 b) := by
  have hbias : Format.binary64.exponentBias = 1023 := by decide
  have hmantissa : (@unpackMantissa Format.binary64 b).toNat < 2 ^ 52 := BitVec.isLt _
  rw [unpack]
  simp only [hbias]
  split
  · rename_i hones
    have hall : (-1#11 : BitVec 11).toNat = 2047 := by decide
    rw [hones, hall] at h
    omega
  · split
    · split
      · trivial
      · -- subnormal
        rename_i hzero _
        refine ⟨n + 1074, by omega, ?_, ?_⟩
        · rw [hzero, BitVec.toNat_zero]
          omega
        · exact Nat.le_trans (Nat.le_of_lt hmantissa) (Nat.pow_le_pow_right (by decide) (by omega))
    · have himplicit := toNat_one_append (@unpackMantissa Format.binary64 b)
      refine ⟨n + 1075 - (@unpackExponent Format.binary64 b).toNat, by omega, by omega, ?_⟩
      rw [himplicit]
      rcases h with h | ⟨h, hfraction⟩
      · have hpower : 2 ^ 53 ≤ 2 ^ (n + 1075 - (@unpackExponent Format.binary64 b).toNat) :=
          Nat.pow_le_pow_right (by decide) (by omega)
        omega
      · have hplaces : n + 1075 - (n + 1023) = 52 := by omega
        rw [h, hfraction, hplaces]
        exact Nat.le_refl _

/-- Packing keeps to a power of two that is a double. -/
theorem fits_unpack_pack {n : Nat} {f : UnpackedFloat} (h : Fits n f) (hn : n ≤ 1023) :
    Fits n (unpack Format.binary64 (pack Format.binary64 f)) := by
  cases f with
  | infinity => exact h.elim
  | notANumber => exact h.elim
  | zero sign => cases sign <;> trivial
  | finite sign m e hm =>
    obtain ⟨d, hd, rfl, hle⟩ := h
    have hbias : Format.binary64.exponentBias = 1023 := by decide
    have hbits : Format.binary64.mantissaBits = 53 := rfl
    apply fits_unpack hn
    rw [pack]
    simp only [hbias, hbits]
    rw [if_neg (by omega)]
    split
    · rename_i hlog
      rw [unpackExponent_packComponents, unpackMantissa_packComponents, BitVec.toNat_ofNat, BitVec.toNat_ofNat,
        Nat.mod_eq_of_lt (by omega)]
      by_cases hlast : d = 52
      · have hpower := (Nat.log2_eq_iff (Nat.ne_of_gt hm)).1 (show m.log2 = 52 by omega)
        rw [hlast] at hle
        have hm : m = 2 ^ 52 := by omega
        exact .inr ⟨by omega, by rw [hm, Nat.mod_self]⟩
      · exact .inl (by omega)
    · rw [unpackExponent_packComponents, unpackMantissa_packComponents]
      exact .inl (by simp)

/-! ## Operations

An operation on doubles unpacks its operands and packs its result. -/

section

variable (x y : Float)

theorem unpack_mul : (x * y).toModel.unpack =
    unpack Format.binary64 (pack Format.binary64 (mul Format.binary64 x.toModel.unpack y.toModel.unpack)) := rfl

theorem unpack_div : (x / y).toModel.unpack =
    unpack Format.binary64 (pack Format.binary64 (div Format.binary64 x.toModel.unpack y.toModel.unpack)) := rfl

theorem unpack_sub : (x - y).toModel.unpack =
    unpack Format.binary64 (pack Format.binary64 (sub Format.binary64 x.toModel.unpack y.toModel.unpack)) := rfl

theorem unpack_neg : (-x).toModel.unpack =
    unpack Format.binary64 (pack Format.binary64 x.toModel.unpack.neg) := rfl

theorem isNaN_eq : x.isNaN = x.toModel.unpack.isNaN := rfl

theorem isFinite_eq : x.isFinite = x.toModel.unpack.isFinite := rfl

end

/-! ## Operations within a power of two -/

/-- A double that is finite and at most `2 ^ n` in magnitude. -/
def Binary.IsWithin (n : Nat) : Binary → Prop
  | .finite _ mantissa exponent => mantissa * (powerOfTwo exponent).1 ≤ 2 ^ n * (powerOfTwo exponent).2
  | _ => False

instance (n : Nat) (b : Binary) : Decidable (b.IsWithin n) := by
  cases b <;> unfold Binary.IsWithin <;> infer_instance

section

variable {n k : Nat} {x y : Float}

theorem toNat_unpackExponent (b : BitVec 64) :
    (@unpackExponent Format.binary64 b).toNat = b.toNat / 2 ^ 52 % 2 ^ 11 := by
  rw [unpackExponent, BitVec.toNat_cast, BitVec.extractLsb_toNat, Nat.shiftRight_eq_div_pow]
  rfl

theorem toNat_unpackMantissa (b : BitVec 64) : (@unpackMantissa Format.binary64 b).toNat = b.toNat % 2 ^ 52 := by
  rw [unpackMantissa, BitVec.toNat_cast, BitVec.extractLsb_toNat, Nat.shiftRight_eq_div_pow, Nat.pow_zero, Nat.div_one]
  rfl

/-- A mantissa with its leading bit, at most `2 ^ n` when it is scaled. -/
theorem place_of_scaled_le {m : Nat} {q : Int} (hlow : 2 ^ 52 ≤ m)
    (h : m * (powerOfTwo q).1 ≤ 2 ^ n * (powerOfTwo q).2) : q + 52 < n ∨ q + 52 = n ∧ m = 2 ^ 52 := by
  have hscaled : m * 2 ^ q.toNat ≤ 2 ^ (n + (-q).toNat) := by
    rw [Nat.pow_add]
    exact h
  have hplaces : 52 + q.toNat ≤ n + (-q).toNat := by
    apply (Nat.pow_le_pow_iff_right (a := 2) (by decide)).1
    rw [Nat.pow_add 2 52]
    exact Nat.le_trans (Nat.mul_le_mul_right _ hlow) hscaled
  by_cases hlast : 52 + q.toNat = n + (-q).toNat
  · rw [← hlast, Nat.pow_add] at hscaled
    have hle : m ≤ 2 ^ 52 := Nat.le_of_mul_le_mul_right hscaled (Nat.two_pow_pos _)
    exact .inr ⟨by omega, Nat.le_antisymm hle hlow⟩
  · exact .inl (by omega)

theorem fits_of_isWithin (hn : n ≤ 1023) (h : (Binary.ofFloat x).IsWithin n) : Fits n x.toModel.unpack := by
  have hbits : x.toBits.toNat = x.toModel.toBits.toBitVec.toNat := rfl
  apply fits_unpack hn
  rw [toNat_unpackExponent, toNat_unpackMantissa, ← hbits]
  have hlead : leadingBit = 2 ^ 52 := rfl
  rw [Binary.ofFloat, hlead] at h
  have hfields : (2 : Nat) ^ 11 = 0x800 := rfl
  rw [hfields]
  generalize x.toBits.toNat / 2 ^ 52 % 0x800 = field at h
  generalize x.toBits.toNat % 2 ^ 52 = fraction at h
  split at h
  · split at h <;> exact h.elim
  · split at h
    · rename_i hzero
      have hzero : field = 0 := by simpa using hzero
      exact .inl (by omega)
    · have hplace := place_of_scaled_le (Nat.le_add_left ..) h
      omega

theorem Fits.mono {f : UnpackedFloat} (h : Fits n f) (hle : n ≤ k) : Fits k f := by
  cases f with
  | infinity => exact h
  | notANumber => exact h
  | zero => trivial
  | finite sign m e hm =>
    obtain ⟨d, hd, rfl, hm⟩ := h
    exact ⟨d + (k - n), by omega, by omega, Nat.le_trans hm (Nat.pow_le_pow_right (by decide) (by omega))⟩

theorem fits_mul (hx : Fits n x.toModel.unpack) (hy : Fits k y.toModel.unpack) (h : n + k ≤ 1023) :
    Fits (n + k) (x * y).toModel.unpack := by
  rw [unpack_mul]
  refine fits_unpack_pack ?_ h
  generalize x.toModel.unpack = f at hx
  generalize y.toModel.unpack = g at hy
  cases f with
  | infinity => exact hx.elim
  | notANumber => exact hx.elim
  | zero => cases g <;> trivial
  | finite s₁ m₁ e₁ h₁ =>
    cases g with
    | infinity => exact hy.elim
    | notANumber => exact hy.elim
    | zero => trivial
    | finite s₂ m₂ e₂ h₂ =>
      obtain ⟨d₁, hd₁, rfl, hm₁⟩ := hx
      obtain ⟨d₂, hd₂, rfl, hm₂⟩ := hy
      have hproduct : m₁ * m₂ ≤ 2 ^ (d₁ + d₂) := by
        rw [Nat.pow_add]
        exact Nat.mul_le_mul hm₁ hm₂
      have hexponent : (n : Int) - d₁ + (k - d₂) = (n + k : Nat) - (d₁ + d₂ : Nat) := by omega
      rw [mul, hexponent]
      exact fits_roundWithAccuracy _ (by omega) hproduct (hasRoom_exact hproduct)

/-- A double that is one at least in magnitude, with digits behind the point to spare. -/
def IsDivisor (y : Float) : Prop :=
  ∃ sign m, ∃ places : Nat, ∃ hm, y.toModel.unpack = .finite sign m (-places) hm ∧ 2 ^ places ≤ m

theorem fits_div (hx : Fits n x.toModel.unpack) (hy : IsDivisor y) (h : n ≤ 1023) :
    Fits n (x / y).toModel.unpack := by
  obtain ⟨sign, m, places, hm, hy, hone⟩ := hy
  rw [unpack_div, hy]
  refine fits_unpack_pack ?_ h
  generalize x.toModel.unpack = f at hx
  cases f with
  | infinity => exact hx.elim
  | notANumber => exact hx.elim
  | zero => trivial
  | finite s₁ m₁ e₁ h₁ =>
    obtain ⟨d₁, hd₁, rfl, hm₁⟩ := hx
    have hlog : places ≤ m.log2 := (Nat.le_log2 (Nat.ne_of_gt hm)).2 hone
    have htotal : totalExponent m₁ ((n : Int) - d₁) - totalExponent m (-places) ≤ n + 1 := by
      have hfirst := totalExponent_le (n := n) hm₁
      have hsecond : totalExponent m (-places) = m.log2 + 1 + -places := rfl
      omega
    have htarget := targetExponent_le htotal
    simp only [div, divCore]
    generalize Format.binary64.targetExponent _ = target at htarget
    generalize hlowest : min ((n : Int) - d₁ - -places) target = lowest
    obtain ⟨d, hd⟩ : ∃ d : Nat, lowest = n - d := ⟨((n : Int) - lowest).toNat, by omega⟩
    subst hd
    generalize hshift : ((n : Int) - d₁ - -places - (n - d)).toNat = shift
    have hplaces : d₁ + shift = d + places := by omega
    have hscaled : m₁ <<< shift ≤ 2 ^ d * m := by
      rw [Nat.shiftLeft_eq]
      calc m₁ * 2 ^ shift ≤ 2 ^ d₁ * 2 ^ shift := Nat.mul_le_mul_right _ hm₁
        _ = 2 ^ d * 2 ^ places := by rw [← Nat.pow_add, hplaces, Nat.pow_add]
        _ ≤ 2 ^ d * m := Nat.mul_le_mul_left _ hone
    have hquotient : m₁ <<< shift / m ≤ 2 ^ d := Nat.div_le_of_le_mul (by rwa [Nat.mul_comm])
    exact fits_roundWithAccuracy _ (by omega) hquotient (hasRoom_quotient hm hscaled)

theorem natAbs_apply_sub_le {bound : Nat} {m₁ m₂ : Nat} (s₁ s₂ : Sign) (h₁ : m₁ ≤ bound) (h₂ : m₂ ≤ bound) :
    (s₁.apply m₁ - s₂.apply m₂).natAbs ≤ bound + bound := by
  cases s₁ <;> cases s₂ <;> simp only [Sign.apply] <;> omega

theorem fits_sub (hx : Fits n x.toModel.unpack) (hy : Fits n y.toModel.unpack) (h : n + 1 ≤ 1023) :
    Fits (n + 1) (x - y).toModel.unpack := by
  rw [unpack_sub]
  refine fits_unpack_pack ?_ h
  generalize x.toModel.unpack = f at hx
  generalize y.toModel.unpack = g at hy
  cases f with
  | infinity => exact hx.elim
  | notANumber => exact hx.elim
  | zero s₁ =>
    cases g with
    | infinity => exact hy.elim
    | notANumber => exact hy.elim
    | zero s₂ =>
      rw [sub]
      split <;> trivial
    | finite s₂ m₂ e₂ h₂ => exact hy.mono (Nat.le_succ n)
  | finite s₁ m₁ e₁ h₁ =>
    cases g with
    | infinity => exact hy.elim
    | notANumber => exact hy.elim
    | zero s₂ => exact hx.mono (Nat.le_succ n)
    | finite s₂ m₂ e₂ h₂ =>
      obtain ⟨d₁, hd₁, rfl, hm₁⟩ := hx
      obtain ⟨d₂, hd₂, rfl, hm₂⟩ := hy
      obtain ⟨d, hd⟩ : ∃ d, d = max d₁ d₂ := ⟨_, rfl⟩
      have hshifted {m places : Nat} (hm : m ≤ 2 ^ places) (hplaces : places ≤ d) :
          m <<< ((n : Int) - places - (n - d)).toNat ≤ 2 ^ d := by
        have hshift : ((n : Int) - places - (n - d)).toNat = d - places := by omega
        rw [hshift, Nat.shiftLeft_eq]
        calc m * 2 ^ (d - places) ≤ 2 ^ places * 2 ^ (d - places) := Nat.mul_le_mul_right _ hm
          _ = 2 ^ d := by rw [← Nat.pow_add, Nat.add_sub_cancel' hplaces]
      have hlowest : min ((n : Int) - d₁) (n - d₂) = n - d := by omega
      have hexponent : (n : Int) - d = (n + 1 : Nat) - (d + 1 : Nat) := by omega
      have hdifference := natAbs_apply_sub_le s₁ s₂ (hshifted hm₁ (by omega)) (hshifted hm₂ (by omega))
      simp only [sub, decreaseExponent, hlowest]
      rw [← Nat.mul_two, ← Nat.pow_succ] at hdifference
      generalize Sign.apply s₁ _ - Sign.apply s₂ _ = difference at hdifference
      rw [hexponent]
      exact fits_normalize _ (by omega) hdifference

end

/-! ## Numbers or none -/

/-- Only the largest exponent field is for what is not a number. -/
theorem isNaN_unpack {b : BitVec 64} (h : @unpackExponent Format.binary64 b ≠ -1#11) :
    (unpack Format.binary64 b).isNaN = false := by
  rw [unpack]
  simp only [if_neg h]
  split
  · split <;> rfl
  · rfl

/-- Packing neither makes a number into none nor the other way around. -/
theorem isNaN_unpack_pack (f : UnpackedFloat) :
    (unpack Format.binary64 (pack Format.binary64 f)).isNaN = f.isNaN := by
  cases f with
  | infinity sign => cases sign <;> rfl
  | notANumber => rfl
  | zero sign => cases sign <;> rfl
  | finite sign m e hm =>
    have hall : (-1#11 : BitVec 11).toNat = 2047 := by decide
    have hfields : 2 ^ Format.binary64.exponentBits = 2048 := rfl
    rw [pack]
    split
    · cases sign <;> rfl
    · rename_i hfinite
      rw [hfields] at hfinite
      split
      · apply isNaN_unpack
        rw [unpackExponent_packComponents, ne_eq, ← BitVec.toNat_inj, hall, BitVec.toNat_ofNat, hfields]
        omega
      · apply isNaN_unpack
        rw [unpackExponent_packComponents]
        decide

theorem isNaN_roundWithAccuracy (sign : Sign) (m : Nat) (e : Int) (accuracy : Accuracy) :
    (roundWithAccuracy Format.binary64 sign m e accuracy).isNaN = false := by
  simp only [roundWithAccuracy]
  split <;> rfl

theorem isNaN_normalize (m e : Int) (zeroSign : Sign) :
    (UnpackedFloat.normalize Format.binary64 m e zeroSign).isNaN = false := by
  rw [UnpackedFloat.normalize]
  split
  · exact isNaN_roundWithAccuracy ..
  · rfl
  · exact isNaN_roundWithAccuracy ..

/-- A double that is finite and not zero. -/
def IsNonzero (x : Float) : Prop := ∃ sign m e h, x.toModel.unpack = .finite sign m e h

section

variable {x y : Float}

/-- Only infinity and finite numbers with a positive sign are more than zero. -/
theorem unpack_of_pos (h : 0.0 < x) :
    x.toModel.unpack = .infinity .positive ∨ ∃ m e hm, x.toModel.unpack = .finite .positive m e hm := by
  have hzero : (0.0 : Float).toModel.unpack = .zero .positive := rfl
  have hlt : UnpackedFloat.lt (0.0 : Float).toModel.unpack x.toModel.unpack = true := of_decide_eq_true h
  rw [hzero, UnpackedFloat.lt] at hlt
  generalize x.toModel.unpack = f at hlt
  cases f with
  | infinity sign => cases sign <;> first | exact .inl rfl | cases hlt
  | notANumber => cases hlt
  | zero sign => cases hlt
  | finite sign m e hm => cases sign <;> first | exact .inr ⟨m, e, hm, rfl⟩ | cases hlt

theorem isNaN_of_pos (h : 0.0 < x) : x.isNaN = false := by
  rw [isNaN_eq]
  rcases unpack_of_pos h with hx | ⟨m, e, hm, hx⟩ <;> rw [hx] <;> rfl

theorem isNonzero_of_pos (h : 0.0 < x) (hfinite : x.isFinite = true) : IsNonzero x := by
  rw [isFinite_eq] at hfinite
  rcases unpack_of_pos h with hx | ⟨m, e, hm, hx⟩
  · rw [hx] at hfinite
    cases hfinite
  · exact ⟨.positive, m, e, hm, hx⟩

theorem isNaN_mul (hx : x.isNaN = false) (hy : IsNonzero y) : (x * y).isNaN = false := by
  rw [isNaN_eq] at hx ⊢
  obtain ⟨sign, m, e, hm, hy⟩ := hy
  rw [unpack_mul, isNaN_unpack_pack, hy]
  generalize x.toModel.unpack = f at hx
  cases f with
  | notANumber => cases hx
  | finite => exact isNaN_roundWithAccuracy ..
  | infinity => rfl
  | zero => rfl

theorem isNaN_div (hx : x.isNaN = false) (hy : IsNonzero y) : (x / y).isNaN = false := by
  rw [isNaN_eq] at hx ⊢
  obtain ⟨sign, m, e, hm, hy⟩ := hy
  rw [unpack_div, isNaN_unpack_pack, hy]
  generalize x.toModel.unpack = f at hx
  cases f with
  | notANumber => cases hx
  | finite => exact isNaN_roundWithAccuracy ..
  | infinity => rfl
  | zero => rfl

theorem isNaN_sub (hx : x.isFinite = true) (hy : y.isNaN = false) : (x - y).isNaN = false := by
  rw [isFinite_eq] at hx
  rw [isNaN_eq] at hy ⊢
  rw [unpack_sub, isNaN_unpack_pack]
  generalize x.toModel.unpack = f at hx
  generalize y.toModel.unpack = g at hy
  cases f with
  | notANumber => cases hx
  | infinity => cases hx
  | zero s₁ =>
    cases g with
    | notANumber => cases hy
    | zero s₂ =>
      rw [sub]
      split <;> rfl
    | infinity => rfl
    | finite => rfl
  | finite s₁ m₁ e₁ h₁ =>
    cases g with
    | notANumber => cases hy
    | finite => exact isNaN_normalize ..
    | infinity => rfl
    | zero => rfl

theorem isNaN_neg (hx : x.isNaN = false) : (-x).isNaN = false := by
  rw [isNaN_eq] at hx ⊢
  rw [unpack_neg, isNaN_unpack_pack]
  generalize x.toModel.unpack = f at hx
  cases f <;> first | cases hx; done | rfl

end

/-! ## Numerals -/

theorem isNaN_ofScientific_unpacked (significand : Nat) (exponent : Int) :
    (UnpackedFloat.ofScientific Format.binary64 significand exponent).isNaN = false := by
  rw [UnpackedFloat.ofScientific]
  split
  · rfl
  · split
    · rfl
    · split
      · rfl
      · split
        · exact isNaN_roundWithAccuracy ..
        · exact isNaN_roundWithAccuracy ..

theorem isNaN_ofScientific (significand : Nat) (negative : Bool) (exponent : Nat) :
    (Float.ofScientific significand negative exponent).isNaN = false := by
  rw [Float.ofScientific]
  split
  · rename_i h
    have hpowers : ∀ e, (he : e < Float.exactlyRepresentablePowersOfTen.size) →
        0.0 < Float.exactlyRepresentablePowersOfTen[e] ∧
          Float.exactlyRepresentablePowersOfTen[e].isFinite = true := by decide +kernel
    obtain ⟨hpositive, hfinite⟩ := hpowers exponent (show exponent < 23 by omega)
    have hnonzero := isNonzero_of_pos hpositive hfinite
    have hwhole : significand.toUInt64.toFloat.isNaN = false := by
      show (unpack Format.binary64 (pack Format.binary64 (ofUInt64 _ significand.toUInt64))).isNaN = false
      rw [isNaN_unpack_pack]
      exact isNaN_normalize ..
    split
    · exact isNaN_div hwhole hnonzero
    · exact isNaN_mul hwhole hnonzero
  · show (unpack Format.binary64 (pack Format.binary64 (UnpackedFloat.ofScientific _ significand _))).isNaN = false
    rw [isNaN_unpack_pack]
    exact isNaN_ofScientific_unpacked ..

theorem isNaN_nearest (significand : Nat) (scale : Int) : (nearest significand scale).isNaN = false := by
  rw [nearest]
  split
  · decide
  · exact isNaN_ofScientific ..

/-- A numeral stands for a number, or for infinity. -/
theorem Numeral.isNaN_toFloat (n : Numeral) : n.toFloat.isNaN = false := by
  rw [toFloat]
  split
  · exact isNaN_neg (isNaN_nearest ..)
  · exact isNaN_nearest ..

end SvgPlot.Decimal
