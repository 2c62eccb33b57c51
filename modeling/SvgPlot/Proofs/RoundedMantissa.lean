import SvgPlot.Proofs.FloatRange

/-!
# Rounding a mantissa

Rounding shifts a mantissa to where a double has it and rounds off what is behind. Here is what that comes to in
rational numbers.

* `IsRounded w n` says that `n` is the whole number nearest to `w`, the even one of two.
* `Tells em w` says what a mantissa and the two bits behind it keep of a number. Shifting keeps it
  (`Tells.shiftRight`), and the rounded mantissa is the nearest whole number (`Tells.isRounded`).
* `IsLastPlace t v` says that the last digit of `v` as a double is at place `t`. There the rounded mantissa goes
  (`exists_roundWithAccuracy_eq`), and it has the form that the mantissas of doubles have (`IsCanonical`).
-/

namespace SvgPlot.Decimal

open Float.Model (Format UnpackedFloat totalExponent)
open Float.Model.UnpackedFloat

/-! ## Whole numbers next to a number -/

/-- The whole number nearest to `w`, the even one of two. -/
structure IsRounded (w : ℚ) (n : Nat) : Prop where
  near : |n - w| ≤ 1 / 2
  even : |n - w| = 1 / 2 → n % 2 = 0

section

variable {w : ℚ} {n k : Nat}

theorem isRounded_of_lt (h : |n - w| < 1 / 2) : IsRounded w n := ⟨le_of_lt h, fun heq => absurd heq (ne_of_lt h)⟩

theorem isRounded_natCast (n : Nat) : IsRounded n n := by
  apply isRounded_of_lt
  norm_num

theorem IsRounded.le_of_lt (h : IsRounded w n) (hw : w < k) : n ≤ k := by
  have hnear := abs_le.1 h.near
  have hless : (n : ℚ) < k + 1 := by linarith [hnear.2]
  have hless : n < k + 1 := by exact_mod_cast hless
  omega

theorem IsRounded.le_of_le (h : IsRounded w n) (hw : k ≤ w) : k ≤ n := by
  have hnear := abs_le.1 h.near
  have hless : (k : ℚ) < n + 1 := by linarith [hnear.1]
  have hless : k < n + 1 := by exact_mod_cast hless
  omega

/-- Only numbers from half a unit before an even one on are rounded to it. -/
theorem IsRounded.lt_iff (h : IsRounded w n) (hk : k % 2 = 0) : n < k ↔ w < k - 1 / 2 := by
  have hnear := abs_le.1 h.near
  constructor
  · intro hless
    have hcast : (n : ℚ) + 1 ≤ k := by exact_mod_cast hless
    apply lt_of_le_of_ne (by linarith)
    intro heq
    have hn : (n : ℚ) + 1 = k := by linarith
    have heven := h.even (by rw [heq, ← hn, abs_eq (by norm_num)]; right; ring)
    have hn : n + 1 = k := by exact_mod_cast hn
    omega
  · intro hless
    have hcast : (n : ℚ) < k := by linarith
    exact_mod_cast hcast

end

/-! ## What an extended mantissa says -/

/-- The mantissa is the whole part of `w`, and the two bits tell how the rest of it compares to a half. -/
def Tells (em : ExtendedMantissa) (w : ℚ) : Prop :=
  ∃ rest : ℚ, w = em.mantissa + (if em.roundBit then 1 / 2 else 0) + rest ∧
    if em.stickyBit then 0 < rest ∧ rest < 1 / 2 else rest = 0

theorem tells_exact (m : Nat) : Tells (.ofMantissaAndAccuracy m .exact) m :=
  ⟨0, by simp [ExtendedMantissa.ofMantissaAndAccuracy], rfl⟩

/-- The remainder of a division tells how its quotient goes on. -/
theorem tells_quotient (num : Nat) {den : Nat} (hden : 0 < den) :
    Tells (.ofMantissaAndAccuracy (num / den) (accuracyOfFraction (num % den) den)) (num / den) := by
  have hpos : (0 : ℚ) < den := by exact_mod_cast hden
  have hquotient : (num : ℚ) / den = (num / den : Nat) + (num % den : Nat) / den := by
    rw [div_eq_iff (ne_of_gt hpos), add_mul, div_mul_cancel₀ _ (ne_of_gt hpos)]
    exact_mod_cast (Nat.div_add_mod' num den).symm
  have hless := Nat.mod_lt num hden
  rw [hquotient]
  generalize num % den = rest at hless
  unfold accuracyOfFraction
  split
  · rename_i hzero
    rw [hzero, Nat.cast_zero, zero_div, add_zero]
    exact tells_exact _
  · rename_i hzero
    have hrest : (0 : ℚ) < rest := by exact_mod_cast Nat.pos_of_ne_zero hzero
    cases hcompare : compare (2 * rest) den with
    | lt =>
      have hlt : (2 * rest : ℚ) < den := by exact_mod_cast Nat.compare_eq_lt.1 hcompare
      refine ⟨rest / den, by simp [ExtendedMantissa.ofMantissaAndAccuracy], ?_⟩
      exact ⟨by positivity, by rw [div_lt_iff₀ hpos]; linarith⟩
    | eq =>
      have heq : (2 * rest : ℚ) = den := by exact_mod_cast Nat.compare_eq_eq.1 hcompare
      have hhalf : (rest : ℚ) / den = 1 / 2 := by
        rw [div_eq_iff (ne_of_gt hpos)]
        linarith
      exact ⟨0, by simp [ExtendedMantissa.ofMantissaAndAccuracy, hhalf], rfl⟩
    | gt =>
      have hgt : (den : ℚ) < 2 * rest := by exact_mod_cast Nat.compare_eq_gt.1 hcompare
      have hrestless : (rest : ℚ) < den := by exact_mod_cast hless
      refine ⟨rest / den - 1 / 2, by simp [ExtendedMantissa.ofMantissaAndAccuracy], ?_, ?_⟩
      · rw [sub_pos, lt_div_iff₀ hpos]
        linarith
      · rw [sub_lt_iff_lt_add, div_lt_iff₀ hpos]
        linarith

theorem Tells.le {em : ExtendedMantissa} {w : ℚ} (h : Tells em w) : em.mantissa ≤ w := by
  obtain ⟨rest, rfl, hrest⟩ := h
  split at hrest <;> split <;> linarith

theorem Tells.lt {em : ExtendedMantissa} {w : ℚ} (h : Tells em w) : w < em.mantissa + 1 := by
  obtain ⟨rest, rfl, hrest⟩ := h
  split at hrest <;> split <;> linarith

theorem Tells.shiftRightOne {em : ExtendedMantissa} {w : ℚ} (h : Tells em w) : Tells em.shiftRightOne (w / 2) := by
  obtain ⟨rest, rfl, hrest⟩ := h
  have hhalves : (em.mantissa : ℚ) = 2 * (em.mantissa / 2 : Nat) + (em.mantissa % 2 : Nat) := by
    exact_mod_cast (Nat.div_add_mod em.mantissa 2).symm
  refine ⟨(if em.roundBit then 1 / 4 else 0) + rest / 2, ?_, ?_⟩
  · show _ = ((em.mantissa / 2 : Nat) : ℚ) + (if em.mantissa % 2 != 0 then 1 / 2 else 0) + _
    rw [hhalves]
    rcases Nat.mod_two_eq_zero_or_one em.mantissa with hmod | hmod <;> rw [hmod] <;>
      cases em.roundBit <;> simp <;> ring
  · show if (em.roundBit || em.stickyBit) = true then _ else _
    cases hround : em.roundBit <;> cases hsticky : em.stickyBit <;> simp [hsticky] at hrest ⊢
    · exact hrest
    · constructor <;> linarith
    · rw [hrest]
      norm_num
    · constructor <;> linarith

theorem Tells.shiftRight {em : ExtendedMantissa} {w : ℚ} (h : Tells em w) (count : Nat) :
    Tells (em >>> count) (w / 2 ^ count) := by
  induction count with
  | zero => rwa [pow_zero, div_one]
  | succ count ih =>
    rw [pow_succ, ← div_div]
    exact ih.shiftRightOne

theorem Tells.isRounded {em : ExtendedMantissa} {w : ℚ} (h : Tells em w) : IsRounded w em.roundedMantissa := by
  obtain ⟨mantissa, roundBit, stickyBit⟩ := em
  obtain ⟨rest, rfl, hrest⟩ := h
  cases roundBit <;> cases stickyBit <;>
    simp only [ExtendedMantissa.roundedMantissa, ExtendedMantissa.accuracy, Accuracy.roundToNearestEven,
      if_true, if_false, Bool.false_eq_true] at hrest ⊢
  · rw [hrest, add_zero, add_zero]
    exact isRounded_natCast mantissa
  · apply isRounded_of_lt
    rw [abs_lt]
    constructor <;> linarith
  · -- halfway between two whole numbers
    refine ⟨?_, fun _ => by omega⟩
    rcases Nat.mod_two_eq_zero_or_one mantissa with hmod | hmod <;> rw [hrest, hmod, abs_le] <;> push_cast <;>
      constructor <;> linarith
  · apply isRounded_of_lt
    rw [abs_lt]
    push_cast
    constructor <;> linarith

/-! ## Rounding to the last place -/

/-- The last place of `v` as a double: there are at most 53 places, and fewer only for the smallest doubles. -/
structure IsLastPlace (t : Int) (v : ℚ) : Prop where
  lowest : -1074 ≤ t
  lt : v < (2 ^ 53 : Nat) * 2 ^ t
  le : t = -1074 ∨ (2 ^ 52 : Nat) * 2 ^ t ≤ v

/-- Where the last place of a mantissa has to be. -/
def lastPlace (m : Nat) (e : Int) : Int := Format.binary64.targetExponent (totalExponent m e)

theorem lastPlace_eq (m : Nat) (e : Int) : lastPlace m e = max (m.log2 + e - 52) (-1074) := by
  have hmin : Format.binary64.minExponent = -1074 := by decide
  have hbits : Format.binary64.mantissaBits = 53 := rfl
  rw [lastPlace, Format.targetExponent, totalExponent, hmin, hbits]
  omega

theorem le_lastPlace {m : Nat} (e : Int) (hm : 2 ^ 52 ≤ m) : e ≤ lastPlace m e := by
  have hlog : 52 ≤ m.log2 := (Nat.le_log2 (by omega)).2 hm
  rw [lastPlace_eq]
  omega

theorem isLastPlace_lastPlace {m : Nat} {e : Int} {w : ℚ} (hle : m ≤ w) (hlt : w < m + 1) (he : e ≤ lastPlace m e) :
    IsLastPlace (lastPlace m e) (w * 2 ^ e) := by
  have hplace := lastPlace_eq m e
  have hpos : (0 : ℚ) < 2 ^ e := by positivity
  generalize lastPlace m e = t at *
  refine ⟨by omega, ?_, ?_⟩
  · have hupper : (m : ℚ) + 1 ≤ 2 ^ (m.log2 + 1) := by exact_mod_cast Nat.lt_log2_self
    calc w * 2 ^ e < 2 ^ (m.log2 + 1) * 2 ^ e := mul_lt_mul_of_pos_right (by linarith) hpos
      _ = 2 ^ ((m.log2 + 1 : Nat) + e) := by rw [zpow_add₀ (by norm_num), zpow_natCast]
      _ ≤ 2 ^ ((53 : Nat) + t) := zpow_le_zpow_right₀ (by norm_num) (by omega)
      _ = (2 ^ 53 : Nat) * 2 ^ t := by rw [zpow_add₀ (by norm_num), zpow_natCast, Nat.cast_pow, Nat.cast_ofNat]
  · by_cases ht : t = -1074
    · exact .inl ht
    · right
      have hm : m ≠ 0 := by
        intro hm
        subst hm
        rw [Nat.log2_zero] at hplace
        omega
      have hlower : (2 : ℚ) ^ m.log2 ≤ m := by exact_mod_cast Nat.log2_self_le hm
      calc ((2 ^ 52 : Nat) : ℚ) * 2 ^ t = 2 ^ ((52 : Nat) + t) := by
            rw [zpow_add₀ (by norm_num), zpow_natCast, Nat.cast_pow, Nat.cast_ofNat]
        _ = 2 ^ m.log2 * 2 ^ e := by
            rw [← zpow_natCast, ← zpow_add₀ (by norm_num)]
            congr 1
            omega
        _ ≤ w * 2 ^ e := mul_le_mul_of_nonneg_right (by linarith) (le_of_lt hpos)

theorem shiftToTargetExponent_snd {m : Nat} {e : Int} (accuracy : Accuracy) (he : e ≤ lastPlace m e) :
    (shiftToTargetExponent Format.binary64 m e accuracy).2 = lastPlace m e := by
  show e + ((lastPlace m e - e).toNat : Int) = lastPlace m e
  omega

theorem tells_shiftToTargetExponent {m : Nat} {e : Int} {accuracy : Accuracy} {w : ℚ}
    (h : Tells (.ofMantissaAndAccuracy m accuracy) w) (he : e ≤ lastPlace m e) :
    Tells (shiftToTargetExponent Format.binary64 m e accuracy).1 (w * 2 ^ e / 2 ^ lastPlace m e) := by
  show Tells (ExtendedMantissa.ofMantissaAndAccuracy m accuracy >>> (lastPlace m e - e).toNat) _
  have hplaces : w * 2 ^ e / 2 ^ lastPlace m e = w / 2 ^ (lastPlace m e - e).toNat := by
    have hsplit : lastPlace m e = e + ((lastPlace m e - e).toNat : Int) := by omega
    rw [← zpow_natCast, div_eq_div_iff (by positivity) (by positivity), mul_assoc, ← zpow_add₀ (by norm_num),
      ← hsplit]
  rw [hplaces]
  exact h.shiftRight _

/-- Without a digit too many a mantissa stays where it is. -/
theorem shiftToTargetExponent_of_lt {m : Nat} {t : Int} (hm : m < 2 ^ 53) (ht : -1074 ≤ t) :
    shiftToTargetExponent Format.binary64 m t .exact = (⟨m, false, false⟩, t) := by
  have hlog : m.log2 ≤ 52 := by
    by_cases hzero : m = 0
    · subst hzero
      decide
    · have := (Nat.log2_lt hzero).2 hm
      omega
  have hplace := lastPlace_eq m t
  have hshift : (lastPlace m t - t).toNat = 0 := by omega
  show (ExtendedMantissa.ofMantissaAndAccuracy m .exact >>> (lastPlace m t - t).toNat,
    t + ((lastPlace m t - t).toNat : Int)) = _
  rw [hshift, Int.natCast_zero, Int.add_zero]
  rfl

/-- A mantissa that has grown by a digit is halved. -/
theorem shiftToTargetExponent_two_pow {t : Int} (ht : -1074 ≤ t) :
    shiftToTargetExponent Format.binary64 (2 ^ 53) t .exact = (⟨2 ^ 52, false, false⟩, t + 1) := by
  have hplace := lastPlace_eq (2 ^ 53) t
  rw [Nat.log2_two_pow] at hplace
  have hshift : (lastPlace (2 ^ 53) t - t).toNat = 1 := by omega
  show (ExtendedMantissa.ofMantissaAndAccuracy (2 ^ 53) .exact >>> (lastPlace (2 ^ 53) t - t).toNat,
    t + ((lastPlace (2 ^ 53) t - t).toNat : Int)) = _
  rw [hshift]
  rfl

/-- Mantissas and exponents as doubles have them. -/
structure IsCanonical (m : Nat) (q : Int) : Prop where
  lt : m < 2 ^ 53
  lowest : -1074 ≤ q
  le : 2 ^ 52 ≤ m ∨ q = -1074

/-- The unpacked double with a mantissa that may be zero. -/
def unpackedOf (sign : Sign) (m : Nat) (q : Int) : UnpackedFloat :=
  if h : m = 0 then .zero sign else .finite sign m q (Nat.pos_of_ne_zero h)

/-- Rounding shifts twice, the second time only to drop the digit that the mantissa may have grown by. -/
theorem roundWithAccuracy_eq_unpackedOf (sign : Sign) {m n n' : Nat} {e t q : Int} {accuracy : Accuracy}
    {em : ExtendedMantissa} (hfirst : shiftToTargetExponent Format.binary64 m e accuracy = (em, t))
    (hn : em.roundedMantissa = n)
    (hsecond : shiftToTargetExponent Format.binary64 n t .exact = (⟨n', false, false⟩, q)) :
    roundWithAccuracy Format.binary64 sign m e accuracy = unpackedOf sign n' q := by
  rw [roundWithAccuracy]
  simp only [hfirst, hn, hsecond]
  rfl

/-- Rounding gives a double with a whole mantissa next to the scaled number. -/
theorem exists_roundWithAccuracy_eq {m : Nat} {e : Int} {accuracy : Accuracy} {w : ℚ} (sign : Sign)
    (h : Tells (.ofMantissaAndAccuracy m accuracy) w) (he : e ≤ lastPlace m e) :
    ∃ t n m' q, IsLastPlace t (w * 2 ^ e) ∧ IsRounded (w * 2 ^ e / 2 ^ t) n ∧ IsCanonical m' q ∧
      (m' : ℚ) * 2 ^ q = n * 2 ^ t ∧ (n % 2 = 0 → m' % 2 = 0) ∧
      roundWithAccuracy Format.binary64 sign m e accuracy = unpackedOf sign m' q := by
  have hle := h.le
  have hlt := h.lt
  rw [mantissa_ofMantissaAndAccuracy] at hle hlt
  have hplace := isLastPlace_lastPlace hle hlt he
  have hrounded := (tells_shiftToTargetExponent h he).isRounded
  obtain ⟨em, hfirst⟩ : ∃ em, shiftToTargetExponent Format.binary64 m e accuracy = (em, lastPlace m e) :=
    ⟨_, Prod.ext rfl (shiftToTargetExponent_snd accuracy he)⟩
  obtain ⟨n, hn⟩ : ∃ n, em.roundedMantissa = n := ⟨_, rfl⟩
  rw [hfirst, hn] at hrounded
  generalize lastPlace m e = t at *
  have hlowest := hplace.lowest
  have hle := hrounded.le_of_lt ((div_lt_iff₀ (by positivity)).2 hplace.lt)
  -- rounding up can make one digit more than there is room for, and then all of them are zeros but the first
  by_cases hgrown : n = 2 ^ 53
  · subst hgrown
    refine ⟨t, 2 ^ 53, 2 ^ 52, t + 1, hplace, hrounded, ⟨by decide, by omega, .inl (le_refl _)⟩, ?_, fun _ => rfl, ?_⟩
    · rw [zpow_add₀ (by norm_num)]
      push_cast
      ring
    · exact roundWithAccuracy_eq_unpackedOf sign hfirst hn (shiftToTargetExponent_two_pow hlowest)
  · have hsmall : n < 2 ^ 53 := by omega
    refine ⟨t, n, n, t, hplace, hrounded, ⟨hsmall, hlowest, ?_⟩, rfl, id, ?_⟩
    · rcases hplace.le with ht | hfull
      · exact .inr ht
      · exact .inl (hrounded.le_of_le ((le_div_iff₀ (by positivity)).2 hfull))
    · exact roundWithAccuracy_eq_unpackedOf sign hfirst hn (shiftToTargetExponent_of_lt hsmall hlowest)

end SvgPlot.Decimal
