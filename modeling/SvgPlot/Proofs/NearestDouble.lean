import SvgPlot.Proofs.RoundedMantissa

/-!
# The nearest double

An operation on doubles that rounds once gives the double that is nearest to its exact result.

* `ofFloat_eq` and `ofFloat_pack_unpackedOf` say which double an unpacked one is packed into, and `magnitudes` is the
  set of the rational numbers that doubles have as magnitudes.
* `Binary.IsNearest` says of a double that none is preferred to it. Every finite double is a multiple of the last place
  or smaller than the numbers that share it (`mem_grid_of_mem_magnitudes`), so that it is enough to compare whole
  numbers. `isNearest_roundWithAccuracy` puts this together.
* `ofFloat_eq_of_isNearest` says that there is no choice: of two doubles that are equally near one is preferred.
* Products and quotients of positive doubles are examples (`isNearest_mul`, `isNearest_div`), if the product has the
  digits for it. A quotient is always worked out to enough of them.
-/

namespace SvgPlot.Decimal

open Float.Model (Format UnpackedFloat totalExponent)
open Float.Model.UnpackedFloat

/-! ## The bits of a double -/

/-- What an unpacked double stands for. -/
def Binary.ofUnpacked : UnpackedFloat → Binary
  | .notANumber => .notANumber
  | .infinity sign => .infinite (sign == .negative)
  | .zero sign => .finite (sign == .negative) 0 (-1074)
  | .finite sign m q _ => .finite (sign == .negative) m q

theorem toNat_unpackSign (b : BitVec 64) : (@unpackSign Format.binary64 b).toNat = b.toNat / 2 ^ 63 := by
  have hsmall : b.toNat / 2 ^ 63 < 2 := by
    have := b.isLt
    omega
  rw [unpackSign, BitVec.toNat_cast, BitVec.extractLsb_toNat, Nat.shiftRight_eq_div_pow]
  exact Nat.mod_eq_of_lt hsmall

theorem ofBitVec_beq_negative (b : BitVec 1) : (Sign.ofBitVec b == .negative) = (b.toNat == 1) := by
  revert b
  decide

/-- What a double with these fields stands for. -/
def Binary.ofFields (negative : Bool) (field fraction : Nat) : Binary :=
  if field = 2047 then if fraction = 0 then .infinite negative else .notANumber
  else if field = 0 then .finite negative fraction (-1074)
  else .finite negative (fraction + 2 ^ 52) ((field : Int) - 1075)

theorem ofUnpacked_unpack (b : BitVec 64) :
    Binary.ofUnpacked (unpack Format.binary64 b) =
      .ofFields (Sign.ofBitVec (@unpackSign Format.binary64 b) == .negative)
        (@unpackExponent Format.binary64 b).toNat (@unpackMantissa Format.binary64 b).toNat := by
  have hbias : Format.binary64.exponentBias = 1023 := by decide
  have hones : @unpackExponent Format.binary64 b = -1#11 ↔ (@unpackExponent Format.binary64 b).toNat = 2047 := by
    rw [← BitVec.toNat_inj]
    rfl
  have hnone : @unpackExponent Format.binary64 b = 0#11 ↔ (@unpackExponent Format.binary64 b).toNat = 0 := by
    rw [← BitVec.toNat_inj]
    rfl
  have hzero : @unpackMantissa Format.binary64 b = 0#52 ↔ (@unpackMantissa Format.binary64 b).toNat = 0 := by
    rw [← BitVec.toNat_inj]
    rfl
  simp only [unpack, Binary.ofFields, hones, hnone, hzero, hbias]
  split
  · split <;> rfl
  · split
    · rename_i hfield
      split
      · rename_i hfraction
        rw [hfraction]
        rfl
      · rw [hfield]
        rfl
    · have happend := toNat_one_append (@unpackMantissa Format.binary64 b)
      simp only [Binary.ofUnpacked]
      rw [happend, Nat.add_comm]
      rfl

theorem ofFloat_eq (x : Float) : Binary.ofFloat x = .ofUnpacked x.toModel.unpack := by
  have hbits : x.toBits.toNat = x.toModel.toBits.toBitVec.toNat := rfl
  have hunpack : x.toModel.unpack = unpack Format.binary64 x.toModel.toBits.toBitVec := rfl
  rw [hunpack, ofUnpacked_unpack, ofBitVec_beq_negative, toNat_unpackSign, toNat_unpackExponent, toNat_unpackMantissa,
    ← hbits]
  simp only [Binary.ofFloat, Binary.ofFields, beq_iff_eq]
  rfl

theorem ofUnpacked_unpack_packComponents (sign : Sign) (e : BitVec 11) (f : BitVec 52) :
    Binary.ofUnpacked (unpack Format.binary64 (packComponents Format.binary64 sign e f)) =
      .ofFields (sign == .negative) e.toNat f.toNat := by
  rw [ofUnpacked_unpack, unpackSign_packComponents, Sign.ofBitVec_toBitVec, unpackExponent_packComponents,
    unpackMantissa_packComponents]

/-- A double is made of a mantissa with a sign and an exponent, unless the exponent is too large. -/
theorem ofFloat_pack_unpackedOf {m : Nat} {q : Int} (sign : Sign) (h : IsCanonical m q) :
    Binary.ofFloat (Float.ofModel (.pack (unpackedOf sign m q))) =
      if q ≤ 971 then .finite (sign == .negative) m q else .infinite (sign == .negative) := by
  have hunpack (f : UnpackedFloat) :
      (Float.ofModel (.pack f)).toModel.unpack = unpack Format.binary64 (pack Format.binary64 f) := rfl
  have hbias : Format.binary64.exponentBias = 1023 := by decide
  have hbits : Format.binary64.mantissaBits = 53 := rfl
  obtain ⟨hlt, hlowest, hle⟩ := h
  rw [ofFloat_eq, hunpack, unpackedOf]
  split
  · rename_i hzero
    have hq : q = -1074 := by omega
    subst hzero hq
    cases sign <;> rfl
  · rename_i hpos
    rw [pack]
    simp only [hbias, hbits]
    by_cases hq : q ≤ 971
    · rw [if_neg (by omega), if_pos hq]
      obtain ⟨field, hfield⟩ : ∃ field : Nat, q + (1023 : Nat) + (52 : Nat) = field := ⟨(q + 1075).toNat, by omega⟩
      rw [hfield, Int.toNat_natCast]
      by_cases hfull : 2 ^ 52 ≤ m
      · have hlog := (Nat.log2_eq_iff hpos).2 ⟨hfull, hlt⟩
        rw [if_pos (by rw [hlog]), ofUnpacked_unpack_packComponents, BitVec.toNat_ofNat, BitVec.toNat_ofNat,
          Nat.mod_eq_of_lt (by omega), Binary.ofFields, if_neg (by omega), if_neg (by omega)]
        congr 1 <;> omega
      · have hlog := (Nat.log2_lt hpos).2 (Nat.lt_of_not_le hfull)
        rw [if_neg (by omega), ofUnpacked_unpack_packComponents, BitVec.toNat_ofNat m 52, Nat.mod_eq_of_lt (by omega),
          hle.resolve_left hfull]
        rfl
    · rw [if_pos (by omega), if_neg hq]
      cases sign <;> rfl

/-- The mantissas and exponents of doubles. -/
theorem isCanonical_of_ofFloat {x : Float} {negative : Bool} {m : Nat} {q : Int}
    (h : Binary.ofFloat x = .finite negative m q) : IsCanonical m q ∧ q ≤ 971 := by
  have hlead : leadingBit = 2 ^ 52 := rfl
  simp only [Binary.ofFloat, hlead] at h
  have hfraction : x.toBits.toNat % 2 ^ 52 < 2 ^ 52 := Nat.mod_lt _ (by decide)
  have hfield : x.toBits.toNat / 2 ^ 52 % 0x800 < 0x800 := Nat.mod_lt _ (by decide)
  generalize x.toBits.toNat % 2 ^ 52 = fraction at *
  generalize x.toBits.toNat / 2 ^ 52 % 0x800 = field at *
  split at h
  · split at h <;> cases h
  · rename_i hfinite
    have hfinite : field ≠ 2047 := by simpa using hfinite
    split at h
    · cases h
      exact ⟨⟨by omega, by omega, .inr rfl⟩, by omega⟩
    · rename_i hnormal
      have hnormal : field ≠ 0 := by simpa using hnormal
      cases h
      exact ⟨⟨by omega, by omega, .inl (by omega)⟩, by omega⟩

theorem ofFloat_pack_zero : Binary.ofFloat (Float.ofModel (.pack (.zero .positive))) = .finite false 0 (-1074) := by
  decide

theorem ofFloat_pack_infinity : Binary.ofFloat (Float.ofModel (.pack (.infinity .positive))) = .infinite false := by
  decide

/-! ## Magnitudes -/

/-- The magnitudes of the finite doubles. -/
def magnitudes : Set ℚ :=
  {r | ∃ (x : Float) (negative : Bool) (m : Nat) (q : Int), Binary.ofFloat x = .finite negative m q ∧ r = m * 2 ^ q}

theorem IsCanonical.mem_magnitudes {m : Nat} {q : Int} (h : IsCanonical m q) (hq : q ≤ 971) :
    (m : ℚ) * 2 ^ q ∈ magnitudes := by
  refine ⟨Float.ofModel (.pack (unpackedOf .positive m q)), false, m, q, ?_, rfl⟩
  rw [ofFloat_pack_unpackedOf .positive h, if_pos hq]
  rfl

theorem two_mul_zpow_le {s t : Int} (h : s < t) : 2 * (2 : ℚ) ^ s ≤ 2 ^ t := by
  rw [mul_comm, ← zpow_add_one₀ (by norm_num)]
  exact zpow_le_zpow_right₀ (by norm_num) h

/-- A finite double is on the grid of a place, or below the numbers that have their last digit there. -/
theorem mem_grid_of_mem_magnitudes {r : ℚ} (hr : r ∈ magnitudes) (t : Int) :
    (∃ k : Nat, r = k * 2 ^ t) ∨ -1074 < t ∧ r < (2 ^ 52 : Nat) * 2 ^ t := by
  obtain ⟨x, negative, m, q, hx, rfl⟩ := hr
  obtain ⟨⟨hm, hlowest, -⟩, -⟩ := isCanonical_of_ofFloat hx
  by_cases hq : t ≤ q
  · left
    refine ⟨m * 2 ^ (q - t).toNat, ?_⟩
    have hsplit : q = ((q - t).toNat : Int) + t := by omega
    push_cast
    rw [mul_assoc, ← zpow_natCast (2 : ℚ) (q - t).toNat, ← zpow_add₀ (by norm_num), ← hsplit]
  · right
    refine ⟨by omega, ?_⟩
    have hm : (m : ℚ) < (2 ^ 53 : Nat) := by exact_mod_cast hm
    have hpos : (0 : ℚ) < 2 ^ q := by positivity
    have hscale := two_mul_zpow_le (show q < t by omega)
    have hscaled : (m : ℚ) * 2 ^ q < (2 ^ 53 : Nat) * 2 ^ q := mul_lt_mul_of_pos_right hm hpos
    push_cast at hscaled ⊢
    linarith

/-- A magnitude has one mantissa and one exponent. -/
theorem IsCanonical.eq {m m' : Nat} {q q' : Int} (h : IsCanonical m q) (h' : IsCanonical m' q')
    (heq : (m : ℚ) * 2 ^ q = m' * 2 ^ q') : m = m' ∧ q = q' := by
  have hless {m m' : Nat} {q q' : Int} (h : IsCanonical m q) (h' : IsCanonical m' q')
      (heq : (m : ℚ) * 2 ^ q = m' * 2 ^ q') : ¬ q < q' := by
    intro hq
    have hfull : ((2 ^ 52 : Nat) : ℚ) ≤ m' := by
      have hlowest := h.lowest
      exact_mod_cast h'.le.resolve_right (by omega)
    have hm : (m : ℚ) < (2 ^ 53 : Nat) := by exact_mod_cast h.lt
    have hpos : (0 : ℚ) < 2 ^ q := by positivity
    have hscale := two_mul_zpow_le hq
    push_cast at hfull hm
    have hlow : (2 ^ 52 : ℚ) * 2 ^ q' ≤ m' * 2 ^ q' := mul_le_mul_of_nonneg_right hfull (by positivity)
    have hhigh : (m : ℚ) * 2 ^ q < 2 ^ 53 * 2 ^ q := mul_lt_mul_of_pos_right hm hpos
    linarith
  have hq : q = q' := by
    have := hless h h' heq
    have := hless h' h heq.symm
    omega
  subst hq
  have hpos : (0 : ℚ) < 2 ^ q := by positivity
  exact ⟨by exact_mod_cast mul_right_cancel₀ (ne_of_gt hpos) heq, rfl⟩

/-! ## Nearest -/

/-- A number `a` with a mantissa `m` is chosen rather than `r` to stand for `v`. Of two that are as near it is the one
with the even mantissa. -/
structure IsPreferred (v : ℚ) (m : Nat) (a r : ℚ) : Prop where
  near : |a - v| ≤ |r - v|
  even : |a - v| = |r - v| → r = a ∨ m % 2 = 0

/-- From here on a magnitude is infinite as a double: half a place past the largest finite one. -/
def overflow : ℚ := (2 ^ 53 - 1 / 2) * 2 ^ (971 : Int)

/-- What a number with this sign and magnitude is as a double: the sign stays, and the magnitude is the one that is
preferred to those of all finite doubles, or infinite. -/
def Binary.IsNearest (negative : Bool) (v : ℚ) : Binary → Prop
  | .notANumber => False
  | .infinite sign => sign = negative ∧ overflow ≤ v
  | .finite sign m q => sign = negative ∧ v < overflow ∧ ∀ r ∈ magnitudes, IsPreferred v m (m * 2 ^ q) r

/-- The whole number next to a number is preferred to all other whole numbers. -/
theorem IsRounded.isPreferred {w : ℚ} {n : Nat} (h : IsRounded w n) (k : Nat) : IsPreferred w n n k := by
  obtain ⟨hnear, heven⟩ := h
  by_cases hk : k = n
  · subst hk
    exact ⟨le_refl _, fun _ => .inl rfl⟩
  · have hgap : (1 : ℚ) ≤ |(k : ℚ) - n| := by
      have hwhole : (1 : ℤ) ≤ |(k : ℤ) - n| := Int.one_le_abs (by omega)
      exact_mod_cast hwhole
    have htriangle := abs_sub_le (k : ℚ) w n
    rw [abs_sub_comm w] at htriangle
    exact ⟨by linarith, fun heq => .inr (heven (by linarith))⟩

theorem abs_scaled_sub (n : ℚ) (t : Int) (v : ℚ) : |n * 2 ^ t - v| = |n - v / 2 ^ t| * 2 ^ t := by
  have hpos : (0 : ℚ) < 2 ^ t := by positivity
  rw [← abs_of_pos hpos, ← abs_mul, abs_of_pos hpos, sub_mul, div_mul_cancel₀ _ (ne_of_gt hpos)]

theorem IsPreferred.scaled {v a r : ℚ} {m : Nat} {t : Int} (h : IsPreferred (v / 2 ^ t) m a r) :
    IsPreferred v m (a * 2 ^ t) (r * 2 ^ t) := by
  have hpos : (0 : ℚ) < 2 ^ t := by positivity
  obtain ⟨hnear, heven⟩ := h
  constructor
  · rw [abs_scaled_sub, abs_scaled_sub]
    exact mul_le_mul_of_nonneg_right hnear (le_of_lt hpos)
  · intro hsame
    rw [abs_scaled_sub, abs_scaled_sub] at hsame
    rcases heven (mul_right_cancel₀ (ne_of_gt hpos) hsame) with rfl | heven
    · exact .inl rfl
    · exact .inr heven

section

variable {t : Int} {v : ℚ} {n : Nat}

/-- The rounded mantissa in its last place is preferred to all doubles. -/
theorem isPreferred_of_mem_magnitudes (hplace : IsLastPlace t v) (h : IsRounded (v / 2 ^ t) n) {r : ℚ}
    (hr : r ∈ magnitudes) : IsPreferred v n (n * 2 ^ t) r := by
  rcases mem_grid_of_mem_magnitudes hr t with ⟨k, rfl⟩ | ⟨hlowest, hless⟩
  · exact (h.isPreferred k).scaled
  · -- a double below is farther away than the first of its place
    have hfirst := (h.isPreferred (2 ^ 52)).scaled.near
    have hv := hplace.le.resolve_left (by omega)
    have hfar : |r - v| = v - r := by
      rw [abs_of_nonpos (by linarith)]
      ring
    rw [abs_of_nonpos (a := ((2 ^ 52 : Nat) : ℚ) * 2 ^ t - v) (by linarith)] at hfirst
    constructor
    · rw [hfar]
      linarith
    · rw [hfar]
      exact fun hsame => by linarith

/-- The rounded number shows whether the number is out of range. -/
theorem lt_overflow_iff (hplace : IsLastPlace t v) (h : IsRounded (v / 2 ^ t) n) :
    v < overflow ↔ n * 2 ^ t < (2 ^ 53 : ℚ) * 2 ^ (971 : Int) := by
  have hpos : (0 : ℚ) < 2 ^ t := by positivity
  have hlt := hplace.lt
  have hn : (n : ℚ) ≤ (2 ^ 53 : Nat) := by exact_mod_cast h.le_of_lt ((div_lt_iff₀ hpos).2 hlt)
  rw [overflow]
  -- only at the place of the largest doubles it depends on the digits
  rcases lt_trichotomy t 971 with ht | rfl | ht
  · have hscale := two_mul_zpow_le (show t < 971 from ht)
    generalize (2 : ℚ) ^ (971 : Int) = scale at hscale
    have hscaled : (n : ℚ) * 2 ^ t ≤ (2 ^ 53 : Nat) * 2 ^ t := mul_le_mul_of_nonneg_right hn (le_of_lt hpos)
    push_cast at hlt hscaled
    apply iff_of_true
    · linarith
    · linarith
  · have heven := h.lt_iff (k := 2 ^ 53) (by decide)
    have hcast : ((2 ^ 53 : Nat) : ℚ) = 2 ^ 53 := by norm_num
    rw [div_lt_iff₀ hpos, hcast] at heven
    rw [← heven, mul_lt_mul_iff_left₀ hpos, ← hcast, Nat.cast_lt]
  · have hscale := two_mul_zpow_le ht
    have hlow := hplace.le.resolve_left (by omega)
    have hfull : ((2 ^ 52 : Nat) : ℚ) ≤ n := by exact_mod_cast h.le_of_le ((le_div_iff₀ hpos).2 hlow)
    have hscaled : ((2 ^ 52 : Nat) : ℚ) * 2 ^ t ≤ n * 2 ^ t := mul_le_mul_of_nonneg_right hfull (le_of_lt hpos)
    have hpositive : (0 : ℚ) < 2 ^ (971 : Int) := by positivity
    generalize (2 : ℚ) ^ (971 : Int) = scale at *
    push_cast at hlow hscaled
    apply iff_of_false
    · linarith
    · linarith

end

theorem IsCanonical.le_iff {m : Nat} {q : Int} (h : IsCanonical m q) :
    q ≤ 971 ↔ m * 2 ^ q < (2 ^ 53 : ℚ) * 2 ^ (971 : Int) := by
  constructor
  · intro hq
    have hscale : (2 : ℚ) ^ q ≤ 2 ^ (971 : Int) := zpow_le_zpow_right₀ (by norm_num) hq
    have hpos : (0 : ℚ) < 2 ^ (971 : Int) := by positivity
    have hm : (m : ℚ) < 2 ^ 53 := by exact_mod_cast h.lt
    generalize (2 : ℚ) ^ (971 : Int) = scale at *
    calc (m : ℚ) * 2 ^ q ≤ m * scale := mul_le_mul_of_nonneg_left hscale (by positivity)
      _ < 2 ^ 53 * scale := mul_lt_mul_of_pos_right hm hpos
  · intro hless
    by_contra hq
    have hfull : (2 ^ 52 : ℚ) ≤ m := by exact_mod_cast h.le.resolve_right (by omega)
    have hscale := two_mul_zpow_le (show 971 < q by omega)
    have hmore : (2 ^ 52 : ℚ) * 2 ^ q ≤ m * 2 ^ q := mul_le_mul_of_nonneg_right hfull (by positivity)
    generalize (2 : ℚ) ^ (971 : Int) = scale at *
    linarith

/-- Rounding gives the nearest double. -/
theorem isNearest_roundWithAccuracy {m : Nat} {e : Int} {accuracy : Accuracy} {w : ℚ} (sign : Sign)
    (h : Tells (.ofMantissaAndAccuracy m accuracy) w) (he : e ≤ lastPlace m e) :
    (Binary.ofFloat (Float.ofModel (.pack (roundWithAccuracy Format.binary64 sign m e accuracy)))).IsNearest
      (sign == .negative) (w * 2 ^ e) := by
  obtain ⟨t, n, m', q, hplace, hrounded, hcanonical, hvalue, heven, hround⟩ := exists_roundWithAccuracy_eq sign h he
  have hfinite : q ≤ 971 ↔ w * 2 ^ e < overflow := by
    rw [hcanonical.le_iff, hvalue, lt_overflow_iff hplace hrounded]
  rw [hround, ofFloat_pack_unpackedOf sign hcanonical]
  split
  · rename_i hq
    refine ⟨rfl, hfinite.1 hq, fun r hr => ?_⟩
    have hpreferred := isPreferred_of_mem_magnitudes hplace hrounded hr
    rw [hvalue]
    exact ⟨hpreferred.near, fun hsame => (hpreferred.even hsame).imp_right heven⟩
  · rename_i hq
    exact ⟨rfl, not_lt.1 (mt hfinite.2 hq)⟩

/-! ## Only one is nearest -/

/-- Of two doubles that are equally near the smaller one is not preferred: the double that follows it is nearer, or that
is the other one, and has an odd mantissa. -/
theorem not_lt_of_isPreferred {m m' : Nat} {q q' : Int} {v : ℚ} (h : IsCanonical m q) (h' : IsCanonical m' q')
    (hq : q ≤ 971) (hq' : q' ≤ 971) (hall : ∀ r ∈ magnitudes, IsPreferred v m (m * 2 ^ q) r)
    (hall' : ∀ r ∈ magnitudes, IsPreferred v m' (m' * 2 ^ q') r) : ¬ (m : ℚ) * 2 ^ q < m' * 2 ^ q' := by
  intro hless
  have hmem := h.mem_magnitudes hq
  have hmem' := h'.mem_magnitudes hq'
  have hsame := le_antisymm (hall _ hmem').near (hall' _ hmem).near
  have heven := ((hall _ hmem').even hsame).resolve_left (ne_of_gt hless)
  have heven' := ((hall' _ hmem).even hsame.symm).resolve_left (ne_of_lt hless)
  have hmiddle : (m : ℚ) * 2 ^ q - v = -(m' * 2 ^ q' - v) := by
    rcases abs_eq_abs.1 hsame with heq | heq
    · linarith
    · exact heq
  have hnext : IsCanonical (m + 1) q := by
    obtain ⟨hlt, hlowest, hle⟩ := h
    exact ⟨by omega, hlowest, by omega⟩
  have hpos : (0 : ℚ) < 2 ^ q := by positivity
  rcases mem_grid_of_mem_magnitudes hmem' q with ⟨k, hk⟩ | ⟨hlowest, hbelow⟩
  · have hstep : m < k := by
      rw [hk] at hless
      exact_mod_cast lt_of_mul_lt_mul_right hless (le_of_lt hpos)
    by_cases hneighbour : k = m + 1
    · subst hneighbour
      obtain ⟨rfl, -⟩ := hnext.eq h' hk.symm
      omega
    · have hgap : (m : ℚ) + 2 ≤ k := by exact_mod_cast (show m + 2 ≤ k by omega)
      have hfar : (m + 2 : ℚ) * 2 ^ q ≤ m' * 2 ^ q' := by
        rw [hk]
        exact mul_le_mul_of_nonneg_right hgap (le_of_lt hpos)
      have hnearer := (hall _ (hnext.mem_magnitudes hq)).near
      push_cast at hnearer
      rw [abs_of_nonpos (by linarith), abs_of_nonpos (by linarith)] at hnearer
      linarith
  · have hfull : ((2 ^ 52 : Nat) : ℚ) ≤ m := by exact_mod_cast h.le.resolve_right (by omega)
    have hlow := mul_le_mul_of_nonneg_right hfull (le_of_lt hpos)
    linarith

/-- Only one double is nearest. -/
theorem ofFloat_eq_of_isNearest {x y : Float} {negative : Bool} {v : ℚ} (hx : (Binary.ofFloat x).IsNearest negative v)
    (hy : (Binary.ofFloat y).IsNearest negative v) : Binary.ofFloat x = Binary.ofFloat y := by
  cases hbx : Binary.ofFloat x with
  | notANumber => rw [hbx] at hx; exact hx.elim
  | infinite s =>
    cases hby : Binary.ofFloat y with
    | notANumber => rw [hby] at hy; exact hy.elim
    | infinite s' => rw [hbx] at hx; rw [hby] at hy; rw [hx.1, hy.1]
    | finite s' m' q' => rw [hbx] at hx; rw [hby] at hy; exact absurd hy.2.1 (not_lt.2 hx.2)
  | finite s m q =>
    cases hby : Binary.ofFloat y with
    | notANumber => rw [hby] at hy; exact hy.elim
    | infinite s' => rw [hbx] at hx; rw [hby] at hy; exact absurd hx.2.1 (not_lt.2 hy.2)
    | finite s' m' q' =>
      obtain ⟨h, hq⟩ := isCanonical_of_ofFloat hbx
      obtain ⟨h', hq'⟩ := isCanonical_of_ofFloat hby
      rw [hbx] at hx
      rw [hby] at hy
      obtain ⟨rfl, -, hall⟩ := hx
      obtain ⟨rfl, -, hall'⟩ := hy
      have hle := not_lt.1 (not_lt_of_isPreferred h' h hq' hq hall' hall)
      have hge := not_lt.1 (not_lt_of_isPreferred h h' hq hq' hall hall')
      obtain ⟨rfl, rfl⟩ := h.eq h' (le_antisymm hle hge)
      rfl

/-! ## Out of range -/

theorem overflow_le {v : ℚ} {k : Int} (hk : 1024 ≤ k) (h : 2 ^ k ≤ v) : overflow ≤ v := by
  have hscale : (2 : ℚ) ^ (53 : Int) * 2 ^ (971 : Int) ≤ v := by
    apply le_trans _ h
    rw [← zpow_add₀ (by norm_num)]
    exact zpow_le_zpow_right₀ (by norm_num) (by omega)
  have hpos : (0 : ℚ) < 2 ^ (971 : Int) := by positivity
  rw [overflow]
  generalize (2 : ℚ) ^ (971 : Int) = scale at *
  linarith

/-- A double that is nearest to a number out of range is nearest to all of them. -/
theorem Binary.IsNearest.of_overflow {b : Binary} {negative : Bool} {v v' : ℚ} (h : b.IsNearest negative v)
    (hv : overflow ≤ v) (hv' : overflow ≤ v') : b.IsNearest negative v' := by
  cases b with
  | notANumber => exact h
  | infinite sign => exact ⟨h.1, hv'⟩
  | finite sign m q => exact absurd h.2.1 (not_lt.2 hv)

theorem eq_zero_or_le_of_mem_magnitudes {r : ℚ} (h : r ∈ magnitudes) : r = 0 ∨ 2 * (2 : ℚ) ^ (-1075 : Int) ≤ r := by
  obtain ⟨x, negative, m, q, hx, rfl⟩ := h
  obtain ⟨⟨-, hlowest, -⟩, -⟩ := isCanonical_of_ofFloat hx
  by_cases hm : m = 0
  · left
    rw [hm, Nat.cast_zero, zero_mul]
  · right
    have hone : (1 : ℚ) ≤ m := by exact_mod_cast Nat.pos_of_ne_zero hm
    have hpos : (0 : ℚ) < 2 ^ q := by positivity
    have hscale := two_mul_zpow_le (show (-1075 : Int) < q by omega)
    nlinarith

/-- Up to half the smallest double the nearest one is zero. -/
theorem isNearest_zero (negative : Bool) {v : ℚ} (hpos : 0 ≤ v) (h : v ≤ 2 ^ (-1075 : Int)) :
    (Binary.finite negative 0 (-1074)).IsNearest negative v := by
  refine ⟨rfl, ?_, fun r hr => ?_⟩
  · have hscale : (2 : ℚ) ^ (-1075 : Int) ≤ 2 ^ (971 : Int) := zpow_le_zpow_right₀ (by norm_num) (by norm_num)
    have hscale' : (0 : ℚ) < 2 ^ (971 : Int) := by positivity
    rw [overflow]
    generalize (2 : ℚ) ^ (971 : Int) = scale at *
    linarith
  · refine ⟨?_, fun _ => .inr rfl⟩
    rw [Nat.cast_zero, zero_mul, zero_sub, abs_neg, abs_of_nonneg hpos]
    rcases eq_zero_or_le_of_mem_magnitudes hr with rfl | hle
    · rw [zero_sub, abs_neg, abs_of_nonneg hpos]
    · rw [abs_of_nonneg (by linarith)]
      linarith

theorem exists_ofFloat_eq_zero (negative : Bool) : ∃ y, Binary.ofFloat y = .finite negative 0 (-1074) := by
  cases negative with
  | false => exact ⟨0.0, by decide⟩
  | true => exact ⟨-0.0, by decide⟩

/-- A double that is nearest to a number next to zero is zero, and nearest to all of them. -/
theorem isNearest_of_small {x : Float} {negative : Bool} {v v' : ℚ} (h : (Binary.ofFloat x).IsNearest negative v)
    (hpos : 0 ≤ v) (hv : v ≤ 2 ^ (-1075 : Int)) (hpos' : 0 ≤ v') (hv' : v' ≤ 2 ^ (-1075 : Int)) :
    (Binary.ofFloat x).IsNearest negative v' := by
  obtain ⟨y, hy⟩ := exists_ofFloat_eq_zero negative
  have hzero := isNearest_zero negative hpos hv
  rw [← hy] at hzero
  rw [ofFloat_eq_of_isNearest h hzero, hy]
  exact isNearest_zero negative hpos' hv'

/-! ## Operations that round once -/

/-- The sign of a double has no part in how near it is. -/
theorem isNearest_neg {x : Float} {negative : Bool} {v : ℚ} (h : (Binary.ofFloat x).IsNearest negative v) :
    (Binary.ofFloat (-x)).IsNearest (!negative) v := by
  have hmodel : -x = Float.ofModel (.pack x.toModel.unpack.neg) := rfl
  have hcanonical (b : Bool) (m : Nat) (q : Int) (hx : Binary.ofFloat x = .finite b m q) := isCanonical_of_ofFloat hx
  rw [ofFloat_eq] at h hcanonical
  rw [hmodel]
  generalize x.toModel.unpack = f at *
  cases f with
  | notANumber => exact h.elim
  | infinity sign =>
    obtain ⟨rfl, hle⟩ := h
    cases sign <;> exact ⟨rfl, hle⟩
  | zero sign =>
    obtain ⟨rfl, hfinite⟩ := h
    cases sign <;> exact ⟨rfl, hfinite⟩
  | finite sign m q hm =>
    obtain ⟨rfl, hfinite⟩ := h
    obtain ⟨hm', hq⟩ := hcanonical _ m q rfl
    have hunpacked : UnpackedFloat.neg (.finite sign m q hm) = unpackedOf (-sign) m q := by
      rw [unpackedOf, dif_neg (Nat.ne_of_gt hm)]
      rfl
    rw [hunpacked, ofFloat_pack_unpackedOf _ hm', if_pos hq]
    cases sign <;> exact ⟨rfl, hfinite⟩

/-- A product with enough digits is rounded to the nearest double. -/
theorem isNearest_mul {m₁ m₂ : Nat} (e₁ e₂ : Int) (h₁ : 0 < m₁) (h₂ : 0 < m₂) (hm : 2 ^ 52 ≤ m₁ * m₂) :
    (Binary.ofFloat (Float.ofModel (.pack (mul Format.binary64 (.finite .positive m₁ e₁ h₁)
      (.finite .positive m₂ e₂ h₂))))).IsNearest false (m₁ * 2 ^ e₁ * (m₂ * 2 ^ e₂)) := by
  have hvalue : (m₁ * 2 ^ e₁ * (m₂ * 2 ^ e₂) : ℚ) = (m₁ * m₂ : Nat) * 2 ^ (e₁ + e₂) := by
    rw [zpow_add₀ (by norm_num)]
    push_cast
    ring
  have hsign : Sign.positive * Sign.positive = .positive := rfl
  rw [hvalue, mul, hsign]
  exact isNearest_roundWithAccuracy .positive (tells_exact _) (le_lastPlace _ hm)

/-- The quotient is worked out to enough digits. -/
theorem le_lastPlace_quotient {m₁ m₂ : Nat} {e₁ e₂ e : Int} (h₁ : 0 < m₁) (h₂ : 0 < m₂)
    (he : e = min (e₁ - e₂) (max (m₁.log2 + e₁ - (m₂.log2 + e₂) - 53) (-1074))) :
    e ≤ lastPlace ((m₁ <<< (e₁ - e₂ - e).toNat) / m₂) e := by
  rw [lastPlace_eq]
  by_cases hlow : e ≤ -1074
  · omega
  · -- as many digits as the difference of the places, or one more
    have hplaces : 53 + m₂.log2 ≤ m₁.log2 + (e₁ - e₂ - e).toNat := by omega
    generalize (e₁ - e₂ - e).toNat = shift at *
    have hupper : m₂ < 2 ^ (m₂.log2 + 1) := Nat.lt_log2_self
    have hlower : 2 ^ m₁.log2 ≤ m₁ := Nat.log2_self_le (Nat.ne_of_gt h₁)
    have hfull : 2 ^ 52 * m₂ ≤ m₁ <<< shift := by
      rw [Nat.shiftLeft_eq]
      calc 2 ^ 52 * m₂ ≤ 2 ^ 52 * 2 ^ (m₂.log2 + 1) := Nat.mul_le_mul_left _ (Nat.le_of_lt hupper)
        _ ≤ 2 ^ m₁.log2 * 2 ^ shift := by
          rw [← Nat.pow_add, ← Nat.pow_add]
          exact Nat.pow_le_pow_right (by decide) (by omega)
        _ ≤ m₁ * 2 ^ shift := Nat.mul_le_mul_right _ hlower
    have hquotient : 2 ^ 52 ≤ m₁ <<< shift / m₂ := (Nat.le_div_iff_mul_le h₂).2 hfull
    have hlog := (Nat.le_log2 (by omega)).2 hquotient
    omega

theorem isNearest_div {m₁ m₂ : Nat} (e₁ e₂ : Int) (h₁ : 0 < m₁) (h₂ : 0 < m₂) :
    (Binary.ofFloat (Float.ofModel (.pack (div Format.binary64 (.finite .positive m₁ e₁ h₁)
      (.finite .positive m₂ e₂ h₂))))).IsNearest false (m₁ * 2 ^ e₁ / (m₂ * 2 ^ e₂)) := by
  have hmin : Format.binary64.minExponent = -1074 := by decide
  have hbits : Format.binary64.mantissaBits = 53 := rfl
  simp only [div, divCore, Format.targetExponent, totalExponent, hmin, hbits]
  have htarget : (m₁.log2 + 1 + e₁ - (m₂.log2 + 1 + e₂) - (53 : Nat) : Int) = m₁.log2 + e₁ - (m₂.log2 + e₂) - 53 := by
    omega
  rw [htarget]
  generalize he : min (e₁ - e₂) (max (m₁.log2 + e₁ - (m₂.log2 + e₂) - 53) (-1074) : Int) = e
  have hplace := le_lastPlace_quotient h₁ h₂ he.symm
  have hle : e ≤ e₁ - e₂ := by omega
  obtain ⟨shift, hshift⟩ : ∃ shift : Nat, (e₁ - e₂ - e).toNat = shift := ⟨_, rfl⟩
  have hvalue : (m₁ * 2 ^ e₁ / (m₂ * 2 ^ e₂) : ℚ) = (m₁ <<< shift : Nat) / m₂ * 2 ^ e := by
    have hsplit : e₁ = shift + e + e₂ := by omega
    rw [hsplit, Nat.shiftLeft_eq, zpow_add₀ (by norm_num), zpow_add₀ (by norm_num), zpow_natCast]
    push_cast
    field_simp
  have hsign : Sign.positive / Sign.positive = .positive := rfl
  rw [hvalue, hshift, hsign]
  rw [hshift] at hplace
  exact isNearest_roundWithAccuracy .positive (tells_quotient _ h₂) hplace

end SvgPlot.Decimal
