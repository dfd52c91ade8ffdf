import Mathlib
import BlockWorld.Proofs.Ieee

/-! # Exact arithmetic on doubles

An operation on doubles rounds the exact result. Where that result is a whole number of at most 53
bits at an exponent that is neither very low nor very high, rounding leaves it as it is, and the
double stores the result itself.
-/

namespace BlockWorld.Double

open Float.Model Float.Model.UnpackedFloat Float.Model.Format

variable {m n j : ℕ} {e t k : ℤ} {p q : ℚ} {s : Sign}

/-! ## Normal form -/

/-- A magnitude of exactly 53 bits, at an exponent that a double can have. -/
structure Normal (m : ℕ) (e : ℤ) : Prop where
  ge : 4503599627370496 ≤ m
  lt : m < 9007199254740992
  min_le : -1074 ≤ e
  le_max : e ≤ 971

namespace Normal

theorem pos (h : Normal m e) : 0 < m := by
  have := h.ge
  omega

theorem log2 (h : Normal m e) : m.log2 = 52 := (Nat.log2_eq_iff h.pos.ne').2 ⟨h.ge, h.lt⟩

theorem target (h : Normal m e) : binary64.targetExponent (totalExponent m e) = e := by
  have hmin := h.min_le
  rw [totalExponent, h.log2]
  show max (((52 : ℕ) : ℤ) + 1 + e - (53 : ℕ)) (-1074) = e
  omega

end Normal

/-- A whole number of at most 53 bits at a moderate exponent. -/
def Fits (q : ℚ) : Prop := ∃ n k : ℤ, |n| < 9007199254740992 ∧ -1022 ≤ k ∧ k ≤ 971 ∧ q = n * 2 ^ k

theorem value_shiftLeft (m : ℕ) (hle : t ≤ e) :
    ((m <<< (e - t).toNat : ℕ) : ℚ) * 2 ^ t = m * 2 ^ e := by
  have hpow : (2 : ℚ) ^ e = 2 ^ (e - t).toNat * 2 ^ t := by
    rw [← zpow_natCast, ← zpow_add₀ two_ne_zero]
    congr 1
    omega
  rw [Nat.shiftLeft_eq, hpow]
  push_cast
  ring

theorem shiftLeft_eq_of_value (h : (m : ℚ) * 2 ^ e = n * 2 ^ t) (hle : t ≤ e) :
    m <<< (e - t).toNat = n := by
  rw [← value_shiftLeft m hle] at h
  exact_mod_cast mul_right_cancel₀ (zpow_ne_zero t two_ne_zero) h

theorem Fits.exists_normal (h : Fits q) (hq : q ≠ 0) : ∃ m e, Normal m e ∧ |q| = m * 2 ^ e := by
  obtain ⟨n, k, hn, hlo, hhi, rfl⟩ := h
  have hne : n.natAbs ≠ 0 := by
    rintro h0
    exact hq (by simp [Int.natAbs_eq_zero.1 h0])
  have hlog : n.natAbs.log2 ≤ 52 :=
    Nat.lt_succ_iff.1 ((Nat.log2_lt hne).2 (by rw [Int.abs_eq_natAbs] at hn; omega))
  obtain ⟨hge, hlt⟩ := Ieee.Format.shiftLeft_bounds hne hlog
  refine ⟨_, k - (52 - n.natAbs.log2 : ℕ), ⟨hge, hlt, by omega, by omega⟩, ?_⟩
  have habs : |(n : ℚ)| = n.natAbs := by rw [Nat.cast_natAbs, Int.cast_abs]
  have hvalue := value_shiftLeft n.natAbs (t := k - (52 - n.natAbs.log2 : ℕ)) (e := k) (by omega)
  rw [show (k - (k - (52 - n.natAbs.log2 : ℕ))).toNat = 52 - n.natAbs.log2 by omega] at hvalue
  rw [hvalue, abs_mul, abs_of_pos (zpow_pos (two_pos (α := ℚ)) k), habs]

/-! ## Rounding -/

theorem shiftRight_extended (m j : ℕ) :
    (⟨m <<< j, false, false⟩ : ExtendedMantissa) >>> j = ⟨m, false, false⟩ := by
  show Nat.repeat ExtendedMantissa.shiftRightOne j _ = _
  induction j generalizing m with
  | zero => rfl
  | succ j ih =>
    rw [Nat.repeat, Nat.shiftLeft_succ_inside, ih]
    simp [ExtendedMantissa.shiftRightOne]

theorem log2_shiftLeft (hm : m ≠ 0) (j : ℕ) : (m <<< j).log2 = m.log2 + j := by
  induction j with
  | zero => rfl
  | succ j ih =>
    rw [Nat.shiftLeft_succ, Nat.log2_two_mul (by simpa [Nat.shiftLeft_eq] using hm), ih]
    rfl

theorem totalExponent_eq_of_value (hm : 0 < m) (h : (m : ℚ) * 2 ^ e = n * 2 ^ t) :
    totalExponent m e = totalExponent n t := by
  have hn : 0 < n := by
    rcases Nat.eq_zero_or_pos n with rfl | hn
    · have := mul_pos (Nat.cast_pos.2 hm) (zpow_pos (two_pos (α := ℚ)) e)
      rw [h] at this
      simp at this
    · exact hn
  rw [totalExponent, totalExponent]
  rcases Int.le_total t e with hle | hle
  · rw [← shiftLeft_eq_of_value h hle, log2_shiftLeft hm.ne']
    omega
  · rw [← shiftLeft_eq_of_value h.symm hle, log2_shiftLeft hn.ne']
    omega

theorem roundWithAccuracy_eq (h : Normal n t) (hv : (m : ℚ) * 2 ^ e = n * 2 ^ t) (hle : e ≤ t) :
    roundWithAccuracy binary64 s m e .exact = .finite s n t h.pos := by
  have hm : m = n <<< (t - e).toNat := (shiftLeft_eq_of_value hv.symm hle).symm
  have hpos : 0 < m := by
    have := h.pos
    rw [hm, Nat.shiftLeft_eq]
    positivity
  have htarget : binary64.targetExponent (totalExponent m e) = t := by
    rw [totalExponent_eq_of_value hpos hv, h.target]
  have hfirst : shiftToTargetExponent binary64 m e .exact = (⟨n, false, false⟩, t) := by
    rw [shiftToTargetExponent, shiftToExponent, htarget]
    simp only [ExtendedMantissa.ofMantissaAndAccuracy]
    rw [hm, shiftRight_extended, Prod.mk.injEq]
    exact ⟨rfl, by omega⟩
  have hsecond : shiftToTargetExponent binary64 n t .exact = (⟨n, false, false⟩, t) := by
    rw [shiftToTargetExponent, shiftToExponent, h.target, Int.sub_self]
    exact congrArg _ (Int.add_zero t)
  have hrounded : (⟨n, false, false⟩ : ExtendedMantissa).roundedMantissa = n := rfl
  simp only [roundWithAccuracy, hfirst, hrounded, hsecond, h.pos.ne', dite_false]

theorem round_eq_finite (h : Normal n t) (hm : 0 < m) (hv : (m : ℚ) * 2 ^ e = n * 2 ^ t) :
    UnpackedFloat.round binary64 s m e = .finite s n t h.pos := by
  simp only [UnpackedFloat.round, totalExponent_eq_of_value hm hv, h.target, decreaseExponent]
  rcases Int.le_total t e with hle | hle
  · rw [shiftLeft_eq_of_value hv hle, show e - ((e - t).toNat : ℤ) = t by omega]
    exact roundWithAccuracy_eq h rfl le_rfl
  · rw [show (e - t).toNat = 0 by omega, Nat.shiftLeft_zero, Nat.cast_zero, Int.sub_zero]
    exact roundWithAccuracy_eq h hv hle

/-! ## Unpacked doubles -/

/-- What number a double stands for: zero, or a number in normal form. -/
inductive Holds : UnpackedFloat → ℚ → Prop
  | zero (s : Sign) : Holds (.zero s) 0
  | finite (s : Sign) {m : ℕ} {e : ℤ} (h : Normal m e) :
      Holds (.finite s m e h.pos) (s.apply m * 2 ^ e)

variable {x y : UnpackedFloat} {v : ℤ}

theorem cast_apply (s : Sign) (v : ℤ) : ((s.apply v : ℤ) : ℚ) = s.apply 1 * v := by
  cases s <;> simp [Sign.apply]

theorem abs_apply (s : Sign) : |((s.apply 1 : ℤ) : ℚ)| = 1 := by
  cases s <;> simp [Sign.apply]

/-- Rounding a number that fits gives a double that holds it, by whichever way it is rounded. -/
theorem holds_of_magnitude {a : ℚ} (ha : 0 < a) (hq : q = s.apply 1 * a) (h : Fits q)
    (hx : ∀ n t, (hn : Normal n t) → a = n * 2 ^ t → x = .finite s n t hn.pos) : Holds x q := by
  have habs : |q| = a := by rw [hq, abs_mul, abs_apply, one_mul, abs_of_pos ha]
  obtain ⟨n, t, hn, heq⟩ := h.exists_normal (abs_pos.1 (habs ▸ ha))
  rw [habs] at heq
  have hvalue : q = s.apply n * 2 ^ t := by
    rw [hq, heq, cast_apply s n, mul_assoc]
    rfl
  rw [hx n t hn heq, hvalue]
  exact .finite s hn

theorem magnitude_pos (hm : 0 < m) (e : ℤ) : 0 < (m : ℚ) * 2 ^ e :=
  mul_pos (Nat.cast_pos.2 hm) (zpow_pos two_pos e)

theorem holds_normalize (h : Fits (v * 2 ^ e)) :
    Holds (UnpackedFloat.normalize binary64 v e s) (v * 2 ^ e) := by
  have hround : ∀ {s m}, 0 < m → s.apply m = v →
      Holds (UnpackedFloat.round binary64 s m e) (v * 2 ^ e) := fun {s m} hm hv =>
    holds_of_magnitude (magnitude_pos hm e)
      (by rw [← hv, cast_apply, mul_assoc, Int.cast_natCast]) h
      fun _ _ hn heq => round_eq_finite hn hm heq
  unfold UnpackedFloat.normalize
  rcases lt_trichotomy v 0 with hlt | rfl | hgt
  · rw [compare_lt_iff_lt.2 hlt]
    exact hround (by omega) (by simp only [Sign.apply]; omega)
  · rw [compare_eq_iff_eq.2 rfl, Int.cast_zero, zero_mul]
    exact .zero s
  · rw [compare_gt_iff_gt.2 hgt]
    exact hround (by omega) (by simp only [Sign.apply]; omega)

theorem value_decreaseExponent (s : Sign) (m : ℕ) (hle : t ≤ e) :
    (s.apply (decreaseExponent m e t).1 : ℚ) * 2 ^ t = s.apply m * 2 ^ e := by
  rw [cast_apply, cast_apply s m, mul_assoc, mul_assoc, Int.cast_natCast, Int.cast_natCast,
    ← value_shiftLeft m hle]
  rfl

theorem Holds.add (hx : Holds x p) (hy : Holds y q) (h : Fits (p + q)) :
    Holds (UnpackedFloat.add binary64 x y) (p + q) := by
  cases hx with
  | zero s =>
    cases hy with
    | zero s' =>
      rw [add_zero]
      cases s <;> cases s' <;> exact .zero _
    | finite s' hm' =>
      rw [zero_add]
      exact .finite s' hm'
  | @finite s m e hm =>
    cases hy with
    | zero s' =>
      rw [add_zero]
      exact .finite s hm
    | @finite s' m' e' hm' =>
      have hsum : (s.apply m : ℚ) * 2 ^ e + s'.apply m' * 2 ^ e' =
          (s.apply (decreaseExponent m e (min e e')).1 +
            s'.apply (decreaseExponent m' e' (min e e')).1 : ℤ) * 2 ^ min e e' := by
        rw [Int.cast_add, add_mul, value_decreaseExponent s m (min_le_left _ _),
          value_decreaseExponent s' m' (min_le_right _ _)]
      rw [hsum] at h ⊢
      exact holds_normalize h

theorem Holds.sub (hx : Holds x p) (hy : Holds y q) (h : Fits (p - q)) :
    Holds (UnpackedFloat.sub binary64 x y) (p - q) := by
  cases hx with
  | zero s =>
    cases hy with
    | zero s' =>
      rw [sub_zero]
      cases s <;> cases s' <;> exact .zero _
    | @finite s' m' e' hm' =>
      have hneg : (0 : ℚ) - s'.apply m' * 2 ^ e' = (-s').apply m' * 2 ^ e' := by
        have hsign : (-s').apply m' = -s'.apply m' := by
          cases s'
          · exact (neg_neg _).symm
          · rfl
        rw [hsign, zero_sub, Int.cast_neg, neg_mul]
      rw [hneg]
      exact .finite (-s') hm'
  | @finite s m e hm =>
    cases hy with
    | zero s' =>
      rw [sub_zero]
      exact .finite s hm
    | @finite s' m' e' hm' =>
      have hsum : (s.apply m : ℚ) * 2 ^ e - s'.apply m' * 2 ^ e' =
          (s.apply (decreaseExponent m e (min e e')).1 -
            s'.apply (decreaseExponent m' e' (min e e')).1 : ℤ) * 2 ^ min e e' := by
        rw [Int.cast_sub, sub_mul, value_decreaseExponent s m (min_le_left _ _),
          value_decreaseExponent s' m' (min_le_right _ _)]
      rw [hsum] at h ⊢
      exact holds_normalize h

theorem cast_apply_mul (s s' : Sign) :
    (((s * s').apply 1 : ℤ) : ℚ) = s.apply 1 * s'.apply 1 := by
  rw [← Int.cast_mul]
  cases s <;> cases s' <;> rfl

theorem cast_apply_div (s s' : Sign) :
    (((s / s').apply 1 : ℤ) : ℚ) = s.apply 1 / s'.apply 1 := by
  rw [show s / s' = s * s' by cases s <;> cases s' <;> rfl, cast_apply_mul]
  have hsquare : ((s'.apply 1 : ℤ) : ℚ) * s'.apply 1 = 1 := by cases s' <;> simp [Sign.apply]
  rw [eq_div_iff (left_ne_zero_of_mul_eq_one hsquare), mul_assoc, hsquare, mul_one]

theorem Holds.mul (hx : Holds x p) (hy : Holds y q) (h : Fits (p * q)) :
    Holds (UnpackedFloat.mul binary64 x y) (p * q) := by
  cases hx with
  | zero s =>
    rw [zero_mul]
    cases hy <;> exact .zero _
  | @finite s m e hm =>
    cases hy with
    | zero s' =>
      rw [mul_zero]
      exact .zero _
    | @finite s' m' e' hm' =>
      refine holds_of_magnitude (magnitude_pos (Nat.mul_pos hm.pos hm'.pos) (e + e')) ?_ h
        fun n t hn heq => roundWithAccuracy_eq hn heq ?_
      · rw [cast_apply_mul, cast_apply, cast_apply s' m', zpow_add₀ two_ne_zero]
        push_cast
        ring
      · -- the product has more bits than the number it is rounded to
        by_contra hlt
        have hshift := shiftLeft_eq_of_value heq (by omega)
        have hle : m * m' ≤ n := by
          rw [← hshift, Nat.shiftLeft_eq]
          exact Nat.le_mul_of_pos_right _ (Nat.two_pow_pos _)
        have := Nat.mul_le_mul hm.ge hm'.ge
        have := hn.lt
        omega

theorem divCore_eq {m' : ℕ} {e' : ℤ} (hm : Normal m e) (hm' : Normal m' e') (hn : Normal n t)
    (h : (m : ℚ) * 2 ^ (e - e') = (n * m' : ℕ) * 2 ^ t) :
    ∃ k ≤ t, divCore binary64 m e m' e' = (n <<< (t - k).toNat, k, .exact) := by
  have hlow : e - e' - 53 ≤ t := by
    -- otherwise the numerator would have more bits than the product it is
    by_contra hlt
    have hshift := shiftLeft_eq_of_value h (by omega)
    rw [Nat.shiftLeft_eq] at hshift
    have hbits : 2 ^ 54 ≤ 2 ^ (e - e' - t).toNat := Nat.pow_le_pow_right two_pos (by omega)
    have := Nat.mul_le_mul hm.ge hbits
    have := Nat.mul_lt_mul'' hn.lt hm'.lt
    omega
  have htarget : binary64.targetExponent (totalExponent m e - totalExponent m' e') ≤ t := by
    have := hn.min_le
    rw [totalExponent, totalExponent, hm.log2, hm'.log2]
    show max (((52 : ℕ) : ℤ) + 1 + e - ((52 : ℕ) + 1 + e') - (53 : ℕ)) (-1074) ≤ t
    omega
  generalize hk : min (e - e')
    (binary64.targetExponent (totalExponent m e - totalExponent m' e')) = k
  have hkt : k ≤ t := by omega
  have hnum : m <<< (e - e' - k).toNat = n <<< (t - k).toNat * m' := by
    refine shiftLeft_eq_of_value ?_ (by omega)
    rw [h, Nat.cast_mul, Nat.cast_mul, mul_right_comm, ← value_shiftLeft n hkt]
    ring
  refine ⟨k, hkt, ?_⟩
  simp only [divCore, hk, hnum, Nat.mul_div_cancel _ hm'.pos, Nat.mul_mod_left]
  rfl

theorem Holds.div (hx : Holds x p) (hy : Holds y q) (hq : q ≠ 0) (h : Fits (p / q)) :
    Holds (UnpackedFloat.div binary64 x y) (p / q) := by
  cases hy with
  | zero s' => exact absurd rfl hq
  | @finite s' m' e' hm' =>
    cases hx with
    | zero s =>
      rw [zero_div]
      exact .zero _
    | @finite s m e hm =>
      refine holds_of_magnitude (a := m * 2 ^ e / (m' * 2 ^ e')) (s := s / s')
        (div_pos (magnitude_pos hm.pos e) (magnitude_pos hm'.pos e')) ?_ h fun n t hn heq => ?_
      · rw [cast_apply_div, cast_apply, cast_apply s' m', mul_assoc, mul_assoc, mul_div_mul_comm]
        rfl
      · have hvalue : (m : ℚ) * 2 ^ (e - e') = (n * m' : ℕ) * 2 ^ t := by
          rw [div_eq_iff (magnitude_pos hm'.pos e').ne'] at heq
          rw [zpow_sub₀ two_ne_zero, ← mul_div_assoc, heq, div_eq_iff (zpow_ne_zero _ two_ne_zero)]
          push_cast
          ring
        obtain ⟨k, hkt, hk⟩ := divCore_eq hm hm' hn hvalue
        have hdiv : UnpackedFloat.div binary64 (.finite s m e hm.pos) (.finite s' m' e' hm'.pos) =
            roundWithAccuracy binary64 (s / s') (n <<< (t - k).toNat) k .exact := by
          rw [UnpackedFloat.div, hk]
        rw [hdiv]
        exact roundWithAccuracy_eq hn (value_shiftLeft n hkt) hkt

/-! ## Doubles -/

/-- The leading bit is not stored. -/
theorem toNat_one_append (v : BitVec 52) : (1#1 ++ v).toNat = 4503599627370496 + v.toNat := by
  rw [BitVec.toNat_append, Nat.shiftLeft_eq, mul_comm, ← Nat.two_pow_add_eq_or_of_lt v.isLt]
  rfl

namespace Normal

/-- The exponent as it is stored, which leaves those of zero and of infinity to these. -/
def biased (e : ℤ) : ℕ := (e + 1075).toNat

theorem pack_eq (h : Normal m e) : UnpackedFloat.pack binary64 (.finite s m e h.pos) =
    packComponents binary64 s (BitVec.ofNat _ (biased e)) (BitVec.ofNat _ m) := by
  have hmax := h.le_max
  have hbiased :
      (e + binary64.exponentBias + binary64.mantissaBitsWithoutImplicit).toNat = biased e := by
    show (e + (1023 : ℕ) + (52 : ℕ)).toNat = (e + 1075).toNat
    omega
  simp only [UnpackedFloat.pack, hbiased, h.log2]
  rw [if_neg]
  · exact if_pos rfl
  · show ¬ 2048 ≤ (e + 1075).toNat + 1
    omega

theorem toNat_biased (h : Normal m e) : (BitVec.ofNat 11 (biased e)).toNat = biased e := by
  have hmax := h.le_max
  rw [BitVec.toNat_ofNat, biased, Nat.mod_eq_of_lt]
  omega

theorem toNat_mantissa (h : Normal m e) : (1#1 ++ BitVec.ofNat 52 m).toNat = m := by
  have hge := h.ge
  have hlt := h.lt
  rw [toNat_one_append, BitVec.toNat_ofNat]
  omega

theorem biased_ne (h : Normal m e) {v : BitVec 11} (hv : v.toNat = 0 ∨ v.toNat = 2047) :
    BitVec.ofNat 11 (biased e) ≠ v := by
  have hmin := h.min_le
  have hmax := h.le_max
  rintro rfl
  rw [h.toNat_biased, biased] at hv
  omega

theorem unpack_packComponents (h : Normal m e) : UnpackedFloat.unpack binary64
    (packComponents binary64 s (BitVec.ofNat _ (biased e)) (BitVec.ofNat _ m)) =
      .finite s m e h.pos := by
  have hexponent : ((BitVec.ofNat 11 (biased e)).toNat : ℤ) -
      (binary64.exponentBias + binary64.mantissaBitsWithoutImplicit) = e := by
    have hmin := h.min_le
    rw [h.toNat_biased, biased]
    show ((e + 1075).toNat : ℤ) - ((1023 : ℕ) + (52 : ℕ)) = e
    omega
  rw [UnpackedFloat.unpack]
  simp only [unpackMantissa_packComponents, unpackExponent_packComponents,
    unpackSign_packComponents, Sign.ofBitVec_toBitVec]
  rw [if_neg (h.biased_ne (.inr rfl)), if_neg (h.biased_ne (.inl rfl))]
  simp only [h.toNat_mantissa, hexponent]

end Normal

theorem Holds.unpack_packed (h : Holds x q) :
    UnpackedFloat.unpack binary64 (UnpackedFloat.pack binary64 x) = x := by
  cases h with
  | zero s => exact unpack_packedZero
  | finite s hm => rw [hm.pack_eq, hm.unpack_packComponents]

/-- A double that stores exactly this number. -/
def Stores (f : Float) (q : ℚ) : Prop := Holds f.toModel.unpack q

variable {f g : Float}

theorem Holds.stores (h : Holds x q) : Stores (.ofModel (.pack x)) q := by
  show Holds (UnpackedFloat.unpack binary64 (UnpackedFloat.pack binary64 x)) q
  rwa [h.unpack_packed]

theorem Stores.add (hf : Stores f p) (hg : Stores g q) (h : Fits (p + q)) :
    Stores (f + g) (p + q) := (Holds.add hf hg h).stores

theorem Stores.sub (hf : Stores f p) (hg : Stores g q) (h : Fits (p - q)) :
    Stores (f - g) (p - q) := (Holds.sub hf hg h).stores

theorem Stores.mul (hf : Stores f p) (hg : Stores g q) (h : Fits (p * q)) :
    Stores (f * g) (p * q) := (Holds.mul hf hg h).stores

theorem Stores.div (hf : Stores f p) (hg : Stores g q) (hq : q ≠ 0) (h : Fits (p / q)) :
    Stores (f / g) (p / q) := (Holds.div hf hg hq h).stores

theorem stores_toFloat {w : UInt64} (h : w.toNat < 9007199254740992) :
    Stores w.toFloat w.toNat := by
  have hvalue : ((w.toNat : ℤ) : ℚ) * 2 ^ (0 : ℤ) = w.toNat := by simp
  have hfits : Fits (((w.toNat : ℤ) : ℚ) * 2 ^ (0 : ℤ)) :=
    ⟨w.toNat, 0, by rw [Nat.abs_cast]; omega, by omega, by omega, rfl⟩
  rw [← hvalue]
  exact (holds_normalize hfits).stores

/-! ## Bits -/

def datum : UnpackedFloat → Ieee.Value
  | .notANumber => .nan false
  | .infinity s => .infinite (s == .negative)
  | .zero s => .finite (s == .negative) 0 (-1074)
  | .finite s m e _ => .finite (s == .negative) m e

section bits

variable (b : BitVec 64)

theorem toNat_unpackExponent : (@unpackExponent binary64 b).toNat =
    b.toNat / 4503599627370496 % 2048 := by
  rw [unpackExponent_def, BitVec.extractLsb'_toNat, Nat.shiftRight_eq_div_pow]
  rfl

theorem toNat_unpackMantissa : (@unpackMantissa binary64 b).toNat =
    b.toNat % 4503599627370496 := by
  rw [unpackMantissa_def, BitVec.extractLsb'_toNat, Nat.shiftRight_zero]
  rfl

theorem negative_unpackSign :
    (Sign.ofBitVec (@unpackSign binary64 b) == .negative) = b.toNat.testBit 63 := by
  have hbit : (@unpackSign binary64 b).toNat = b.toNat / 2 ^ 63 % 2 := by
    rw [unpackSign_def, BitVec.extractLsb'_toNat, Nat.shiftRight_eq_div_pow]
    rfl
  rw [Nat.testBit_eq_decide_div_mod_eq, ← hbit]
  obtain h | h := BitVec.eq_zero_or_eq_one (@unpackSign binary64 b) <;> rw [h] <;> rfl

/-- Valid bits are unpacked to what they stand for. -/
theorem value_toNat (hb : binary64.Valid b) :
    Ieee.double.value b.toNat = datum (UnpackedFloat.unpack binary64 b) := by
  have hones : (@unpackExponent binary64 b).toNat = 2047 ↔
      @unpackExponent binary64 b = -BitVec.ofNat binary64.exponentBits 1 :=
    BitVec.toNat_inj (y := -1#11)
  have hlow : (@unpackExponent binary64 b).toNat = 0 ↔
      @unpackExponent binary64 b = BitVec.ofNat binary64.exponentBits 0 :=
    BitVec.toNat_inj (y := 0#11)
  have hzero : (@unpackMantissa binary64 b).toNat = 0 ↔
      @unpackMantissa binary64 b = BitVec.ofNat binary64.mantissaBitsWithoutImplicit 0 :=
    BitVec.toNat_inj (y := 0#52)
  rw [Ieee.Format.value_double, ← toNat_unpackExponent, ← toNat_unpackMantissa,
    ← negative_unpackSign, UnpackedFloat.unpack]
  simp only [hones, hlow, hzero]
  split_ifs with hmax hinf hmin hnone
  · rfl
  · rw [hb.eq_packedNaN hmax hinf]
    rfl
  · rw [hnone]
    rfl
  · rw [hmin]
    rfl
  · rw [datum, toNat_one_append]
    congr 1
    show _ = ((_ : ℕ) : ℤ) - ((1023 : ℕ) + (52 : ℕ))
    omega

end bits

theorem value_toBits (f : Float) :
    Ieee.double.value f.toBits.toNat = datum f.toModel.unpack :=
  value_toNat f.toBits.toBitVec f.toModel.valid

theorem Stores.exists_value (h : Stores f q) : ∃ s m e,
    Ieee.double.value f.toBits.toNat = .finite s m e ∧
      q = ((if s then -m else m : ℤ) : ℚ) * 2 ^ e := by
  rw [value_toBits]
  unfold Stores at h
  generalize f.toModel.unpack = x at h
  cases h with
  | zero s => exact ⟨_, _, _, rfl, by simp⟩
  | @finite s m e _ => exact ⟨_, _, _, rfl, by cases s <;> rfl⟩

end BlockWorld.Double
