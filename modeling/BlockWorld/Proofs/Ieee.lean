import Mathlib
import BlockWorld.Ieee

/-! # Widening is exact

A finite single is a whole number of at most 24 bits at its own exponent. Widened to a double, that
number is shifted until it has 53 bits; rounded back to a single, it is the number that it was. So
every single is read back from the double equal to it, bit for bit, numbers or not.
-/

namespace BlockWorld.Ieee

theorem shiftRound_shiftLeft (m k : ℕ) : shiftRound (m <<< k) k = m := by
  have hk : 0 < 1 <<< k := by
    rw [Nat.one_shiftLeft]
    exact Nat.two_pow_pos k
  have hwhole : m <<< k >>> k = m := by
    rw [Nat.shiftLeft_eq, Nat.shiftRight_eq_div_pow, Nat.mul_div_cancel _ (Nat.two_pow_pos k)]
  simp only [shiftRound, hwhole, Nat.sub_self, Nat.mul_zero]
  rw [if_neg]
  omega

namespace Format

theorem unit_single : single.unit = -149 := rfl

theorem unit_double : double.unit = -1074 := rfl

theorem infinity_single : single.infinity = 2139095040 := rfl

theorem infinity_double : double.infinity = 9218868437227405312 := rfl

theorem value_single (n : ℕ) :
    single.value n =
      if n / 8388608 % 256 = 255 then
        if n % 8388608 = 0 then .infinite (n.testBit 31) else .nan (n.testBit 31)
      else if n / 8388608 % 256 = 0 then .finite (n.testBit 31) (n % 8388608) (-149)
      else .finite (n.testBit 31) (8388608 + n % 8388608)
        (-149 + (n / 8388608 % 256 : ℕ) - 1) := by
  rw [value, unit_single]
  simp only [single, Nat.shiftRight_eq_div_pow]
  rfl

theorem value_double (n : ℕ) :
    double.value n =
      if n / 4503599627370496 % 2048 = 2047 then
        if n % 4503599627370496 = 0 then .infinite (n.testBit 63) else .nan (n.testBit 63)
      else if n / 4503599627370496 % 2048 = 0 then
        .finite (n.testBit 63) (n % 4503599627370496) (-1074)
      else .finite (n.testBit 63) (4503599627370496 + n % 4503599627370496)
        (-1074 + (n / 4503599627370496 % 2048 : ℕ) - 1) := by
  rw [value, unit_double]
  simp only [double, Nat.shiftRight_eq_div_pow]
  rfl

theorem roundMagnitude_eq {f : Format} {m : ℕ} {e q : ℤ} (hm : m ≠ 0)
    (hq : max f.unit (e + m.log2 - f.fractionBits) = q) :
    f.roundMagnitude m e = min f.infinity ((q - f.unit).toNat <<< f.fractionBits +
      if q ≤ e then m <<< (e - q).toNat else shiftRound m (q - e).toNat) := by
  simp only [roundMagnitude, if_neg hm, hq]

/-- A finite single: its magnitude is normal, or at the lowest exponent. -/
structure OfSingle (m : ℕ) (e : ℤ) : Prop where
  lt : m < 16777216
  le : e ≤ 104
  normal : e = -149 ∨ -149 ≤ e ∧ 8388608 ≤ m

/-- The magnitude that a pattern of a single stands for, and the pattern in its terms. -/
theorem single_value {n : ℕ} (hn : n < 4294967296) :
    (∃ s, single.value n = .infinite s ∧ n = nearest.signed single s 2139095040) ∨
      (n / 8388608 % 256 = 255 ∧ n % 8388608 ≠ 0) ∨
      ∃ s m e, single.value n = .finite s m e ∧ OfSingle m e ∧
        n = nearest.signed single s ((e + 149).toNat * 8388608 + m) := by
  have hsign : ∀ b, n % 2147483648 = b → n = nearest.signed single (n.testBit 31) b := by
    intro b hb
    rw [nearest.signed, Nat.testBit_eq_decide_div_mod_eq]
    simp only [decide_eq_true_eq]
    show n = if n / 2147483648 % 2 = 1 then 2147483648 + b else b
    split <;> omega
  rw [value_single]
  by_cases hmax : n / 8388608 % 256 = 255
  · rw [if_pos hmax]
    by_cases hzero : n % 8388608 = 0
    · rw [if_pos hzero]
      exact .inl ⟨_, rfl, hsign _ (by omega)⟩
    · exact .inr (.inl ⟨hmax, hzero⟩)
  · rw [if_neg hmax]
    refine .inr (.inr ?_)
    by_cases hzero : n / 8388608 % 256 = 0
    · rw [if_pos hzero]
      exact ⟨_, _, _, rfl, ⟨by omega, by omega, .inl rfl⟩, hsign _ (by omega)⟩
    · rw [if_neg hzero]
      exact ⟨_, _, _, rfl, ⟨by omega, by omega, .inr ⟨by omega, by omega⟩⟩, hsign _ (by omega)⟩

theorem double_value_signed {s : Bool} {m : ℕ} {q : ℤ} (hlo : 4503599627370496 ≤ m)
    (hhi : m < 9007199254740992) (hq : -1074 ≤ q) (hq' : q ≤ 200) :
    double.value (nearest.signed double s ((q + 1074).toNat * 4503599627370496 + m)) =
      .finite s m q := by
  generalize hn : nearest.signed double s ((q + 1074).toNat * 4503599627370496 + m) = n
  have hn' : n = (if s then 9223372036854775808 else 0) +
      ((q + 1074).toNat * 4503599627370496 + m) := by
    rw [← hn]
    cases s
    · exact (Nat.zero_add _).symm
    · rfl
  have hexp : n / 4503599627370496 % 2048 = (q + 1075).toNat := by
    cases s <;> simp at hn' <;> omega
  have hsign : n.testBit 63 = s := by
    rw [Nat.testBit_eq_decide_div_mod_eq]
    cases s <;> simp at hn' ⊢ <;> omega
  have hfrac : 4503599627370496 + n % 4503599627370496 = m := by
    cases s <;> simp at hn' <;> omega
  rw [value_double, hexp, hsign, hfrac, if_neg (by omega), if_neg (by omega)]
  congr 1
  omega

theorem shiftLeft_bounds {m : ℕ} (hm : m ≠ 0) (hlog : m.log2 ≤ 52) :
    4503599627370496 ≤ m <<< (52 - m.log2) ∧ m <<< (52 - m.log2) < 9007199254740992 := by
  rw [Nat.shiftLeft_eq]
  constructor
  · calc 2 ^ 52 = 2 ^ m.log2 * 2 ^ (52 - m.log2) := by
          rw [← Nat.pow_add]
          congr 1
          omega
      _ ≤ m * 2 ^ (52 - m.log2) := Nat.mul_le_mul_right _ (Nat.log2_self_le hm)
  · calc m * 2 ^ (52 - m.log2) < 2 ^ (m.log2 + 1) * 2 ^ (52 - m.log2) :=
          Nat.mul_lt_mul_of_pos_right Nat.lt_log2_self (Nat.two_pow_pos _)
      _ = 2 ^ 53 := by
          rw [← Nat.pow_add]
          congr 1
          omega

theorem roundMagnitude_double {m : ℕ} {e : ℤ} (h : OfSingle m e) (hm : m ≠ 0) :
    double.roundMagnitude m e =
      (e - (52 - m.log2) + 1074).toNat * 4503599627370496 + m <<< (52 - m.log2) := by
  have hlog : m.log2 < 24 := (Nat.log2_lt hm).2 h.lt
  have hlow : -149 ≤ e := by
    obtain he | ⟨he, -⟩ := h.normal <;> omega
  have hhigh := h.le
  have hq : max double.unit (e + m.log2 - double.fractionBits) = e - (52 - m.log2) := by
    rw [unit_double]
    show max (-1074 : ℤ) (e + m.log2 - (52 : ℕ)) = _
    omega
  have hshift : (e - (e - (52 - m.log2))).toNat = 52 - m.log2 := by omega
  have hlt := (shiftLeft_bounds hm (by omega)).2
  rw [roundMagnitude_eq hm hq, if_pos (by omega), hshift, unit_double, infinity_double,
    Nat.shiftLeft_eq (_ : ℤ).toNat]
  show min 9218868437227405312 ((e - (52 - m.log2) - -1074).toNat * 4503599627370496 + _) = _
  rw [Int.sub_neg]
  omega

theorem roundMagnitude_single {m : ℕ} {e : ℤ} (h : OfSingle m e) (hm : m ≠ 0) :
    single.roundMagnitude (m <<< (52 - m.log2)) (e - (52 - m.log2)) =
      (e + 149).toNat * 8388608 + m := by
  have hlog : m.log2 < 24 := (Nat.log2_lt hm).2 h.lt
  obtain ⟨hlo, hhi⟩ := shiftLeft_bounds hm (by omega)
  have hne : m <<< (52 - m.log2) ≠ 0 := by omega
  have hshifted : (m <<< (52 - m.log2)).log2 = 52 := (Nat.log2_eq_iff hne).2 ⟨hlo, hhi⟩
  have hq : max single.unit (e - (52 - m.log2) + (m <<< (52 - m.log2)).log2 -
      single.fractionBits) = e := by
    rw [unit_single, hshifted]
    show max (-149 : ℤ) (e - (52 - m.log2) + (52 : ℕ) - (23 : ℕ)) = _
    obtain he | ⟨he, hnormal⟩ := h.normal
    · omega
    · have hlog' : 23 ≤ m.log2 := (Nat.le_log2 hm).2 hnormal
      omega
  have hshift : (e - (e - (52 - m.log2))).toNat = 52 - m.log2 := by omega
  rw [roundMagnitude_eq hne hq, if_neg (by omega), hshift, shiftRound_shiftLeft, unit_single,
    infinity_single, Nat.shiftLeft_eq (_ : ℤ).toNat]
  show min 2139095040 ((e - -149).toNat * 8388608 + m) = _
  obtain ⟨hlt, hle, -⟩ := h
  omega

end Format

/-- A pattern of a single, but for numbers that are none, is rounded from the double equal to it. -/
theorem singleOfDouble_doubleOfSingle {bits : UInt32}
    (h : bits.toNat / 8388608 % 256 = 255 → bits.toNat % 8388608 ≠ 0 → bits = 0x7fc00000) :
    singleOfDouble (doubleOfSingle bits) = bits := by
  obtain ⟨s, hv, hn⟩ | ⟨hexp, hfrac⟩ | ⟨s, m, e, hv, hm, hn⟩ := Format.single_value bits.toNat_lt
  · rw [← UInt32.toNat_inj, hn, singleOfDouble, doubleOfSingle, hv]
    cases s <;> decide
  · rw [h hexp hfrac]
    decide
  · by_cases hzero : m = 0
    · obtain rfl : e = -149 := by
        obtain he | ⟨-, hnormal⟩ := hm.normal <;> omega
      subst hzero
      rw [← UInt32.toNat_inj, hn, singleOfDouble, doubleOfSingle, hv]
      cases s <;> decide
    · have hlog : m.log2 < 24 := (Nat.log2_lt hzero).2 hm.lt
      have hlow : -149 ≤ e := by
        obtain he | ⟨he, -⟩ := hm.normal <;> omega
      have hhigh := hm.le
      obtain ⟨hlo, hhi⟩ := Format.shiftLeft_bounds hzero (by omega)
      have hwide : double.nearest (.finite s m e) = Format.nearest.signed double s
          ((e - (52 - m.log2) + 1074).toNat * 4503599627370496 + m <<< (52 - m.log2)) :=
        congrArg (Format.nearest.signed double s) (Format.roundMagnitude_double hm hzero)
      have hback : single.nearest (.finite s (m <<< (52 - m.log2)) (e - (52 - m.log2))) =
          bits.toNat := by
        rw [hn]
        exact congrArg (Format.nearest.signed single s) (Format.roundMagnitude_single hm hzero)
      have hlt : double.nearest (.finite s m e) < UInt64.size := by
        rw [hwide, Format.nearest.signed]
        show (if s then 9223372036854775808 + _ else _) < 18446744073709551616
        split <;> omega
      rw [singleOfDouble, doubleOfSingle, hv, UInt64.toNat_ofNat_of_lt' hlt, hwide,
        Format.double_value_signed hlo hhi (by omega) (by omega), hback, UInt32.ofNat_toNat]

/-- Every single is read back from the double equal to it, bit for bit. -/
theorem ofBits_singleOfDouble (v : Float32) :
    Float32.ofBits (singleOfDouble (doubleOfSingle v.toBits)) = v := by
  rw [singleOfDouble_doubleOfSingle, Float32.ofBits_toBits]
  intro hexp hfrac
  have hvalid := v.toModel.valid.eq_packedNaN
  rw [← UInt32.toBitVec_inj]
  refine hvalid ?_ ?_
  · rw [Float.Model.UnpackedFloat.unpackExponent_def]
    apply BitVec.eq_of_toNat_eq
    rw [BitVec.extractLsb'_toNat, Nat.shiftRight_eq_div_pow]
    exact hexp
  · rw [Float.Model.UnpackedFloat.unpackMantissa_def]
    intro h
    apply hfrac
    have hn := congrArg BitVec.toNat h
    rw [BitVec.extractLsb'_toNat, Nat.shiftRight_eq_div_pow, Nat.pow_zero, Nat.div_one] at hn
    exact hn

end BlockWorld.Ieee
