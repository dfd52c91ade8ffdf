import Mathlib
import BlockWorld.Grid
import BlockWorld.Proofs.Double

/-! # From doubles to whole numbers

The floor and the rounding that read a double off its bits are those of the number that it stores,
clamped to the machine word. A coordinate that is divided by sixteen without loss is in the column
between whose sides it lies; what is off the grid counts as its nearest end.
-/

namespace BlockWorld

open Double (Stores Fits value_toBits)
open Float.Model (UnpackedFloat)

variable {f v : Float} {q : ℚ}

namespace Ieee

theorem floor_eq (s : Bool) (m : ℕ) (e : ℤ) :
    floor s m e = ⌊((if s then -m else m : ℤ) : ℚ) * 2 ^ e⌋ := by
  rw [floor]
  generalize (if s then -m else m : ℤ) = n
  split
  · next he =>
    obtain ⟨k, rfl⟩ := Int.eq_ofNat_of_zero_le he
    rw [Nat.one_shiftLeft, zpow_natCast, Int.toNat_natCast]
    exact_mod_cast (Int.floor_intCast (n * 2 ^ k)).symm
  · next he =>
    obtain ⟨k, hk⟩ := Int.eq_ofNat_of_zero_le (show 0 ≤ -e by omega)
    obtain rfl : e = -k := by omega
    rw [Nat.one_shiftLeft, zpow_neg, zpow_natCast, ← div_eq_mul_inv, Int.neg_neg, Int.toNat_natCast]
    exact_mod_cast (Rat.floor_intCast_div_natCast n (2 ^ k)).symm

theorem nearestWhole_eq (m : ℕ) (e : ℤ) : (nearestWhole m e : ℤ) = round ((m : ℚ) * 2 ^ e) := by
  rw [nearestWhole]
  split
  · next he =>
    obtain ⟨k, rfl⟩ := Int.eq_ofNat_of_zero_le he
    rw [Nat.one_shiftLeft, zpow_natCast, Int.toNat_natCast]
    exact_mod_cast (round_natCast (α := ℚ) (m * 2 ^ k)).symm
  · next he =>
    obtain ⟨k, hk⟩ := Int.eq_ofNat_of_zero_le (show 0 ≤ -e by omega)
    obtain rfl : e = -k := by omega
    have hhalf : (m : ℚ) * 2 ^ (-(k : ℤ)) + 1 / 2 =
        ((2 * m + 2 ^ k : ℕ) : ℤ) / ((2 ^ (k + 1) : ℕ) : ℚ) := by
      rw [zpow_neg, zpow_natCast]
      push_cast
      field_simp
      ring
    rw [round_eq, hhalf, Rat.floor_intCast_div_natCast, Nat.one_shiftLeft, Nat.one_shiftLeft,
      Int.neg_neg, Int.toNat_natCast]
    norm_cast

theorem floorToInt32_eq (h : Stores f q) : floorToInt32 f = Int32.ofIntClamp ⌊q⌋ := by
  obtain ⟨s, m, e, hv, rfl⟩ := h.exists_value
  rw [floorToInt32, hv, clampToInt32, floor_eq]

theorem roundToUInt64_eq (h : Stores f q) (hq : 0 ≤ q) :
    roundToUInt64 f = UInt64.ofNatClamp (round q).toNat := by
  obtain ⟨s, m, e, hv, rfl⟩ := h.exists_value
  rw [roundToUInt64, hv]
  cases s with
  | false =>
    simp only [Bool.false_eq_true, if_false, Int.cast_natCast]
    rw [← nearestWhole_eq, Int.toNat_natCast]
  | true =>
    -- zero is the only number with a minus that is not below zero
    have hzero : ((-m : ℤ) : ℚ) * 2 ^ e ≤ 0 :=
      mul_nonpos_of_nonpos_of_nonneg (by simp) (zpow_nonneg two_pos.le e)
    simp only [if_true] at hq ⊢
    rw [le_antisymm hzero hq, round_zero]
    rfl

end Ieee

/-! ## Columns -/

theorem toInt_ofIntClamp (n : ℤ) :
    (Int32.ofIntClamp n).toInt = max (-2147483648) (min 2147483647 n) := by
  unfold Int32.ofIntClamp
  split
  · next hlo =>
    split
    · next hhi =>
      rw [Int32.toInt_ofIntLE]
      change -2147483648 ≤ n at hlo
      change n ≤ 2147483647 at hhi
      omega
    · next hhi =>
      change ¬ n ≤ 2147483647 at hhi
      show (2147483647 : ℤ) = _
      omega
  · next hlo =>
    change ¬ -2147483648 ≤ n at hlo
    show (-2147483648 : ℤ) = _
    omega

theorem stores_sixteen : Stores 16 16 := Double.stores_toFloat (w := 16) (by decide)

theorem toInt_columnOf (h : Stores v q) (hq : Fits (q / 16)) :
    (columnOf v).toInt = max (-2147483648) (min 2147483647 ⌊q / 16⌋) := by
  rw [columnOf, Ieee.floorToInt32_eq (h.div stores_sixteen (by norm_num) hq), toInt_ofIntClamp]

/-- Away from the ends of the grid, a column is what lies between its sides. -/
theorem columnOf_eq_iff (h : Stores v q) (hq : Fits (q / 16)) {c : Int32}
    (hlo : Int32.minValue < c) (hhi : c < Int32.maxValue) :
    columnOf v = c ↔ 16 * (c.toInt : ℚ) ≤ q ∧ q < 16 * (c.toInt + 1) := by
  have hclamp : columnOf v = c ↔ ⌊q / 16⌋ = c.toInt := by
    rw [← Int32.toInt_inj, toInt_columnOf h hq]
    rw [Int32.lt_iff_toInt_lt] at hlo hhi
    change -2147483648 < c.toInt at hlo
    change c.toInt < 2147483647 at hhi
    omega
  rw [hclamp, Int.floor_eq_iff, le_div_iff₀ (by norm_num), div_lt_iff₀ (by norm_num), mul_comm 16,
    mul_comm 16]

theorem unpack_column (v : Float) : (v / 16).toModel.unpack =
    UnpackedFloat.unpack .binary64 (UnpackedFloat.pack .binary64
      (UnpackedFloat.div .binary64 v.toModel.unpack (16 : Float).toModel.unpack)) := rfl

theorem columnOf_of_isNaN (h : v.isNaN) : columnOf v = 0 := by
  have hquot : (v / 16).toModel.unpack = .notANumber := by
    rw [unpack_column, UnpackedFloat.isNaN_iff.1 h]
    exact UnpackedFloat.unpack_packedNaN
  rw [columnOf, Ieee.floorToInt32, value_toBits, hquot]
  rfl

theorem columnOf_infinity {s : UnpackedFloat.Sign} (h : v.toModel.unpack = .infinity s) :
    columnOf v = if s == .negative then Int32.minValue else Int32.maxValue := by
  have hquot : (v / 16).toModel.unpack = .infinity s := by
    rw [unpack_column, h]
    cases s <;> rfl
  rw [columnOf, Ieee.floorToInt32, value_toBits, hquot]
  rfl

example : columnOf 20 = 1 := by decide +kernel
example : (⟨-16, 0, -16.5⟩ : Position).chunk = ⟨-1, -2⟩ := by decide +kernel
example : columnOf (-1e12) = Int32.minValue := by decide +kernel

end BlockWorld
