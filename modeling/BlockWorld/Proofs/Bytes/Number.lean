import BlockWorld.Bytes.Basic
import Mathlib.Tactic.Ring

/-! # Octets as numbers

Octets are the form of the number that they are read as, so the forms of one width are the strings
of that length.
-/

namespace BlockWorld.Bytes

theorem foldl_eq (b : Bytes) (a : ℕ) :
    b.foldl (fun n d => n * 256 + d.toNat) a = a * 256 ^ b.length + b.toNat := by
  induction b generalizing a with
  | nil => simp [toNat]
  | cons d b ih =>
    rw [toNat, List.foldl_cons, List.foldl_cons, ih, ih, List.length_cons, Nat.pow_succ']
    ring

theorem toNat_cons (d : UInt8) (b : Bytes) :
    toNat (d :: b) = d.toNat * 256 ^ b.length + b.toNat := by
  rw [toNat, List.foldl_cons, foldl_eq]
  simp

theorem toNat_lt (b : Bytes) : b.toNat < 256 ^ b.length := by
  induction b with
  | nil => simp [toNat]
  | cons d b ih =>
    have hd : d.toNat + 1 ≤ 256 := d.toNat_lt
    have hmul := Nat.mul_le_mul_right (256 ^ b.length) hd
    rw [Nat.succ_mul] at hmul
    rw [toNat_cons, List.length_cons, Nat.pow_succ']
    omega

theorem shiftRight_add (w a n : ℕ) : (a * 256 ^ w + n) >>> (8 * w) = a + n >>> (8 * w) := by
  have hw : 256 ^ w = 2 ^ (8 * w) := by rw [Nat.pow_mul]
  rw [Nat.shiftRight_eq_div_pow, Nat.shiftRight_eq_div_pow, hw, Nat.mul_comm,
    Nat.mul_add_div (Nat.two_pow_pos _)]

theorem ofNat_add (w a n : ℕ) : ofNat w (a * 256 ^ w + n) = ofNat w n := by
  induction w generalizing a with
  | zero => rfl
  | succ w ih =>
    have ha : a * 256 ^ (w + 1) = a * 256 * 256 ^ w := by ring
    rw [ofNat, ofNat, ha, ih, shiftRight_add]
    congr 1
    simp [UInt8.ofNat_add, UInt8.ofNat_mul]

theorem ofNat_toNat (b : Bytes) : ofNat b.length b.toNat = b := by
  induction b with
  | nil => rfl
  | cons d b ih =>
    have hb : toNat b >>> (8 * b.length) = 0 := by
      rw [Nat.shiftRight_eq_div_pow, Nat.pow_mul]
      exact Nat.div_eq_of_lt (toNat_lt b)
    rw [List.length_cons, ofNat, toNat_cons, ofNat_add, ih, shiftRight_add, hb, Nat.add_zero,
      UInt8.ofNat_toNat]

end BlockWorld.Bytes
