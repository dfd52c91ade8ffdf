/-! # Byte strings

Byte strings are lists of octets. A natural number below `256 ^ w` has one form of width `w`,
most or least significant octet first, and `toNat_ofNat` reads it back.
-/

namespace BlockWorld

abbrev Bytes := List UInt8

namespace Bytes

/-- The `w` lowest octets of `n`, most significant first. -/
def ofNat : (w : Nat) → (n : Nat) → Bytes
  | 0, _ => []
  | w + 1, n => UInt8.ofNat (n >>> (8 * w)) :: ofNat w n

/-- The number whose octets are `b`, most significant first. -/
def toNat (b : Bytes) : Nat := b.foldl (fun n d => n * 256 + d.toNat) 0

def toNatLE : Bytes → Nat
  | [] => 0
  | d :: b => d.toNat + 256 * toNatLE b

@[simp] theorem length_ofNat (w n : Nat) : (ofNat w n).length = w := by
  induction w with
  | zero => rfl
  | succ w ih => simp [ofNat, ih]

theorem foldl_ofNat (w n a : Nat) :
    (ofNat w n).foldl (fun n d => n * 256 + d.toNat) a =
      a * Nat.pow 256 w + n % Nat.pow 256 w := by
  induction w generalizing a with
  | zero => simp [ofNat, Nat.mod_one]
  | succ w ih =>
    have h : n % Nat.pow 256 (w + 1) =
        n / Nat.pow 256 w % 256 * Nat.pow 256 w + n % Nat.pow 256 w := by
      rw [Nat.pow_eq, Nat.pow_eq, Nat.pow_succ, Nat.mod_mul, Nat.mul_comm _ (_ % 256),
        Nat.add_comm]
    have hs : n >>> (8 * w) = n / Nat.pow 256 w := by
      rw [Nat.shiftRight_eq_div_pow, Nat.pow_mul]
      rfl
    rw [ofNat, List.foldl_cons, ih, h, hs, Nat.pow_eq, Nat.pow_eq, Nat.pow_succ,
      UInt8.toNat_ofNat', Nat.add_mul, Nat.mul_assoc, Nat.mul_comm 256, Nat.add_assoc]

theorem toNat_ofNat {w n : Nat} (h : n < Nat.pow 256 w) : toNat (ofNat w n) = n := by
  rw [toNat, foldl_ofNat, Nat.mod_eq_of_lt h, Nat.zero_mul, Nat.zero_add]

def splitAt? (n : Nat) (b : Bytes) : Option (Bytes × Bytes) :=
  let head := b.take n
  if head.length = n then some (head, b.drop n) else none

theorem splitAt?_append (a b : Bytes) : splitAt? a.length (a ++ b) = some (a, b) := by
  simp [splitAt?]

theorem splitAt?_eq_some_iff {n : Nat} {b x y : Bytes} :
    splitAt? n b = some (x, y) ↔ x.length = n ∧ b = x ++ y := by
  constructor
  · intro h
    simp only [splitAt?] at h
    split at h
    · rename_i hn
      obtain ⟨rfl, rfl⟩ := by simpa using h
      exact ⟨hn, (List.take_append_drop n b).symm⟩
    · cases h
  · rintro ⟨rfl, rfl⟩
    exact splitAt?_append x y

end Bytes

end BlockWorld
