import BlockWorld.Proofs.Bytes.Reader
import BlockWorld.Wire.Field
import Mathlib.Data.Nat.Notation

/-! # Fields are read back

A reader reads a form as a value if it takes just that form from the front of any input. Readings
are put together as the readers are, so a packet is read back if its fields are.
-/

namespace BlockWorld.Wire.Read

theorem reads_octet (d : UInt8) : Reads octet [d] d := fun _ => rfl

theorem reads_octets (b : Bytes) : Reads (octets b.length) b b := by
  intro rest
  rw [octets, Bytes.splitAt?_append]

theorem reads_nat {w n : ℕ} (h : n < Nat.pow 256 w) : Reads (nat w) (Bytes.ofNat w n) n := by
  have ho := reads_octets (Bytes.ofNat w n)
  rw [Bytes.length_ofNat] at ho
  have hm := ho.map Bytes.toNat
  rwa [Bytes.toNat_ofNat h] at hm

theorem reads_int8 (v : Int8) : Reads int8 (putInt8 v) v := (reads_octet v.toUInt8).map UInt8.toInt8

theorem reads_int32 (v : Int32) : Reads int32 (putInt32 v) v := by
  have h := (reads_nat (w := 4) v.toUInt32.toNat_lt).map fun n => (UInt32.ofNat n).toInt32
  rwa [UInt32.ofNat_toNat] at h

theorem reads_int64 (v : Int64) : Reads int64 (putInt64 v) v := by
  have h := (reads_nat (w := 8) v.toUInt64.toNat_lt).map fun n => (UInt64.ofNat n).toInt64
  rwa [UInt64.ofNat_toNat] at h

theorem reads_bool (v : Bool) : Reads bool (putBool v) v := by
  have h := (reads_octet (if v then 1 else 0)).map (· != 0)
  cases v <;> exact h

theorem putString_eq_ok_iff {s : String} {b : Bytes} :
    putString s = .ok b ↔
      s.utf8ByteSize ≤ maxStringLength ∧ b = Bytes.ofNat 2 (utf8 s).length ++ utf8 s := by
  rw [putString, ← length_utf8]
  by_cases h : (utf8 s).length ≤ maxStringLength
  · simp [h, eq_comm]
  · simp [h]

theorem reads_string {s : String} {b : Bytes} (h : putString s = .ok b) : Reads string b s := by
  obtain ⟨hle, rfl⟩ := putString_eq_ok_iff.1 h
  rw [← length_utf8] at hle
  have hlt : (utf8 s).length < Nat.pow 256 2 := Nat.lt_of_le_of_lt hle (by decide)
  refine (reads_nat hlt).bind ?_
  rw [if_pos hle]
  refine (reads_octets (utf8 s)).bind_nil ?_
  rw [text?_utf8]
  exact .pure s

end BlockWorld.Wire.Read
