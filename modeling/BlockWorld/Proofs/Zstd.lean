import BlockWorld.Packed
import BlockWorld.Proofs.Bytes.Reader
import Mathlib.Data.Nat.Notation

/-! # Frames are read back

A frame of plain blocks holds just the octets that it was made from: each block tells its length and
whether it is the last, and the reader puts the pieces together again. What is packed in a frame is
then read as it is without one.
-/

namespace BlockWorld

namespace Zstd

theorem takeNat?_append (a b : Bytes) :
    takeNat? a.length (a ++ b) = some (Bytes.toNatLE a, b) := by
  rw [takeNat?, Bytes.splitAt?_append]
  rfl

theorem takeNat?_three {n : ℕ} (hn : n < 16777216) (b : Bytes) :
    takeNat? 3 (UInt8.ofNat n :: UInt8.ofNat (n / 256) :: UInt8.ofNat (n / 65536) :: b) =
      some (n, b) := by
  have h := takeNat?_append [UInt8.ofNat n, UInt8.ofNat (n / 256), UInt8.ofNat (n / 65536)] b
  have hvalue :
      Bytes.toNatLE [UInt8.ofNat n, UInt8.ofNat (n / 256), UInt8.ofNat (n / 65536)] = n := by
    simp only [Bytes.toNatLE, UInt8.toNat_ofNat']
    omega
  rw [hvalue] at h
  exact h

def plainBlock (x : Bytes) (last : Bool) : Bytes :=
  let head := 8 * x.length + last.toNat
  UInt8.ofNat head :: UInt8.ofNat (head / 256) :: UInt8.ofNat (head / 65536) :: x

theorem readBlocks_plainBlock {x : Bytes} (hx : x.length ≤ blockLimit) (last : Bool) (m : ℕ)
    (p : Progress) (rest : Bytes) :
    readBlocks blockLimit (m + 1) p (plainBlock x last ++ rest) =
      if last then some (p.out ++ x.toArray, rest)
      else readBlocks blockLimit m { p with out := p.out ++ x.toArray } rest := by
  rw [blockLimit] at hx
  have hlast : last.toNat ≤ 1 := last.toNat_le
  have hhead := takeNat?_three (n := 8 * x.length + last.toNat) (by omega) (x ++ rest)
  have hsize : (8 * x.length + last.toNat) / 8 = x.length := by omega
  have hkind : (8 * x.length + last.toNat) / 2 % 4 = 0 := by omega
  have hstop : (8 * x.length + last.toNat) % 2 = 1 ↔ last := by cases last <;> simp <;> omega
  have hfits : ¬ blockLimit < x.length := by rw [blockLimit]; omega
  simp only [readBlocks, plainBlock, List.cons_append, hhead, Option.bind_eq_bind, Option.bind_some,
    hsize, if_neg hfits, hkind, Bytes.splitAt?_append, Option.map_some, hstop]

theorem plainBlocks_succ (n : ℕ) (b : Bytes) :
    plainBlocks (n + 1) b = plainBlock (b.take 65536) (b.drop 65536).isEmpty ++
      if (b.drop 65536).isEmpty then [] else plainBlocks n (b.drop 65536) := by
  rw [plainBlocks, plainBlock]
  cases (b.drop 65536).isEmpty <;> rfl

theorem readBlocks_plainBlocks (n : ℕ) (b : Bytes) (hn : b.length < n) (m : ℕ)
    (hm : (plainBlocks n b).length ≤ m) (p : Progress) (rest : Bytes) :
    readBlocks blockLimit m p (plainBlocks n b ++ rest) = some (p.out ++ b.toArray, rest) := by
  induction n generalizing b m p with
  | zero => omega
  | succ n ih =>
    have htake : (b.take 65536).length ≤ blockLimit := by
      rw [List.length_take, blockLimit]
      omega
    rw [plainBlocks_succ] at hm ⊢
    obtain _ | m := m
    · simp [plainBlock] at hm
    rw [List.append_assoc, readBlocks_plainBlock htake]
    split
    · rename_i hempty
      have hall : b.take 65536 = b :=
        List.take_of_length_le (List.drop_eq_nil_iff.1 (List.isEmpty_iff.1 hempty))
      rw [hall, List.nil_append]
    · rename_i hmore
      have hlong : 65536 < b.length := by
        rw [List.isEmpty_iff, List.drop_eq_nil_iff] at hmore
        omega
      rw [if_neg hmore] at hm
      have hlength : (plainBlocks n (b.drop 65536)).length ≤ m := by
        rw [List.length_append, plainBlock] at hm
        simp only [List.length_cons] at hm
        omega
      have hjoin : (b.take 65536).toArray ++ (b.drop 65536).toArray = b.toArray := by simp
      rw [ih (b.drop 65536) (by rw [List.length_drop]; omega) m hlength, Array.append_assoc, hjoin]

theorem readHeader_plain (b : Bytes) :
    readHeader (0x00 :: 0x58 :: b) =
      some ({ contentSize := none, windowSize := 2097152, checked := false }, b) := by
  have hwindow : takeNat? 1 (0x58 :: b) = some (88, b) := takeNat?_append [0x58] b
  have hnothing : takeNat? 0 b = some (0, b) := takeNat?_append [] b
  have hsmall : ¬ ((0 : ℕ) ≠ 0 ∨ 134217728 < 2097152) := by omega
  simp only [readHeader, UInt8.toNat_zero, Nat.zero_testBit, Bool.false_eq_true, if_false, hwindow,
    Nat.zero_mod, Nat.zero_div, List.getD_cons_zero, Option.bind_eq_bind, Option.bind_some,
    hnothing, Nat.reduceDiv, Nat.reduceAdd, Nat.reduceShiftLeft, Nat.reduceMod, Nat.mul_zero,
    Nat.add_zero]
  rw [if_neg hsmall]
  rfl

theorem readFrame_plain (b : Bytes) :
    readFrame (0x00 :: 0x58 :: plainBlocks (b.length + 1) b) = some (b, []) := by
  have hblocks := readBlocks_plainBlocks (b.length + 1) b (Nat.lt_succ_self _)
    (plainBlocks (b.length + 1) b).length (Nat.le_refl _) {} []
  have hlimit : min 2097152 blockLimit = blockLimit := rfl
  rw [List.append_nil] at hblocks
  simp only [readFrame, readHeader_plain, hlimit, hblocks, Option.bind_eq_bind, Option.bind_some]
  simp [readChecksum]

/-- What was compressed is what is decompressed. -/
theorem decompress_compress (b : Bytes) : decompress (compress b) = some b := by
  have hmagic : ∀ rest, takeNat? 4 (0x28 :: 0xb5 :: 0x2f :: 0xfd :: rest) =
      some (0xfd2fb528, rest) := takeNat?_append [0x28, 0xb5, 0x2f, 0xfd]
  rw [decompress, compress]
  simp only [List.isEmpty_cons, Bool.false_eq_true, if_false, List.length_cons, readFrames, hmagic,
    readFrame_plain, Option.bind_eq_bind, Option.bind_some, if_true, List.append_nil]
  rfl

end Zstd

section Packed

variable {α : Type} {r : Cbor.Read α} {b : Bytes} {a : α} {e : Cbor.Error}

theorem Reads.unpacked (h : Reads r b a) (trailing : Bytes) :
    unpack r (pack (b ++ trailing)) = .ok a := by
  rw [unpack, pack, Zstd.decompress_compress]
  dsimp only [Cbor.Read.first]
  rw [h trailing]

theorem Refuses.unpacked (h : Refuses r b e) (trailing : Bytes) :
    unpack r (pack (b ++ trailing)) = .error (.item e) := by
  rw [unpack, pack, Zstd.decompress_compress]
  dsimp only [Cbor.Read.first]
  rw [h trailing]

end Packed

end BlockWorld
