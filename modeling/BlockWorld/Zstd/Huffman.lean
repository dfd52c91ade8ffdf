import BlockWorld.Zstd.Fse

/-! # Huffman tables

A symbol of weight `w` takes `2 ^ (w - 1)` of the places of a table, the lightest symbols the first
ones; the next bits of the input, as many as the longest code has, name a place.
-/

namespace BlockWorld

namespace Zstd

structure HuffmanTable where
  /-- The length of the longest code. -/
  maxBits : Nat
  /-- For each place the symbol and the length of its code. -/
  places : Array (UInt8 × Nat)

namespace HuffmanTable

/-- The states of two tables take turns until the bits are used up; each then gives one more
weight. -/
def takeTurns (t : FseTable) : (n : Nat) → State → State → (done : List Nat) → Bits →
    Option (List Nat)
  | 0, _, _, _, _ => none
  | n + 1, p, q, done, s =>
    match t.next p s with
    | none => some (q.symbol :: p.symbol :: done).reverse
    | some (p', s) => takeTurns t n q p' (p.symbol :: done) s

def readCodedWeights (b : Bytes) : Option (List Nat) := do
  let (t, rest) ← FseTable.read 6 12 b
  let bits ← Bits.backward? rest
  let (p, s) ← t.start bits
  let (q, s) ← t.start s
  let weights ← takeTurns t 255 p q [] s
  if weights.length < 256 then some weights else none

def halfOctets (n : Nat) (b : Bytes) : List Nat :=
  (b.flatMap fun d => [d.toNat / 16, d.toNat % 16]).take n

/-- The table for these weights and one more symbol, whose weight fills the table up to a power of
two. -/
def build (weights : List Nat) : Option HuffmanTable := do
  let total := weights.foldl (fun n w => if w = 0 then n else n + 1 <<< (w - 1)) 0
  if total = 0 then none
  else
    let maxBits := total.log2 + 1
    let left := 1 <<< maxBits - total
    if 11 < maxBits ∨ 1 <<< left.log2 ≠ left then none
    else
      let numbered := (weights ++ [left.log2 + 1]).zipIdx
      let places := (List.range maxBits).flatMap fun i =>
        (numbered.filter (·.1 = i + 1)).flatMap fun (_, symbol) =>
          List.replicate (1 <<< i) (UInt8.ofNat symbol, maxBits - i)
      return ⟨maxBits, places.toArray⟩

def read : Bytes → Option (HuffmanTable × Bytes)
  | [] => none
  | d :: b => do
    if d.toNat < 128 then
      let (coded, rest) ← Bytes.splitAt? d.toNat b
      return (← build (← readCodedWeights coded), rest)
    else
      let n := d.toNat - 127
      let (plain, rest) ← Bytes.splitAt? ((n + 1) / 2) b
      return (← build (halfOctets n plain), rest)

/-- Decodes `n` symbols onto `out`; the bits must be used up then. -/
def decodeBits (t : HuffmanTable) : (n : Nat) → (out : Array UInt8) → Bits → Option (Array UInt8)
  | 0, out, s => if s.isEmpty then some out else none
  | n + 1, out, s =>
    match t.places[Bits.peekHigh t.maxBits s]? with
    | none => none
    | some (symbol, width) =>
      match Bits.takeHigh? width s with
      | none => none
      | some (_, s) => decodeBits t n (out.push symbol) s

def decode (t : HuffmanTable) (n : Nat) (out : Array UInt8) (b : Bytes) :
    Option (Array UInt8) := do
  decodeBits t n out (← Bits.backward? b)

end HuffmanTable

end Zstd

end BlockWorld
