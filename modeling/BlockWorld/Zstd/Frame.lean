import BlockWorld.Digest.XxHash64
import BlockWorld.Zstd.Huffman
import BlockWorld.Zstd.Sequence

/-! # Compressed frames

A file is a row of frames: data frames, whose blocks hold octets as they are, one octet repeated, or
literals and sequences; and frames to be passed over. `decompress` reads all of them and refuses
anything else, frames of older formats among them; `compress` writes one frame whose blocks hold the
octets as they are.
-/

namespace BlockWorld

namespace Zstd

def blockLimit : Nat := 131072

/-- What a data frame carries from block to block. -/
structure Progress where
  out : Array UInt8 := #[]
  huffman : Option HuffmanTable := none
  tables : SequenceTables := {}
  recent : Recent := {}

def takeNat? (w : Nat) (b : Bytes) : Option (Nat × Bytes) :=
  (Bytes.splitAt? w b).map fun (x, rest) => (Bytes.toNatLE x, rest)

/-! ## Literals -/

/-- Decodes `n` symbols from four streams, whose lengths are told first but for the last. -/
def decodeFour (t : HuffmanTable) (n : Nat) (b : Bytes) : Option (Array UInt8) := do
  let (a, b) ← takeNat? 2 b
  let (c, b) ← takeNat? 2 b
  let (d, b) ← takeNat? 2 b
  let (first, b) ← Bytes.splitAt? a b
  let (second, b) ← Bytes.splitAt? c b
  let (third, b) ← Bytes.splitAt? d b
  let part := (n + 3) / 4
  if n < 3 * part then none
  else
    let out ← t.decode part #[] first
    let out ← t.decode part out second
    let out ← t.decode part out third
    t.decode (n - 3 * part) out b

/-- The widths of the size fields of coded literals, and whether there are four streams. -/
def codedSizes : Nat → Nat × Nat × Bool
  | 0 => (3, 10, false)
  | 1 => (3, 10, true)
  | 2 => (4, 14, true)
  | _ => (5, 18, true)

def readCodedLiterals (last : Option HuffmanTable) (fresh : Bool) (format : Nat) (b : Bytes) :
    Option (Bytes × Option HuffmanTable × Bytes) := do
  let (octets, width, four) := codedSizes format
  let (head, b) ← takeNat? octets b
  let n := head / 16 % 1 <<< width
  let size := head >>> (4 + width) % 1 <<< width
  let (coded, b) ← Bytes.splitAt? size b
  let (t, coded) ← if fresh then HuffmanTable.read coded else last.map fun t => (t, coded)
  if blockLimit < n then none
  else
    let out ← if four then decodeFour t n coded else t.decode n #[] coded
    return (out.toList, some t, b)

/-- The size of plain literals, told in one to three octets. -/
def readPlainSize (format : Nat) (b : Bytes) : Option (Nat × Bytes) :=
  match format with
  | 1 => (takeNat? 2 b).map fun (n, b) => (n / 16, b)
  | 3 => (takeNat? 3 b).map fun (n, b) => (n / 16, b)
  | _ => (takeNat? 1 b).map fun (n, b) => (n / 8, b)

/-- The literals of a block, the Huffman table that they leave, and what follows. -/
def readLiterals (last : Option HuffmanTable) (b : Bytes) :
    Option (Bytes × Option HuffmanTable × Bytes) := do
  match b with
  | [] => none
  | d :: _ =>
    let format := d.toNat / 4 % 4
    match d.toNat % 4 with
    | 0 =>
      let (n, b) ← readPlainSize format b
      let (x, b) ← Bytes.splitAt? n b
      if blockLimit < n then none else some (x, last, b)
    | 1 =>
      let (n, b) ← readPlainSize format b
      match b with
      | [] => none
      | x :: b => if blockLimit < n then none else some (List.replicate n x, last, b)
    | 2 => readCodedLiterals last true format b
    | _ => readCodedLiterals last false format b

/-! ## Blocks -/

/-- The effect of a block of literals and sequences, which writes at most `limit` octets. One of no
octets has none. -/
def applyBlock (limit : Nat) (p : Progress) : Bytes → Option Progress
  | [] => some p
  | b => do
    let (literals, huffman, b) ← readLiterals p.huffman b
    let (sequences, tables) ← readSequences p.tables b
    let (out, recent) ← execute sequences p.recent literals p.out
    if limit < out.size - p.out.size then none else some { out, huffman, tables, recent }

/-- Reads blocks up to the last, of at most `limit` octets each, as they stand and as they are
written. -/
def readBlocks (limit : Nat) : (n : Nat) → Progress → Bytes → Option (Array UInt8 × Bytes)
  | 0, _, _ => none
  | n + 1, p, b => do
    let (head, b) ← takeNat? 3 b
    let size := head / 8
    if limit < size then none
    else
      let (p, b) ← match head / 2 % 4 with
        | 0 => (Bytes.splitAt? size b).map fun (x, b) => ({ p with out := p.out ++ x.toArray }, b)
        | 1 => match b with
          | [] => none
          | x :: b => some ({ p with out := p.out ++ Array.replicate size x }, b)
        | 2 => (Bytes.splitAt? size b).bind fun (x, b) => (applyBlock limit p x).map fun p => (p, b)
        | _ => none
      if head % 2 = 1 then some (p.out, b) else readBlocks limit n p b

/-! ## Frames -/

structure Header where
  contentSize : Option Nat
  windowSize : Nat
  checked : Bool

/-- Reads what follows the magic number. There are no dictionaries. -/
def readHeader : Bytes → Option (Header × Bytes)
  | [] => none
  | d :: b => do
    let d := d.toNat
    if d.testBit 3 then none
    else
      let single := d.testBit 5
      let (window, b) ← if single then some (0, b) else takeNat? 1 b
      let (dictionary, b) ← takeNat? ([0, 1, 2, 4].getD (d % 4) 0) b
      let width := match d / 64 with
        | 0 => if single then 1 else 0
        | k => 1 <<< k
      let (size, b) ← takeNat? width b
      let size := if width = 2 then size + 256 else size
      let base := 1 <<< (10 + window / 8)
      let windowSize := if single then size else base + base / 8 * (window % 8)
      if dictionary ≠ 0 ∨ 134217728 < windowSize then none
      else
        return (⟨if width = 0 then none else some size, windowSize, d.testBit 2⟩, b)

def readChecksum (h : Header) (out : Bytes) (b : Bytes) : Option Bytes :=
  if h.checked then
    match takeNat? 4 b with
    | some (sum, b) => if sum = (XxHash64.hash out).toNat % 4294967296 then some b else none
    | none => none
  else some b

def readFrame (b : Bytes) : Option (Bytes × Bytes) := do
  let (h, b) ← readHeader b
  let (out, b) ← readBlocks (min h.windowSize blockLimit) b.length {} b
  if h.contentSize.any (· ≠ out.size) then none
  else
    let out := out.toList
    return (out, ← readChecksum h out b)

def readFrames : (n : Nat) → Bytes → Option Bytes
  | _, [] => some []
  | 0, _ :: _ => none
  | n + 1, d :: b => do
    let (magic, b) ← takeNat? 4 (d :: b)
    if magic = 0xfd2fb528 then
      let (out, b) ← readFrame b
      return out ++ (← readFrames n b)
    else if magic / 16 = 0x184d2a5 then
      let (size, b) ← takeNat? 4 b
      let (_, b) ← Bytes.splitAt? size b
      readFrames n b
    else none

/-- What the frames of a file hold. A file without a frame is refused. -/
def decompress (b : Bytes) : Option Bytes := if b.isEmpty then none else readFrames b.length b

def plainBlocks : (n : Nat) → Bytes → Bytes
  | 0, _ => []
  | n + 1, b =>
    let x := b.take 65536
    let rest := b.drop 65536
    let last := if rest.isEmpty then 1 else 0
    let head := 8 * x.length + last
    UInt8.ofNat head :: UInt8.ofNat (head / 256) :: UInt8.ofNat (head / 65536) ::
      (x ++ if rest.isEmpty then [] else plainBlocks n rest)

/-- A frame that holds the octets as they are. -/
def compress (b : Bytes) : Bytes :=
  0x28 :: 0xb5 :: 0x2f :: 0xfd :: 0x00 :: 0x58 :: plainBlocks (b.length + 1) b

end Zstd

end BlockWorld
