import BlockWorld.Zstd.Fse

/-! # Sequences

A sequence copies some literals and then repeats what was written a given distance before. Lengths
and distances are coded as the state of a table and extra bits.
-/

namespace BlockWorld

namespace Zstd

structure Sequence where
  literals : Nat
  /-- A distance, or one of the last three distances if at most three. -/
  offset : Nat
  length : Nat

/-- Least value and number of extra bits of each code for a count of literals. -/
def literalCodes : Array (Nat × Nat) :=
  ((List.range 16).map fun n => (n, 0)).toArray ++
    #[(16, 1), (18, 1), (20, 1), (22, 1), (24, 2), (28, 2), (32, 3), (40, 3), (48, 4), (64, 6),
      (128, 7), (256, 8), (512, 9), (1024, 10), (2048, 11), (4096, 12), (8192, 13), (16384, 14),
      (32768, 15), (65536, 16)]

def lengthCodes : Array (Nat × Nat) :=
  ((List.range 32).map fun n => (n + 3, 0)).toArray ++
    #[(35, 1), (37, 1), (39, 1), (41, 1), (43, 2), (47, 2), (51, 3), (59, 3), (67, 4), (83, 4),
      (99, 5), (131, 7), (259, 8), (515, 9), (1027, 10), (2051, 11), (4099, 12), (8195, 13),
      (16387, 14), (32771, 15), (65539, 16)]

def defaultLiterals : FseTable :=
  .build 6 [4, 3, 2, 2, 2, 2, 2, 2, 2, 2, 2, 2, 2, 1, 1, 1, 2, 2, 2, 2, 2, 2, 2, 2, 2, 3, 2, 1, 1,
    1, 1, 1, -1, -1, -1, -1]

def defaultOffsets : FseTable :=
  .build 5 [1, 1, 1, 1, 1, 1, 2, 2, 2, 1, 1, 1, 1, 1, 1, 1, 1, 1, 1, 1, 1, 1, 1, 1, -1, -1, -1, -1,
    -1]

def defaultLengths : FseTable :=
  .build 6 [1, 4, 3, 2, 2, 2, 2, 2, 2, 1, 1, 1, 1, 1, 1, 1, 1, 1, 1, 1, 1, 1, 1, 1, 1, 1, 1, 1, 1,
    1, 1, 1, 1, 1, 1, 1, 1, 1, 1, 1, 1, 1, 1, 1, 1, 1, -1, -1, -1, -1, -1, -1, -1]

/-- The tables in use, which later blocks may repeat. -/
structure SequenceTables where
  literals : Option FseTable := none
  offsets : Option FseTable := none
  lengths : Option FseTable := none

/-- Finds a table as its mode tells: the default, one symbol, a description, or the last one. -/
def chooseTable (mode maxLog symbols : Nat) (default : FseTable) (last : Option FseTable)
    (b : Bytes) : Option (FseTable × Bytes) :=
  match mode with
  | 0 => some (default, b)
  | 1 =>
    match b with
    | d :: rest => if d.toNat < symbols then some (.single d.toNat, rest) else none
    | [] => none
  | 2 => FseTable.read maxLog symbols b
  | _ => last.map fun t => (t, b)

def codedValue (codes : Array (Nat × Nat)) (code : Nat) (s : Bits) : Option (Nat × Bits) := do
  let (base, width) ← codes[code]?
  let (extra, s) ← Bits.takeHigh? width s
  return (base + extra, s)

/-- Decodes `n` sequences from the states of the three tables; the bits must be used up then. -/
def decodeSequences (lits offs lens : FseTable) : (n : Nat) → State → State → State →
    (done : List Sequence) → Bits → Option (List Sequence)
  | 0, _, _, _, done, s => if s.isEmpty then some done.reverse else none
  | n + 1, lit, off, len, done, s => do
    let (low, s) ← Bits.takeHigh? off.symbol s
    let (length, s) ← codedValue lengthCodes len.symbol s
    let (literals, s) ← codedValue literalCodes lit.symbol s
    let done := ⟨literals, 1 <<< off.symbol + low, length⟩ :: done
    match n with
    | 0 => if s.isEmpty then some done.reverse else none
    | _ + 1 =>
      let (lit, s) ← lits.next lit s
      let (len, s) ← lens.next len s
      let (off, s) ← offs.next off s
      decodeSequences lits offs lens n lit off len done s

def readCount : Bytes → Option (Nat × Bytes)
  | [] => none
  | a :: b =>
    if a.toNat < 128 then some (a.toNat, b)
    else
      match b with
      | [] => none
      | c :: b =>
        if a.toNat < 255 then some ((a.toNat - 128) * 256 + c.toNat, b)
        else
          match b with
          | [] => none
          | d :: b => some (c.toNat + 256 * d.toNat + 32512, b)

def readSequences (tables : SequenceTables) (b : Bytes) :
    Option (List Sequence × SequenceTables) := do
  let (n, b) ← readCount b
  if n = 0 then if b.isEmpty then some ([], tables) else none
  else
    match b with
    | [] => none
    | modes :: b =>
      let mode (i : Nat) : Nat := modes.toNat >>> (2 * i) % 4
      if mode 0 ≠ 0 then none
      else
        let (lits, b) ← chooseTable (mode 3) 9 36 defaultLiterals tables.literals b
        let (offs, b) ← chooseTable (mode 2) 8 32 defaultOffsets tables.offsets b
        let (lens, b) ← chooseTable (mode 1) 9 53 defaultLengths tables.lengths b
        let s ← Bits.backward? b
        let (lit, s) ← lits.start s
        let (off, s) ← offs.start s
        let (len, s) ← lens.start s
        let found ← decodeSequences lits offs lens n lit off len [] s
        return (found, ⟨lits, offs, lens⟩)

/-! ## Execution -/

/-- The last three distances, latest first. -/
structure Recent where
  first : Nat := 1
  second : Nat := 4
  third : Nat := 8

/-- The distance that an offset means. With no literals the recent distances count from the
second, and the last choice is one less than the latest. -/
def Recent.resolve (r : Recent) (offset literals : Nat) : Nat × Recent :=
  if 3 < offset then (offset - 3, ⟨offset - 3, r.first, r.second⟩)
  else
    match if literals = 0 then offset + 1 else offset with
    | 1 => (r.first, r)
    | 2 => (r.second, ⟨r.second, r.first, r.third⟩)
    | 3 => (r.third, ⟨r.third, r.first, r.second⟩)
    | _ => (r.first - 1, ⟨r.first - 1, r.first, r.second⟩)

def repeatFrom (distance : Nat) : (n : Nat) → Array UInt8 → Array UInt8
  | 0, out => out
  | n + 1, out => repeatFrom distance n (out.push (out.getD (out.size - distance) 0))

/-- Carries out sequences on what was written before, and copies what literals are left. -/
def execute : List Sequence → Recent → (literals : Bytes) → Array UInt8 →
    Option (Array UInt8 × Recent)
  | [], r, literals, out => some (out ++ literals.toArray, r)
  | q :: qs, r, literals, out => do
    let (copied, literals) ← Bytes.splitAt? q.literals literals
    let out := out ++ copied.toArray
    let (distance, r) := r.resolve q.offset q.literals
    if distance = 0 ∨ out.size < distance then none
    else execute qs r literals (repeatFrom distance q.length out)

end Zstd

end BlockWorld
