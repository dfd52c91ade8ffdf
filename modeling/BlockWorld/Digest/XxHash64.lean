import BlockWorld.Bytes.Basic

/-! # XXH64

The checksum of compressed frames, with the seed zero.
-/

namespace BlockWorld

namespace XxHash64

def prime1 : UInt64 := 0x9e3779b185ebca87
def prime2 : UInt64 := 0xc2b2ae3d27d4eb4f
def prime3 : UInt64 := 0x165667b19e3779f9
def prime4 : UInt64 := 0x85ebca77c2b2ae63
def prime5 : UInt64 := 0x27d4eb2f165667c5

def rotate (x n : UInt64) : UInt64 := (x <<< n) ||| (x >>> (64 - n))

def round (acc lane : UInt64) : UInt64 := rotate (acc + lane * prime2) 31 * prime1

def lane (b : Bytes) : UInt64 := UInt64.ofNat (Bytes.toNatLE b)

structure Accumulators where
  a : UInt64
  b : UInt64
  c : UInt64
  d : UInt64

def start : Accumulators := ⟨prime1 + prime2, prime2, 0, 0 - prime1⟩

/-- Works as many whole stripes of 32 octets as there are, at most `n`, and leaves the rest. -/
def stripes : (n : Nat) → Accumulators → Bytes → Accumulators × Bytes
  | 0, s, m => (s, m)
  | n + 1, s, m =>
    match Bytes.splitAt? 32 m with
    | none => (s, m)
    | some (x, rest) =>
      stripes n ⟨round s.a (lane (x.take 8)), round s.b (lane ((x.drop 8).take 8)),
        round s.c (lane ((x.drop 16).take 8)), round s.d (lane (x.drop 24))⟩ rest

def merge (h acc : UInt64) : UInt64 := (h ^^^ round 0 acc) * prime1 + prime4

def converge (s : Accumulators) : UInt64 :=
  let h := rotate s.a 1 + rotate s.b 7 + rotate s.c 12 + rotate s.d 18
  merge (merge (merge (merge h s.a) s.b) s.c) s.d

/-- Works in what is left after the stripes: words of eight and of four octets, then octets. -/
def tail (h : UInt64) : Bytes → UInt64
  | a :: b :: c :: d :: e :: f :: g :: i :: r =>
    tail (rotate (h ^^^ round 0 (lane [a, b, c, d, e, f, g, i])) 27 * prime1 + prime4) r
  | a :: b :: c :: d :: r =>
    tail (rotate (h ^^^ (lane [a, b, c, d] * prime1)) 23 * prime2 + prime3) r
  | a :: r => tail (rotate (h ^^^ (a.toUInt64 * prime5)) 11 * prime1) r
  | [] => h

def avalanche (h : UInt64) : UInt64 :=
  let h := (h ^^^ (h >>> 33)) * prime2
  let h := (h ^^^ (h >>> 29)) * prime3
  h ^^^ (h >>> 32)

def hash (m : Bytes) : UInt64 :=
  let (s, rest) := stripes m.length start m
  let h := if m.length < 32 then prime5 else converge s
  avalanche (tail (h + UInt64.ofNat m.length) rest)

end XxHash64

end BlockWorld
