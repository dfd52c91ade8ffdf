import BlockWorld.Bytes.Basic

/-! # Bit strings

Table descriptions are read forwards, lowest bit of each octet first. Entropy-coded data is read
backwards from its last octet, highest bit first, after a final bit that is set.
-/

namespace BlockWorld

namespace Zstd

abbrev Bits := List Bool

namespace Bits

def octetUp (d : UInt8) : Bits := (List.range 8).map fun i => d.toNat.testBit i

def octetDown (d : UInt8) : Bits := (List.range 8).map fun i => d.toNat.testBit (7 - i)

def forward (b : Bytes) : Bits := b.flatMap octetUp

/-- The bits before the final set bit; the last octet must not be zero. -/
def backward? (b : Bytes) : Option Bits :=
  match b.reverse with
  | [] => none
  | d :: r => if d = 0 then none else some (((d :: r).flatMap octetDown).dropWhile (!·) |>.drop 1)

def ofLowFirst : Bits → Nat
  | [] => 0
  | b :: r => b.toNat + 2 * ofLowFirst r

def ofHighFirst (s : Bits) : Nat := s.foldl (fun n b => 2 * n + b.toNat) 0

def takeLow? (k : Nat) (s : Bits) : Option (Nat × Bits) :=
  let head := s.take k
  if head.length = k then some (ofLowFirst head, s.drop k) else none

def takeHigh? (k : Nat) (s : Bits) : Option (Nat × Bits) :=
  let head := s.take k
  if head.length = k then some (ofHighFirst head, s.drop k) else none

/-- The next `k` bits as a number, with zeros beyond the end. -/
def peekHigh (k : Nat) (s : Bits) : Nat :=
  let head := s.take k
  ofHighFirst head <<< (k - head.length)

end Bits

end Zstd

end BlockWorld
