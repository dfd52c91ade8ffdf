import BlockWorld.Bytes.Hex

/-! # Numbers in digits -/

namespace BlockWorld

namespace Text

/-- The number that digits of a base up to sixteen spell; there must be one at least. -/
def digits? (base : Nat) (ds : List Char) : Option Nat :=
  if ds.isEmpty then none
  else ds.foldlM (fun n c =>
    match Hex.value? c with
    | some d => if d < base then some (base * n + d) else none
    | none => none) 0

def integer? : List Char → Option Int
  | '-' :: ds => (digits? 10 ds).map fun n => -(n : Int)
  | '+' :: ds => (digits? 10 ds).map Int.ofNat
  | ds => (digits? 10 ds).map Int.ofNat

def integerIn? (lo hi : Int) (s : List Char) : Option Int :=
  (integer? s).filter fun n => lo ≤ n ∧ n ≤ hi

end Text

end BlockWorld
