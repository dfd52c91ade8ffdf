import BlockWorld.Ieee

/-! # Reading decimal numbers

A decimal is a sign, digits with at most one point, and an exponent. It is read as the nearest
double, ties to even, whatever its length. The words for infinity and for no number are read too.
-/

namespace BlockWorld

namespace Decimal

inductive ReadError
  | empty
  | invalid
  deriving DecidableEq

def ReadError.message : ReadError → String
  | .empty => "cannot parse float from empty string"
  | .invalid => "invalid float literal"

def isDigit (c : Char) : Bool := '0' ≤ c && c ≤ '9'

def ofDigits (ds : List Char) : Nat := ds.foldl (fun n c => 10 * n + (c.toNat - 48)) 0

def splitSign : List Char → Bool × List Char
  | '-' :: r => (true, r)
  | '+' :: r => (false, r)
  | r => (false, r)

/-- The magnitude `n * 10 ^ k` as the pattern of the nearest double. Beyond the clear limits of the
format the power is not worked out. -/
def toDouble (n : Nat) (k : Int) : Nat :=
  let size : Int := (Nat.toDigits 10 n).length
  if n = 0 ∨ size + k < -400 then 0
  else if 400 < size + k then Ieee.double.infinity
  else if 0 ≤ k then Ieee.double.roundMagnitude (n * Nat.pow 10 k.toNat) 0
  else
    let d := Nat.pow 10 (-k).toNat
    let shift := 70 + d.log2 - n.log2
    let q := (n <<< shift) / d
    let rest := if (n <<< shift) % d = 0 then 0 else 1
    Ieee.double.roundMagnitude (2 * q + rest) (-1 - (shift : Int))

/-- An exponent after its mark: an optional sign and digits. -/
def readExponent (s : List Char) : Option Int :=
  let (negative, ds) := splitSign s
  if ds.isEmpty ∨ !ds.all isDigit then none
  else some (if negative then -(ofDigits ds : Int) else ofDigits ds)

/-- An unsigned decimal as `n * 10 ^ k`. -/
def readMagnitude (s : List Char) : Option (Nat × Int) :=
  let whole := s.takeWhile isDigit
  let r := s.dropWhile isDigit
  let (fraction, r) := match r with
    | '.' :: r => (r.takeWhile isDigit, r.dropWhile isDigit)
    | r => ([], r)
  if whole.isEmpty ∧ fraction.isEmpty then none
  else
    let n := ofDigits (whole ++ fraction)
    let k : Int := -(fraction.length : Int)
    match r with
    | [] => some (n, k)
    | c :: r => if c = 'e' ∨ c = 'E' then (readExponent r).map fun e => (n, k + e) else none

def read (s : List Char) : Except ReadError Float :=
  if s.isEmpty then .error .empty
  else
    let (negative, r) := splitSign s
    let word := String.ofList (r.map Char.toLower)
    let bits? : Option Nat :=
      if word = "nan" then some 0x7ff8000000000000
      else if word = "inf" ∨ word = "infinity" then some Ieee.double.infinity
      else (readMagnitude r).map fun v => toDouble v.1 v.2
    match bits? with
    | some bits =>
      .ok (Float.ofBits (UInt64.ofNat (if negative then Ieee.double.signBit + bits else bits)))
    | none => .error .invalid

end Decimal

end BlockWorld
