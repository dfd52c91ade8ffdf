import BlockWorld.Bytes.Basic

/-! # Hexadecimal text -/

namespace BlockWorld

namespace Hex

def digit (n : Nat) : Char := Char.ofNat (if n < 10 then 48 + n else 87 + n)

def value? (c : Char) : Option Nat :=
  if '0' ≤ c ∧ c ≤ '9' then some (c.toNat - 48)
  else if 'a' ≤ c ∧ c ≤ 'f' then some (c.toNat - 87)
  else if 'A' ≤ c ∧ c ≤ 'F' then some (c.toNat - 55)
  else none

theorem value?_digit : ∀ n < 16, value? (digit n) = some n := by decide

def octet (b : UInt8) : List Char := [digit (b.toNat / 16), digit (b.toNat % 16)]

end Hex

def Bytes.hex (b : Bytes) : String := String.ofList (b.flatMap Hex.octet)

/-- Lower-case digits of `n`, at least `width` of them. -/
def Hex.ofNat (width n : Nat) : String :=
  let digits := Nat.toDigits 16 n
  String.ofList (List.replicate (width - digits.length) '0' ++ digits)

end BlockWorld
