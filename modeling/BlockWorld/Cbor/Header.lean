import BlockWorld.Ieee
import BlockWorld.Text.Utf8

/-! # CBOR headers

A data item begins with a header: three bits for its kind and an argument, in the low five bits or
in the 1, 2, 4 or 8 octets that follow. Headers are written in their shortest form and read in any.
Strings and collections may leave their length open; then a `stop` ends them.
-/

namespace BlockWorld

namespace Cbor

inductive Error
  | ended
  | malformed
  | unexpected
  | tooDeep
  deriving DecidableEq

inductive Header
  | positive (n : Nat)
  /-- The integer `-1 - n`. -/
  | negative (n : Nat)
  | octets (length : Option Nat)
  | text (length : Option Nat)
  | array (length : Option Nat)
  | map (length : Option Nat)
  | tag (n : Nat)
  /-- A float by the bits of the equal double. -/
  | float (bits : UInt64)
  | simple (n : Nat)
  | stop
  deriving DecidableEq

namespace Header

/-- The first octet and the argument `n` in as few octets as hold it. -/
def lead (kind n : Nat) : Bytes :=
  if n < 24 then [UInt8.ofNat (32 * kind + n)]
  else if n < 256 then UInt8.ofNat (32 * kind + 24) :: Bytes.ofNat 1 n
  else if n < 65536 then UInt8.ofNat (32 * kind + 25) :: Bytes.ofNat 2 n
  else if n < 4294967296 then UInt8.ofNat (32 * kind + 26) :: Bytes.ofNat 4 n
  else UInt8.ofNat (32 * kind + 27) :: Bytes.ofNat 8 n

def leadOpen (kind : Nat) : Option Nat → Bytes
  | some n => lead kind n
  | none => [UInt8.ofNat (32 * kind + 31)]

/-- A double in the narrowest of the three formats that keeps its value. -/
def leadFloat (bits : UInt64) : Bytes :=
  if Ieee.doubleOfHalf (Ieee.halfOfDouble bits) = bits then
    0xf9 :: Bytes.ofNat 2 (Ieee.halfOfDouble bits).toNat
  else if Ieee.doubleOfSingle (Ieee.singleOfDouble bits) = bits then
    0xfa :: Bytes.ofNat 4 (Ieee.singleOfDouble bits).toNat
  else 0xfb :: Bytes.ofNat 8 bits.toNat

def encode : Header → Bytes
  | .positive n => lead 0 n
  | .negative n => lead 1 n
  | .octets n => leadOpen 2 n
  | .text n => leadOpen 3 n
  | .array n => leadOpen 4 n
  | .map n => leadOpen 5 n
  | .tag n => lead 6 n
  | .float bits => leadFloat bits
  | .simple n => if n < 24 then [UInt8.ofNat (224 + n)] else 0xf8 :: Bytes.ofNat 1 n
  | .stop => [0xff]

/-- How many octets follow for an argument whose low bits are `low`; none if it is refused. -/
def width? (low : Nat) : Option Nat :=
  if low < 24 ∨ low = 31 then some 0
  else if low < 28 then some (1 <<< (low - 24))
  else none

/-- The header of kind `kind` whose argument has the low bits `low` and the value `n`. -/
def assemble? (kind low n : Nat) : Option Header :=
  let length := if low = 31 then none else some n
  match kind with
  | 0 => length.map .positive
  | 1 => length.map .negative
  | 2 => some (.octets length)
  | 3 => some (.text length)
  | 4 => some (.array length)
  | 5 => some (.map length)
  | 6 => length.map .tag
  | _ => some <|
    if low < 25 then .simple n
    else if low = 25 then .float (Ieee.doubleOfHalf (UInt16.ofNat n))
    else if low = 26 then .float (Ieee.doubleOfSingle (UInt32.ofNat n))
    else if low = 27 then .float (UInt64.ofNat n)
    else .stop

def read : Bytes → Except Error (Header × Bytes)
  | [] => .error .ended
  | d :: b =>
    let low := d.toNat % 32
    match width? low with
    | none => .error .malformed
    | some w =>
      match Bytes.splitAt? w b with
      | none => .error .ended
      | some (argument, rest) =>
        let n := if low < 24 then low else Bytes.toNat argument
        match assemble? (d.toNat / 32) low n with
        | some h => .ok (h, rest)
        | none => .error .malformed

theorem length_rest_lt_of_read {b r : Bytes} {h : Header} (e : read b = .ok (h, r)) :
    r.length < b.length := by
  cases b with
  | nil => cases e
  | cons d b =>
    simp only [read] at e
    split at e
    · cases e
    · split at e
      · cases e
      · rename_i hs
        split at e
        · cases e
          obtain ⟨_, rfl⟩ := Bytes.splitAt?_eq_some_iff.1 hs
          rw [List.length_cons, List.length_append]
          omega
        · cases e

end Header

end Cbor

end BlockWorld
