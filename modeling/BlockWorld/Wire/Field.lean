import BlockWorld.Grid
import BlockWorld.Ieee
import BlockWorld.Text.Utf8
import BlockWorld.Wire.Error

/-! # Packet fields

Integers and floats are written most significant octet first. A string is its length in two octets
and then its UTF-8 form; lengths above `maxStringLength` are refused on both sides. Each `put` has a
reader in `Read`, which takes its octets from the front of the input.
-/

namespace BlockWorld

namespace Wire

def maxStringLength : Nat := 32767

def version : Int32 := 8

/-! ## Writing -/

def putInt8 (v : Int8) : Bytes := [v.toUInt8]
def putInt16 (v : Int16) : Bytes := Bytes.ofNat 2 v.toUInt16.toNat
def putInt32 (v : Int32) : Bytes := Bytes.ofNat 4 v.toUInt32.toNat
def putInt64 (v : Int64) : Bytes := Bytes.ofNat 8 v.toUInt64.toNat
def putFloat32 (v : Float32) : Bytes := Bytes.ofNat 4 v.toBits.toNat
def putFloat (v : Float) : Bytes := Bytes.ofNat 8 v.toBits.toNat
def putBool (v : Bool) : Bytes := [if v then 1 else 0]

def putString (s : String) : Except WireError Bytes :=
  let b := utf8 s
  if b.length ≤ maxStringLength then .ok (Bytes.ofNat 2 b.length ++ b)
  else .error (.stringTooLong b.length)

/-- A coordinate in units of a thirty-second of a block. -/
def fixedPoint (v : Float) : Int32 := Ieee.floorToInt32 (v * 32)

/-- An angle in units of a 256th of a turn. -/
def packedAngle (degrees : Float32) : UInt8 :=
  (Ieee.truncateToInt32 (Ieee.wrap degrees 360 / 360 * 256)).toUInt32.toUInt8

def putFixed (p : Position) : Bytes :=
  putInt32 (fixedPoint p.x) ++ putInt32 (fixedPoint p.y) ++ putInt32 (fixedPoint p.z)

/-! ## Reading -/

abbrev Read := StateT Bytes (Except WireError)

namespace Read

def octets (n : Nat) : Read Bytes := fun b =>
  match Bytes.splitAt? n b with
  | some found => .ok found
  | none => .error .truncated

def octet : Read UInt8
  | [] => .error .truncated
  | d :: b => .ok (d, b)

def nat (w : Nat) : Read Nat := Bytes.toNat <$> octets w

def int8 : Read Int8 := UInt8.toInt8 <$> octet
def int32 : Read Int32 := (fun n => (UInt32.ofNat n).toInt32) <$> nat 4
def int64 : Read Int64 := (fun n => (UInt64.ofNat n).toInt64) <$> nat 8
def float32 : Read Float32 := (fun n => Float32.ofBits (UInt32.ofNat n)) <$> nat 4
def float : Read Float := (fun n => Float.ofBits (UInt64.ofNat n)) <$> nat 8
def bool : Read Bool := (· != 0) <$> octet

/-- A length over the limit is refused before the text is looked at. -/
def string : Read String := do
  let n ← nat 2
  if n ≤ maxStringLength then
    match (← octets n).text? with
    | some s => pure s
    | none => throw .invalidString
  else throw (.stringTooLong n)

end Read

end Wire

end BlockWorld
