import BlockWorld.Cbor.Read
import BlockWorld.Tag.Basic

/-! # Tag trees as CBOR

A tag is a map of one entry from the name of its kind to its value. Reading goes at most 256 levels
deep: a number or a string takes one level, a list or a compound two.
-/

namespace BlockWorld

namespace Cbor

def encodeText (s : String) : Bytes :=
  let b := utf8 s
  Header.encode (.text b.length) ++ b

def encodeInt (v : Int) : Bytes :=
  Header.encode (if 0 ≤ v then .positive v.toNat else .negative (-1 - v).toNat)

def encodeVariant (name : String) (value : Bytes) : Bytes :=
  Header.encode (.map (some 1)) ++ encodeText name ++ value

end Cbor

namespace Tag

open Cbor

mutual

def encode : Tag → Bytes
  | .byte v => encodeVariant "Byte" (encodeInt v.toInt)
  | .short v => encodeVariant "Short" (encodeInt v.toInt)
  | .int v => encodeVariant "Int" (encodeInt v.toInt)
  | .long v => encodeVariant "Long" (encodeInt v.toInt)
  | .float v => encodeVariant "Float" (Header.encode (.float (Ieee.doubleOfSingle v.toBits)))
  | .double v => encodeVariant "Double" (Header.encode (.float v.toBits))
  | .string s => encodeVariant "String" (encodeText s)
  | .list items =>
    encodeVariant "List" (Header.encode (.array items.length) ++ encodeItems items)
  | .compound fields =>
    encodeVariant "Compound" (Header.encode (.map fields.length) ++ encodeFields fields)

def encodeItems : List Tag → Bytes
  | [] => []
  | t :: r => encode t ++ encodeItems r

def encodeFields : List (String × Tag) → Bytes
  | [] => []
  | (k, t) :: r => encodeText k ++ (encode t ++ encodeFields r)

end

inductive Kind
  | byte | short | int | long | float | double | string | list | compound

def kindNames : List (String × Kind) :=
  [("Byte", .byte), ("Short", .short), ("Int", .int), ("Long", .long), ("Float", .float),
    ("Double", .double), ("String", .string), ("List", .list), ("Compound", .compound)]

def kind? (name : Bytes) : Option Kind := (kindNames.find? fun k => utf8 k.1 == name).map (·.2)

/-- Reads the value of a tag of this kind with `depth` levels left. The tags in it are read by
`inner`. -/
def readValue (depth : Nat) (inner : Read Tag) : Kind → Read Tag
  | .byte => return .byte (Int8.ofInt (← Read.integerIn (-128) 127))
  | .short => return .short (Int16.ofInt (← Read.integerIn (-32768) 32767))
  | .int => return .int (Int32.ofInt (← Read.integerIn (-2147483648) 2147483647))
  | .long =>
    return .long (Int64.ofInt (← Read.integerIn (-9223372036854775808) 9223372036854775807))
  | .float => return .float (Float32.ofBits (Ieee.singleOfDouble (← Read.float)))
  | .double => return .double (Float.ofBits (← Read.float))
  | .string => return .string (← Read.text)
  | .list => return .list (← Read.sequence depth inner fun _ => throw .unexpected)
  | .compound => return ofFields (← Read.mapping depth do return (← Read.text, ← inner))

/-- Reads a tag with one level more than `depth` left, and the tags in it by `inner`. -/
def readBy (depth : Nat) (inner : Read Tag) : Read Tag := do
  match kind? (← Read.variant (depth + 1)) with
  | some kind => readValue depth inner kind
  | none => throw .unexpected

/-- Reads a tag, no more than `depth` levels deep. A tag inside another is two levels down. -/
def read : (depth : Nat) → Read Tag
  | 0 => do
    discard (Read.variant 0)
    throw .tooDeep
  | 1 => readBy 0 (throw .tooDeep)
  | d + 2 => readBy (d + 1) (read d)

def maxDepth : Nat := 256

def readFirst : Read Tag := read maxDepth

end Tag

end BlockWorld
