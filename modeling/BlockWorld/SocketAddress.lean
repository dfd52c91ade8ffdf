import BlockWorld.Bytes.Hex

/-! # Socket addresses

An address of four octets is written in decimal between dots; one of eight groups in hexadecimal
between colons, inside brackets and perhaps with a scope. The longest run of groups that are zero
may be left out, and is left out when the address is written. A colon and a number of sixteen bits follow.
-/

namespace BlockWorld

inductive HostAddress
  | octets (a b c d : UInt8)
  | groups (g : List UInt16) (scope : UInt32)
  deriving DecidableEq

structure SocketAddress where
  host : HostAddress
  portNumber : UInt16
  deriving DecidableEq

namespace SocketAddress

/-! ## Reading -/

abbrev Read := StateT (List Char) Option

def digitOf? (base : Nat) (c : Char) : Option Nat :=
  match Hex.value? c with
  | some d => if d < base then some d else none
  | none => none

/-- Reads a number below `bound`. It has a digit at least and at most `width`. -/
def number (base bound : Nat) (width : Option Nat) : Read Nat := fun s =>
  let ds := s.takeWhile fun c => (digitOf? base c).isSome
  let n := ds.foldl (fun n c => base * n + (digitOf? base c).getD 0) 0
  if !ds.isEmpty && width.all (ds.length ≤ ·) && decide (n < bound) then
    some (n, s.drop ds.length)
  else none

def char (c : Char) : Read Unit := fun s =>
  match s with
  | d :: r => if c = d then some ((), r) else none
  | [] => none

/-- A number of one octet, without leading zeros. -/
def octet : Read UInt8 := do
  let s ← get
  let n ← number 10 256 (some 3)
  if s.head? = some '0' ∧ 1 < s.length - (← get).length then failure else return UInt8.ofNat n

def fourOctets : Read (UInt8 × UInt8 × UInt8 × UInt8) := do
  let a ← octet
  char '.'
  let b ← octet
  char '.'
  let c ← octet
  char '.'
  return (a, b, c, ← octet)

def attempt {α : Type} (r : Read α) : Read (Option α) := fun s =>
  match r s with
  | some (a, rest) => some (some a, rest)
  | none => some (none, s)

/-- Reads up to `room` groups, with colons between them. The last two may be written as four octets;
the answer tells whether they were. -/
def groups : (room : Nat) → (first : Bool) → Read (List UInt16 × Bool)
  | 0, _ => pure ([], false)
  | room + 1, first => do
    let separator : Read Unit := if first then pure () else char ':'
    let four ← if room = 0 then pure none else attempt do separator; fourOctets
    match four with
    | some (a, b, c, d) =>
      return ([a.toUInt16 * 256 + b.toUInt16, c.toUInt16 * 256 + d.toUInt16], true)
    | none =>
      match ← attempt do separator; number 16 65536 (some 4) with
      | some n =>
        let (rest, mixed) ← groups room false
        return (UInt16.ofNat n :: rest, mixed)
      | none => return ([], false)

/-- Eight groups, of which a run may be left out between two colons. -/
def eightGroups : Read (List UInt16) := do
  let (head, mixed) ← groups 8 true
  if head.length = 8 then return head
  else if mixed then failure
  else
    char ':'
    char ':'
    let (tail, _) ← groups (7 - head.length) true
    return head ++ List.replicate (8 - head.length - tail.length) 0 ++ tail

def afterColon : Read UInt16 := do
  char ':'
  return UInt16.ofNat (← number 10 65536 none)

def scopeNumber : Read UInt32 := do
  char '%'
  return UInt32.ofNat (← number 10 4294967296 none)

def ofOctets : Read SocketAddress := do
  let (a, b, c, d) ← fourOctets
  return ⟨.octets a b c d, ← afterColon⟩

def ofGroups : Read SocketAddress := do
  char '['
  let g ← eightGroups
  let zone ← attempt scopeNumber
  char ']'
  return ⟨.groups g (zone.getD 0), ← afterColon⟩

def read? (s : String) : Option SocketAddress :=
  let whole (r : Read SocketAddress) : Option SocketAddress :=
    match r s.toList with
    | some (a, []) => some a
    | _ => none
  match whole ofOctets with
  | some a => some a
  | none => whole ofGroups

/-! ## Writing -/

def dotted (l : List Nat) : String := ".".intercalate (l.map toString)

def hexGroups (g : List UInt16) : String := ":".intercalate (g.map fun w => Hex.ofNat 1 w.toNat)

def zeros (g : List UInt16) : Nat := (g.takeWhile (· == 0)).length

def longestZeros (g : List UInt16) : Nat × Nat :=
  (List.range g.length).foldl
    (fun best i => if best.2 < zeros (g.drop i) then (i, zeros (g.drop i)) else best) (0, 0)

/-- Groups that hold an address of four octets show it; else a run of two zeros or more is left
out. -/
def groupsText (g : List UInt16) : String :=
  match g with
  | [0, 0, 0, 0, 0, 0xffff, a, b] =>
    "::ffff:" ++ dotted [a.toNat / 256, a.toNat % 256, b.toNat / 256, b.toNat % 256]
  | g =>
    let (start, length) := longestZeros g
    if 1 < length then hexGroups (g.take start) ++ "::" ++ hexGroups (g.drop (start + length))
    else hexGroups g

def text (a : SocketAddress) : String :=
  let host := match a.host with
    | .octets a b c d => dotted [a.toNat, b.toNat, c.toNat, d.toNat]
    | .groups g scope =>
      "[" ++ groupsText g ++ (if scope = 0 then "" else "%" ++ toString scope.toNat) ++ "]"
  host ++ ":" ++ toString a.portNumber.toNat

end SocketAddress

end BlockWorld
