/-! # Binary floating-point formats

A finite datum is a sign and a magnitude `m * 2 ^ e` in exact integers. `value` takes a bit pattern
apart and `roundMagnitude` finds the pattern nearest to a magnitude, ties going to the even one and
overflow to infinity.
-/

namespace BlockWorld

namespace Ieee

structure Format where
  exponentBits : Nat
  fractionBits : Nat

def half : Format := ⟨5, 10⟩
def single : Format := ⟨8, 23⟩
def double : Format := ⟨11, 52⟩

inductive Value
  | nan (negative : Bool)
  | infinite (negative : Bool)
  | finite (negative : Bool) (m : Nat) (e : Int)

/-- The whole part of `m / 2 ^ k` moved to the nearest integer, a tie to the even one. -/
def shiftRound (m k : Nat) : Nat :=
  let whole := m >>> k
  let rest := 2 * (m - whole <<< k)
  if rest > 1 <<< k ∨ (rest = 1 <<< k ∧ whole % 2 = 1) then whole + 1 else whole

namespace Format

/-- The exponent of the smallest magnitude above zero. -/
def unit (f : Format) : Int := 2 - (1 <<< (f.exponentBits - 1) : Nat) - f.fractionBits

def infinity (f : Format) : Nat := (1 <<< f.exponentBits - 1) <<< f.fractionBits

def signBit (f : Format) : Nat := 1 <<< (f.exponentBits + f.fractionBits)

def value (f : Format) (bits : Nat) : Value :=
  let fraction := bits % 1 <<< f.fractionBits
  let exponent := (bits >>> f.fractionBits) % 1 <<< f.exponentBits
  let negative := bits.testBit (f.exponentBits + f.fractionBits)
  if exponent = 1 <<< f.exponentBits - 1 then
    if fraction = 0 then .infinite negative else .nan negative
  else if exponent = 0 then .finite negative fraction f.unit
  else .finite negative (1 <<< f.fractionBits + fraction) (f.unit + exponent - 1)

def roundMagnitude (f : Format) (m : Nat) (e : Int) : Nat :=
  if m = 0 then 0 else
  let q := max f.unit (e + m.log2 - f.fractionBits)
  let scaled := if q ≤ e then m <<< (e - q).toNat else shiftRound m (q - e).toNat
  min f.infinity ((q - f.unit).toNat <<< f.fractionBits + scaled)

/-- The pattern nearest to a value; a value that is no number keeps its sign only. -/
def nearest (f : Format) : Value → Nat
  | .nan negative => signed negative (f.infinity + 1 <<< (f.fractionBits - 1))
  | .infinite negative => signed negative f.infinity
  | .finite negative m e => signed negative (f.roundMagnitude m e)
where
  signed (negative : Bool) (bits : Nat) : Nat := if negative then f.signBit + bits else bits

end Format

/-- The greatest whole number that is not above `m * 2 ^ e`, or above its negative. -/
def floor (negative : Bool) (m : Nat) (e : Int) : Int :=
  let n : Int := if negative then -m else m
  if 0 ≤ e then n * (1 <<< e.toNat : Nat) else n / (1 <<< (-e).toNat : Nat)

def truncate (negative : Bool) (m : Nat) (e : Int) : Int :=
  if negative then -floor false m e else floor false m e

/-- A value taken to a whole number and clamped to the machine word. What is no number counts as
zero. -/
def clampToInt32 (whole : Bool → Nat → Int → Int) : Value → Int32
  | .nan _ => 0
  | .infinite negative => if negative then Int32.minValue else Int32.maxValue
  | .finite negative m e => Int32.ofIntClamp (whole negative m e)

def floorToInt32 (x : Float) : Int32 := clampToInt32 floor (double.value x.toBits.toNat)

def truncateToInt32 (x : Float32) : Int32 := clampToInt32 truncate (single.value x.toBits.toNat)

/-- The whole number nearest to `m * 2 ^ e`, a half away from zero. -/
def nearestWhole (m : Nat) (e : Int) : Nat :=
  if 0 ≤ e then m * 1 <<< e.toNat else (2 * m + 1 <<< (-e).toNat) / 1 <<< ((-e).toNat + 1)

def roundToUInt64 (x : Float) : UInt64 :=
  match double.value x.toBits.toNat with
  | .nan _ => 0
  | .infinite negative => if negative then 0 else UInt64.ofNatClamp UInt64.size
  | .finite negative m e => if negative then 0 else UInt64.ofNatClamp (nearestWhole m e)

def singleOfDouble (bits : UInt64) : UInt32 :=
  UInt32.ofNat (single.nearest (double.value bits.toNat))

def doubleOfSingle (bits : UInt32) : UInt64 :=
  UInt64.ofNat (double.nearest (single.value bits.toNat))

def halfOfDouble (bits : UInt64) : UInt16 :=
  UInt16.ofNat (half.nearest (double.value bits.toNat))

def doubleOfHalf (bits : UInt16) : UInt64 :=
  UInt64.ofNat (double.nearest (half.value bits.toNat))

/-- The remainder of the magnitude `m * 2 ^ e` by the whole number `d`, at the second exponent. -/
def remainder (m : Nat) (e : Int) (d : Nat) : Nat × Int :=
  if 0 ≤ e then (m <<< e.toNat % d, 0) else (m % (d <<< (-e).toNat), e)

/-- The remainder of a single by a whole number of at most 24 bits, taken into `0..d`: exact below
the sign, then rounded once where a negative remainder is moved up by `d`. -/
def wrap (x : Float32) (d : Nat) : Float32 :=
  match single.value x.toBits.toNat with
  | .finite negative m e =>
    let (r, e) := remainder m e d
    let rest := Float32.ofBits (UInt32.ofNat (single.nearest (.finite negative r e)))
    if rest < 0 then rest + UInt32.toFloat32 (UInt32.ofNat d) else rest
  | _ => Float32.ofBits 0x7fc00000

end Ieee

end BlockWorld
