import BlockWorld.Ieee

/-! # The shortest decimal of a double

A finite double is written with the fewest digits that read back as it: `digits` tries one digit,
then two, and takes the first grid on which one of the two neighbours of the value lies among the
reals that round to it; of two such neighbours the nearer. Which of two equally near ones is taken,
and how the digits are laid out, is up to a `Style`.
-/

namespace BlockWorld

namespace Decimal

/-- The power of ten at or below `a / b`. -/
def floorLog10 (a b : Nat) : Int :=
  let guess : Int := ((Nat.toDigits 10 a).length : Int) - (Nat.toDigits 10 b).length
  let fits :=
    if 0 ≤ guess then b * Nat.pow 10 guess.toNat ≤ a else b ≤ a * Nat.pow 10 (-guess).toNat
  if fits then guess else guess - 1

/-- The reals that round to a double, as fractions of one denominator. -/
structure Interval where
  low : Nat
  value : Nat
  high : Nat
  denominator : Nat
  closed : Bool

/-- The interval of `m * 2 ^ e`. Below a power of two the next double is half as far away. -/
def Interval.around (m : Nat) (e : Int) : Interval :=
  let gap := if m = 1 <<< 52 ∧ Ieee.double.unit < e then 1 else 2
  let scale := 1 <<< (e - 2).toNat
  ⟨(4 * m - gap) * scale, 4 * m * scale, (4 * m + 2) * scale, 1 <<< (2 - e).toNat, m % 2 = 0⟩

def Interval.holds (i : Interval) (n d : Nat) : Bool :=
  let (x, low, high) := (n * i.denominator, i.low * d, i.high * d)
  if i.closed then low ≤ x && x ≤ high else low < x && x < high

inductive Tie
  | up
  | even

/-- The digits of a value on the grid of the multiples of `10 ^ p`, if that is exact enough. -/
def Interval.onGrid? (i : Interval) (tie : Tie) (p : Int) : Option Nat :=
  let unit := Nat.pow 10 p.toNat
  let parts := Nat.pow 10 (-p).toNat
  -- the value is `below` and a fraction of units of the grid
  let total := i.value * parts
  let size := i.denominator * unit
  let below := total / size
  let rest := total % size
  let down : Bool := match tie with
    | .up => 2 * rest < size
    | .even => 2 * rest < size || (2 * rest == size && below % 2 == 0)
  let nearer := if down then [below, below + 1] else [below + 1, below]
  nearer.find? fun n => n != 0 && i.holds (n * unit) parts

/-- The fewest digits and the power of ten they count, for a magnitude above zero. -/
def digits (tie : Tie) (m : Nat) (e : Int) : Nat × Int :=
  let i := Interval.around m e
  let top := floorLog10 i.value i.denominator
  let attempt? (n : Nat) : Option (Nat × Int) :=
    let p := top - n
    -- the neighbour above may be the next power of ten
    (i.onGrid? tie p).map fun d => if d % 10 = 0 then (d / 10, p + 1) else (d, p)
  ((List.range 17).findSome? attempt?).getD (0, 0)

structure Style where
  /-- The least and greatest count of digits before the point that are still written without an
  exponent. -/
  least : Int
  greatest : Int
  /-- The sign of an exponent that is not negative. -/
  plus : String
  tie : Tie

def Style.layOut (s : Style) (d : Nat) (p : Int) : String :=
  let ds := Nat.toDigits 10 d
  let before : Int := ds.length + p
  if before < s.least ∨ s.greatest < before then
    let head := ds.take 1
    let tail := ds.drop 1
    let mantissa := if tail.isEmpty then head else head ++ '.' :: tail
    let power := before - 1
    String.ofList mantissa ++ "e" ++ (if power < 0 then "-" else s.plus) ++ toString power.natAbs
  else if before ≤ 0 then
    String.ofList ('0' :: '.' :: List.replicate (-before).toNat '0' ++ ds)
  else if 0 ≤ p then
    String.ofList (ds ++ List.replicate p.toNat '0' ++ ['.', '0'])
  else
    String.ofList (ds.take before.toNat ++ '.' :: ds.drop before.toNat)

/-- The text of a finite number; infinities and what is no number have none. -/
def Style.text? (s : Style) (x : Float) : Option String :=
  match Ieee.double.value x.toBits.toNat with
  | .finite negative m e =>
    let body :=
      if m = 0 then "0.0"
      else
        let (d, p) := digits s.tie m e
        s.layOut d p
    some (if negative then "-" ++ body else body)
  | _ => none

end Decimal

end BlockWorld
