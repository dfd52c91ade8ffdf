import BlockWorld.Text.Digits
import BlockWorld.Yaml.Node

/-! # Integers

A plain scalar is an integer if it is written in decimal without leading zeros, or in base 16, 8 or
2 after a mark.
-/

namespace BlockWorld

namespace Yaml

def magnitude? : List Char → Option Nat
  | '0' :: 'x' :: r => Text.digits? 16 r
  | '0' :: 'o' :: r => Text.digits? 8 r
  | '0' :: 'b' :: r => Text.digits? 2 r
  | ['0'] => some 0
  | '0' :: _ => none
  | r => Text.digits? 10 r

def integer? : List Char → Option Int
  | '-' :: r => (magnitude? r).map fun n => -(n : Int)
  | '+' :: r => (magnitude? r).map Int.ofNat
  | r => (magnitude? r).map Int.ofNat

def natural? (s : List Char) : Option Int := if s.head? = some '-' then none else integer? s

/-- The scalar that a node is or refers to. -/
def Document.scalar? (d : Document) : Node → Option Scalar
  | .scalar s => some s
  | .alias n => (d.scalars.lookup n).join
  | _ => none

/-- The value of a plain scalar, read by `read` and held to a range. -/
def Scalar.inRange? (s : Scalar) (read : List Char → Option Int) (lo hi : Int) : Option Int := do
  let v ← if s.plain then read s.text else none
  if lo ≤ v ∧ v ≤ hi then some v else none

end Yaml

end BlockWorld
