import BlockWorld.Decimal.Read
import BlockWorld.Grid
import BlockWorld.Text.Blank
import BlockWorld.Text.Quoted
import BlockWorld.Text.Split

/-! # Positions as text

A position is written as three decimals between commas, with white space around them.
-/

namespace BlockWorld

namespace Position

inductive ReadError
  | coordinate (part : String) (e : Decimal.ReadError)
  | count (text : String)
  deriving DecidableEq

def ReadError.message : ReadError → String
  | .coordinate part e => Text.quoted part ++ ": " ++ e.message
  | .count text => "expected x,y,z, got " ++ Text.quoted text

def readCoordinate (part : List Char) : Except ReadError Float :=
  (Decimal.read (Text.trim part)).mapError (.coordinate (String.ofList part))

/-- Reads a position. A part that is no number is reported before a wrong count. -/
def read (s : String) : Except ReadError Position := do
  match ← (Text.split ',' s.toList).mapM readCoordinate with
  | [x, y, z] => return ⟨x, y, z⟩
  | _ => throw (.count s)

end Position

end BlockWorld
