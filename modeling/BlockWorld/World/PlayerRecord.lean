import BlockWorld.Text.Quoted
import BlockWorld.World.Level

/-! # Player records

The record of a player is a tag file under the player's name, whose field `Pos` holds the position.
Only plain names have a file: letters, digits, underscores and hyphens of ASCII.
-/

namespace BlockWorld

structure PlayerRecord where
  position : Position
  /-- The whole record; what it holds beyond the position is not looked at. -/
  tag : Tag

namespace PlayerRecord

inductive LoadError
  | invalidName (name : String)
  | notFound (path : String)
  | file (e : FileError)
  | content (e : UnpackError)
  | badType (path : String)
  deriving DecidableEq

def LoadError.message : LoadError → String
  | .invalidName name => "invalid player name " ++ Text.quoted name
  | .notFound path => "player data not found at " ++ path
  | .file e => "IO error: " ++ e.message
  | .content e => "player data could not be decoded: " ++ e.message
  | .badType path => "player data has a bad type at " ++ path

def isPlain (c : Char) : Bool := c.isAlphanum || c == '_' || c == '-'

def isValidName (name : String) : Bool := !name.isEmpty && name.toList.all isPlain

def directory (world : String) : String := Path.join world "players"

def fileName (name : String) : String := name ++ ".dat"

def path (world name : String) : Except LoadError String :=
  if isValidName name then .ok (Path.join (directory world) (fileName name))
  else .error (.invalidName name)

def load (files : FileTree) (world name : String) : Except LoadError PlayerRecord := do
  let path ← path world name
  match TagFile.read files path with
  | .error (.file .notFound) => throw (.notFound path)
  | .error (.file e) => throw (.file e)
  | .error (.content e) => throw (.content e)
  | .ok tag =>
    match (tag.lookup "/Pos").bind Position.ofTag? with
    | some position => return { position, tag }
    | none => throw (.badType "/Pos")

/-- Writes a record that holds a position only. -/
def save (files : FileTree) (world name : String) (p : Position) :
    Except LoadError Unit × FileTree :=
  if isValidName name then
    let (r, files) := TagFile.write files (directory world) (fileName name)
      (.ofFields [("Pos", p.toTag)])
    (r.mapError .file, files)
  else (.error (.invalidName name), files)

end PlayerRecord

end BlockWorld
