import BlockWorld.Grid
import BlockWorld.World.TagFile

/-! # Level metadata

The metadata of a world is a tag tree. Six paths of it count: the three spawn coordinates, which it
must have, and the time, the seed and the place of a single player, which it may have.
-/

namespace BlockWorld

/-- The position in a list of exactly three doubles. -/
def Position.ofTag? : Tag → Option Position
  | .list [.double x, .double y, .double z] => some ⟨x, y, z⟩
  | _ => none

def Position.toTag (p : Position) : Tag := .list [.double p.x, .double p.y, .double p.z]

theorem Position.ofTag?_toTag (p : Position) : ofTag? p.toTag = some p := rfl

structure Level where
  spawn : Position
  /-- The time that has passed in the world. -/
  time : Int64
  /-- The terrain seed, if one is recorded. -/
  seed : Option Int64
  /-- Where the world's single player stood, if that is recorded. -/
  playerPosition : Option Position

inductive LevelError
  | missing (path : String)
  | notNumber (path : String)
  deriving DecidableEq

def LevelError.message : LevelError → String
  | .missing path => "world metadata is missing required field " ++ path
  | .notNumber path => "world metadata field " ++ path ++ " is not a number"

namespace Level

def coordinate (t : Tag) (path : String) : Except LevelError Float :=
  match t.lookup path with
  | none => .error (.missing path)
  | some v =>
    match v.asFloat with
    | none => .error (.notNumber path)
    | some x => .ok x

/-- Extracts the metadata. A time or seed that is not integral counts as absent. -/
def ofTag (t : Tag) : Except LevelError Level := do
  let x ← coordinate t "/Data/SpawnX"
  let y ← coordinate t "/Data/SpawnY"
  let z ← coordinate t "/Data/SpawnZ"
  return {
    spawn := ⟨x, y, z⟩
    time := ((t.lookup "/Data/Time").bind Tag.asInt).getD 0
    seed := (t.lookup "/Data/RandomSeed").bind Tag.asInt
    playerPosition := (t.lookup "/Data/Player/Pos").bind Position.ofTag? }

def toTag (l : Level) : Tag :=
  let required : List (String × Tag) :=
    [("SpawnX", .double l.spawn.x), ("SpawnY", .double l.spawn.y), ("SpawnZ", .double l.spawn.z),
      ("Time", .long l.time)]
  let seed := l.seed.toList.map fun s => ("RandomSeed", Tag.long s)
  let player := l.playerPosition.toList.map fun p => ("Player", Tag.ofFields [("Pos", p.toTag)])
  .ofFields [("Data", .ofFields (required ++ seed ++ player))]

/-- Where a player without a record starts. -/
def start (l : Level) : Position := l.playerPosition.getD l.spawn

def fileName : String := "level.dat"

inductive LoadError
  | notFound (path : String)
  | file (e : FileError)
  | content (e : UnpackError)
  | level (e : LevelError)
  deriving DecidableEq

def LoadError.message : LoadError → String
  | .notFound path => "world metadata not found at " ++ path
  | .file e => "IO error: " ++ e.message
  | .content e => "world metadata could not be decoded: " ++ e.message
  | .level e => e.message

def load (files : FileTree) (world : String) : Except LoadError Level :=
  let path := Path.join world fileName
  match TagFile.read files path with
  | .error (.file .notFound) => .error (.notFound path)
  | .error (.file e) => .error (.file e)
  | .error (.content e) => .error (.content e)
  | .ok t => (ofTag t).mapError .level

def save (l : Level) (files : FileTree) (world : String) : Except FileError Unit × FileTree :=
  TagFile.write files world fileName l.toTag

end Level

end BlockWorld
