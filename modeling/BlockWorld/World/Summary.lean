import BlockWorld.Decimal.Shortest
import BlockWorld.Failure
import BlockWorld.Text.JsonQuoted
import BlockWorld.World.Region

/-! # Summaries of worlds

A summary tells the metadata of a world and how many chunks it stores, as lines of text or as JSON.
-/

namespace BlockWorld

structure Summary where
  path : String
  spawn : Position
  time : Int64
  seed : Option Int64
  start : Option Position
  stored : Nat
  storedNether : Nat

namespace Summary

def count (files : FileTree) (world : String) (dimension : Dimension) : Except Failure Nat :=
  (Region.count files world dimension).mapError fun e =>
    { message := "list " ++ Region.directory world dimension, cause := some (.file e) }

def ofWorld (files : FileTree) (world : String) : Except Failure Summary := do
  let path := Path.join world Level.fileName
  let tag ← (TagFile.read files path).mapError fun e =>
    { message := "read " ++ path
      cause := some (match e with
        | .file e => .file e
        | .content e => .content e) }
  let level ← (Level.ofTag tag).mapError fun e =>
    { message := e.message, cause := some (.level e) }
  return {
    path := world
    spawn := level.spawn
    time := level.time
    seed := level.seed
    start := level.playerPosition
    stored := ← count files world .normal
    storedNether := ← count files world .nether }

/-! ## Text -/

/-- Coordinates in text have no exponent from a ten-thousandth up to below ten to the sixteenth. -/
def textStyle : Decimal.Style := ⟨-3, 16, "", .up⟩

def coordinate (x : Float) : String :=
  match textStyle.text? x with
  | some s => s
  | none => if x.isNaN then "NaN" else if x < 0 then "-inf" else "inf"

def position (p : Position) : String :=
  "[" ++ coordinate p.x ++ ", " ++ coordinate p.y ++ ", " ++ coordinate p.z ++ "]"

def text (s : Summary) : List String :=
  ["world: " ++ s.path, "spawn: " ++ position s.spawn, "time: " ++ toString s.time.toInt,
    match s.seed with
    | some seed => "seed: " ++ toString seed.toInt
    | none => "seed: (none, derived at load)"] ++
  (s.start.toList.map fun p => "start: " ++ position p) ++
  ["stored chunks: " ++ toString s.stored ++ " (nether: " ++ toString s.storedNether ++ ")"]

/-! ## JSON -/

/-- Numbers in JSON have no exponent from a hundred-thousandth on, and a sign in it otherwise. -/
def jsonStyle : Decimal.Style := ⟨-4, 16, "+", .even⟩

/-- A coordinate without a finite value is left out. -/
def jsonCoordinate (x : Float) : String := (jsonStyle.text? x).getD "null"

def jsonPosition (p : Position) : List String :=
  ["[", "    " ++ jsonCoordinate p.x ++ ",", "    " ++ jsonCoordinate p.y ++ ",",
    "    " ++ jsonCoordinate p.z, "  ]"]

def jsonField (name : String) (value : List String) (last : Bool) : List String :=
  let lines := match value with
    | first :: rest => ("  " ++ Text.jsonQuoted name ++ ": " ++ first) :: rest
    | [] => []
  if last then lines else lines.dropLast ++ (lines.getLast?.map (· ++ ",")).toList

def json (s : Summary) : List String :=
  ["\x7b"] ++ jsonField "path" [Text.jsonQuoted s.path] false ++
    jsonField "spawn" (jsonPosition s.spawn) false ++
    jsonField "time" [toString s.time.toInt] false ++
    jsonField "seed" [s.seed.elim "null" fun n => toString n.toInt] false ++
    jsonField "start" (s.start.elim ["null"] jsonPosition) false ++
    jsonField "stored_chunks" [toString s.stored] false ++
    jsonField "stored_nether_chunks" [toString s.storedNether] true ++ ["\x7d"]

end Summary

end BlockWorld
