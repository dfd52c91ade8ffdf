import BlockWorld.Failure
import BlockWorld.World.Basic

/-! # Making worlds

A new world has fresh metadata and, stored beforehand, the terrain around its spawn point. A
directory that has metadata already is left alone.
-/

namespace BlockWorld

namespace World

inductive CreateError
  | alreadyExists (path : String)
  | level (path : String) (e : FileError)
  | chunk (loc : ChunkLoc) (e : ChunkError)

def CreateError.failure : CreateError → Failure
  | .alreadyExists path => { message := path ++ " already exists" }
  | .level path e => { message := "write " ++ path, cause := some (.file e) }
  | .chunk loc e => { message := "write chunk " ++ loc.text, cause := some (.chunk e) }

def interval (lo hi : Int) : List Int :=
  (List.range (hi - lo + 1).toNat).map fun (k : Nat) => lo + k

/-- The places within `radius` of a place, row after row. -/
def square (center : ChunkLoc) (radius : Int32) : List ChunkLoc :=
  (interval (center.x - radius).toInt (center.x + radius).toInt).flatMap fun x =>
    (interval (center.z - radius).toInt (center.z + radius).toInt).map fun z =>
      ⟨Int32.ofInt x, Int32.ofInt z⟩

/-- Stores the terrain at these places, up to the first that cannot be stored. -/
def pregenerate (world : String) (seed : Int64) :
    List ChunkLoc → FileTree → Except CreateError Unit × FileTree
  | [], files => (.ok (), files)
  | loc :: rest, files =>
    match Region.save files world .normal (Terrain.generate seed loc) with
    | (.ok (), files) => pregenerate world seed rest files
    | (.error e, files) => (.error (.chunk loc e), files)

def create (files : FileTree) (world : String) (seed : Int64) (spawn : Position)
    (radius : UInt16) : Except CreateError Unit × FileTree :=
  let path := Path.join world Level.fileName
  if files.exists? path then (.error (.alreadyExists path), files)
  else
    let level : Level := { spawn, time := 0, seed := some seed, playerPosition := none }
    match level.save files world with
    | (.ok (), files) =>
      pregenerate world seed (square spawn.chunk (Int32.ofNat radius.toNat)) files
    | (.error e, files) => (.error (.level path e), files)

end World

end BlockWorld
