import BlockWorld.Failure
import BlockWorld.World.Basic

/-! # Chunks as tables of heights -/

namespace BlockWorld

namespace World

/-- A height in three columns; a column of air has none. -/
def heightCell (h : Option (Fin 128)) : String :=
  let s := h.elim "-" fun y => toString y.val
  String.ofList (List.replicate (3 - s.length) ' ') ++ s

def heightTable (c : Chunk) : List String :=
  (List.finRange 16).map fun z =>
    " ".intercalate ((List.finRange 16).map fun x => heightCell (c.heightAt x z))

def showChunk (files : FileTree) (path : String) (freshSeed : Int64) (loc : ChunkLoc) :
    Except Failure (List String) := do
  let world ← (load files path freshSeed).mapError fun e =>
    { message := "load world " ++ path, cause := some (.load e) }
  match (world.chunk files loc).1 with
  | .error e => throw { message := "load chunk " ++ loc.text, cause := some (.chunk e) }
  | .ok none => return ["chunk " ++ loc.text ++ ": not found"]
  | .ok (some c) => return ("chunk " ++ loc.text) :: heightTable c

end World

end BlockWorld
