import BlockWorld.Terrain
import BlockWorld.World.PlayerRecord
import BlockWorld.World.Region

/-! # Worlds

A world is opened from a directory. Its metadata is judged before anything is started; then its
chunks are served from the stored ones of the normal dimension and, where there are none, from the
terrain of its seed.
-/

namespace BlockWorld

def Terrain.source (seed : Int64) : ChunkSource where
  name := "generator"
  load := fun _ _ loc => some (.ok (some (generate seed loc)))

structure World where
  /-- The world's directory. -/
  path : String
  seed : Int64
  /-- The time recorded in the metadata. -/
  time : Int64
  spawn : Position
  /-- Where a player without a record starts. -/
  start : Position
  chunks : ChunkStack

namespace World

/-- Opens the world of a directory. One without a seed gets `freshSeed`. -/
def load (files : FileTree) (path : String) (freshSeed : Int64) :
    Except Level.LoadError World := do
  let level ← Level.load files path
  let seed := level.seed.getD freshSeed
  return {
    path, seed
    time := level.time
    spawn := level.spawn
    start := level.start
    chunks := { tiers :=
      [{ source := Region.source path .normal }, { source := Terrain.source seed }] } }

def chunk (w : World) (files : FileTree) (loc : ChunkLoc) : ChunkAnswer × World :=
  let (answer, chunks) := w.chunks.load files loc
  (answer, { w with chunks })

def dimensionService (w : World) (dimension : Dimension) : ChunkService :=
  { source := Region.source w.path dimension }

def shutdown (w : World) : World := { w with chunks := w.chunks.shutdown }

def player (w : World) (files : FileTree) (name : String) :
    Except PlayerRecord.LoadError PlayerRecord :=
  PlayerRecord.load files w.path name

/-- Where a player enters the world: at the recorded position, and without a readable record at the
start. Only an invalid name is refused. -/
def entryPosition (w : World) (files : FileTree) (name : String) :
    Except PlayerRecord.LoadError Position :=
  match w.player files name with
  | .ok record => .ok record.position
  | .error (.invalidName name) => .error (.invalidName name)
  | .error _ => .ok w.start

end World

end BlockWorld
