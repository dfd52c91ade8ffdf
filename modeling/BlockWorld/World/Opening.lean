import BlockWorld.World.Basic

/-! # What opening a world starts

The services of a world are started one after the other, and not before its metadata is judged.
-/

namespace BlockWorld

namespace World

inductive Started
  | tier (source : ChunkSource)
  | stack (tiers : List ChunkService)

/-- A computation that starts services and may be given up. -/
abbrev Opening := ExceptT Level.LoadError (StateM (List Started))

def startTier (source : ChunkSource) : Opening ChunkService := do
  modify (· ++ [.tier source])
  return { source }

def startStack (tiers : List ChunkService) : Opening ChunkStack := do
  modify (· ++ [.stack tiers])
  return { tiers }

/-- Opens the world of a directory, one service after the other. -/
def opening (files : FileTree) (path : String) (freshSeed : Int64) : Opening World := do
  let level ← ExceptT.mk (pure (Level.load files path))
  let seed := level.seed.getD freshSeed
  let stored ← startTier (Region.source path .normal)
  let generated ← startTier (Terrain.source seed)
  let chunks ← startStack [stored, generated]
  return { path, seed, time := level.time, spawn := level.spawn, start := level.start, chunks }

end World

end BlockWorld
