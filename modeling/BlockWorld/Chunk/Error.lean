import BlockWorld.Files.Tree
import BlockWorld.Grid
import BlockWorld.Packed

/-! # Chunk errors -/

namespace BlockWorld

inductive ChunkFault
  | packed (e : UnpackError)
  | blockCount
  | corrupt
  deriving DecidableEq

def ChunkFault.message : ChunkFault → String
  | .packed e => e.message
  | .blockCount => "wrong block count"
  | .corrupt => "corrupt"

inductive ChunkError
  | file (e : FileError)
  | undecodable (loc : ChunkLoc) (fault : ChunkFault)
  /-- The blocks do not have the digest recorded with them. -/
  | integrity (loc : ChunkLoc) (expected actual : String)
  /-- The file of one chunk holds another. -/
  | misplaced (requested found : ChunkLoc)
  /-- The source broke down over this request. -/
  | sourceFailed (loc : ChunkLoc)
  | serviceStopped
  deriving DecidableEq

def ChunkError.message : ChunkError → String
  | .file e => "IO error: " ++ e.message
  | .undecodable loc fault => "chunk " ++ loc.text ++ " could not be decoded: " ++ fault.message
  | .integrity loc expected actual =>
    "chunk " ++ loc.text ++ " failed integrity check: expected " ++ expected ++ ", got " ++ actual
  | .misplaced requested found =>
    "chunk file for " ++ requested.text ++ " holds chunk " ++ found.text
  | .sourceFailed loc => "chunk source panicked while loading " ++ loc.text
  | .serviceStopped => "chunk service has stopped"

end BlockWorld
