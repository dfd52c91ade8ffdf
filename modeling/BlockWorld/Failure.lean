import BlockWorld.Chunk.Error
import BlockWorld.Wire.Error
import BlockWorld.World.PlayerRecord

/-! # Failures

A failure of a whole activity tells what was being done and, where there is one, the error behind
it.
-/

namespace BlockWorld

inductive Cause
  | file (e : FileError)
  | content (e : UnpackError)
  | level (e : LevelError)
  | load (e : Level.LoadError)
  | player (e : PlayerRecord.LoadError)
  | chunk (e : ChunkError)
  | wire (e : WireError)

def Cause.message : Cause → String
  | .file e => e.message
  | .content e => e.message
  | .level e => e.message
  | .load e => e.message
  | .player e => e.message
  | .chunk e => e.message
  | .wire e => e.message

structure Failure where
  message : String
  cause : Option Cause := none

/-- The lines that report a failure, with the cause after the message. -/
def Failure.report (f : Failure) : List String :=
  ("Error: " ++ f.message) ::
    match f.cause with
    | some c => ["", "Caused by:", "    " ++ c.message]
    | none => []

end BlockWorld
