import BlockWorld.Chunk
import BlockWorld.Chunk.Error

/-! # Chunk services

A service answers requests from one source, in the order in which they come, until it is shut down;
later requests fail. A stack of services asks them from the first to the last: the first chunk
found wins, and an error ends the search, so that a lower tier never stands in for a higher one that
is damaged. Shutting a stack down shuts every tier down.
-/

namespace BlockWorld

/-- What a request is answered: a chunk, that there is none, or why that is not known. -/
abbrev ChunkAnswer := Except ChunkError (Option Chunk)

structure ChunkSource where
  name : String
  /-- The answer, given the files as they are at that moment and the places asked for before, latest
  first. There is none if the source breaks down. -/
  load : FileTree → List ChunkLoc → ChunkLoc → Option ChunkAnswer

structure ChunkService where
  source : ChunkSource
  stopped : Bool := false
  /-- The places that the source was asked for, latest first. -/
  asked : List ChunkLoc := []

namespace ChunkService

/-- Answers a request. If the source breaks down over it, only this request fails. -/
def load (s : ChunkService) (files : FileTree) (loc : ChunkLoc) : ChunkAnswer × ChunkService :=
  if s.stopped then (.error .serviceStopped, s)
  else
    let answer := (s.source.load files s.asked loc).getD (.error (.sourceFailed loc))
    (answer, { s with asked := loc :: s.asked })

def shutdown (s : ChunkService) : ChunkService := { s with stopped := true }

end ChunkService

structure ChunkStack where
  tiers : List ChunkService
  stopped : Bool := false

namespace ChunkStack

def serviceName : String := "combinator"

def search (files : FileTree) (loc : ChunkLoc) :
    List ChunkService → ChunkAnswer × List ChunkService
  | [] => (.ok none, [])
  | s :: rest =>
    match s.load files loc with
    | (.ok none, s) =>
      let (answer, rest) := search files loc rest
      (answer, s :: rest)
    | (answer, s) => (answer, s :: rest)

/-- Asks the tiers, whether or not the stack is still served. -/
def resolve (k : ChunkStack) (files : FileTree) (loc : ChunkLoc) : ChunkAnswer × ChunkStack :=
  let (answer, tiers) := search files loc k.tiers
  (answer, { k with tiers })

/-- A request to the stack as a service of its own. -/
def load (k : ChunkStack) (files : FileTree) (loc : ChunkLoc) : ChunkAnswer × ChunkStack :=
  if k.stopped then (.error .serviceStopped, k) else k.resolve files loc

def shutdown (k : ChunkStack) : ChunkStack :=
  if k.stopped then k else { tiers := k.tiers.map (·.shutdown), stopped := true }

end ChunkStack

end BlockWorld
