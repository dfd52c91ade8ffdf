import BlockWorld.Entity.Directory
import BlockWorld.Game.Player

/-! # The game state

The game owns the directory, the registered players and items, and the clock. A broadcast reaches
every registered player that its condition picks, each through its own inbox.
-/

namespace BlockWorld

structure GameConfig where
  /-- Half the width, in chunks, of the square in which players see each other. -/
  chunkRadius : Int32 := 10
  /-- How many commands may wait. -/
  queueCapacity : Nat := 256
  /-- How far one tick moves the clock. -/
  tickStep : Int64 := 20

structure Game where
  config : GameConfig
  directory : Directory
  players : EntityMap Player
  items : EntityMap DroppedItem
  time : Int64

namespace Game

/-- A game without entities whose clock shows `time`. Room for one command at least is made. -/
def new (config : GameConfig) (time : Int64) : Game where
  config := { config with queueCapacity := max config.queueCapacity 1 }
  directory := .empty
  players := .empty
  items := .empty
  time := time

def isNear (g : Game) (loc : ChunkLoc) (p : Player) : Bool :=
  decide (ChunkLoc.Near g.config.chunkRadius loc p.position.chunk)

/-- Whether `q` is another player than `p` who is near it. -/
def isNeighbour (g : Game) (p q : Player) : Bool := q.id != p.id && g.isNear p.position.chunk q

def playersNear (g : Game) (loc : ChunkLoc) : List Player := g.players.values.filter (g.isNear loc)

def multicast (g : Game) (packet : Bytes) (chosen : Player → Bool) : Game :=
  { g with players := g.players.map fun p => if chosen p then p.transmit packet else p }

/-- Sends a packet if it has a form. -/
def multicastPacket (g : Game) (packet : Wire.ServerPacket) (chosen : Player → Bool) : Game :=
  match packet.encode with
  | .ok b => g.multicast b chosen
  | .error _ => g

def say (g : Game) (text : String) : Game := g.multicastPacket (.chat text) fun _ => true

end Game

end BlockWorld
