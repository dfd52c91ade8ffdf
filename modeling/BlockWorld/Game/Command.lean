import BlockWorld.Game.Basic

/-! # Commands

Commands are applied one at a time. A command that names an entity of the wrong kind, or an id that
is taken, changes nothing. After each command the players marked as stalled are removed, lowest id
first, until none is left; their removal is announced like any other and may stall more.
-/

namespace BlockWorld

inductive Query
  | playerCount
  | time
  | playerNames

inductive Command
  | allocateId
  | addPlayer (player : Player)
  | removePlayer (id : EntityId)
  | movePlayer (id : EntityId) (position : Option Position) (orientation : Option Orientation)
  | addItem (item : DroppedItem)
  | multicast (packet : Bytes) (except : Option EntityId)
  | say (text : String)
  | tick
  | query (q : Query)

inductive Reply
  | none
  | id (id : EntityId)
  | count (n : Nat)
  | time (t : Int64)
  | names (names : List String)
  deriving DecidableEq

namespace Game

/-- The spawn packets of the neighbours of `p`, one after the other. A neighbour whose packet has
no form is left out. -/
def surroundings (g : Game) (p : Player) : Bytes :=
  (g.players.values.filter (g.isNeighbour p)).flatMap fun q =>
    match q.spawnPacket.encode with
    | .ok b => b
    | .error _ => []

/-- Registers a player, announces it, shows it to its neighbours and them to it. The answer tells
whether the id was free. -/
def addPlayer (g : Game) (p : Player) : Game × Bool :=
  match g.directory.register p.id .player with
  | .error _ => (g, false)
  | .ok directory =>
    let g := { g with directory, players := g.players.insert p.id p }
    let g := g.say (p.name ++ " has joined")
    let g := g.multicastPacket p.spawnPacket (g.isNeighbour p)
    let batch := g.surroundings p
    if batch.isEmpty then (g, true)
    else ({ g with players := g.players.modify p.id (·.transmit batch) }, true)

/-- Hides a player from its neighbours, forgets it and announces that; answers with the player as
it was left. -/
def removePlayer (g : Game) (id : EntityId) : Game × Option Player :=
  match g.players.get? id with
  | none => (g, none)
  | some p =>
    let g := g.multicastPacket (.destroyEntity id) (g.isNeighbour p)
    let directory :=
      match g.directory.unregister id with
      | .ok (_, d) => d
      | .error _ => g.directory
    let g := { g with directory, players := g.players.erase id }
    (g.say (p.name ++ " has left"), some p)

def movePlayer (g : Game) (id : EntityId) (position : Option Position)
    (orientation : Option Orientation) : Game :=
  { g with players := g.players.modify id fun p =>
      { p with position := position.getD p.position
               orientation := orientation.getD p.orientation } }

/-- Registers an item and shows it to the players near it. One whose packet has no form stays
unseen. -/
def addItem (g : Game) (item : DroppedItem) : Game :=
  match g.directory.register item.id .item with
  | .error _ => g
  | .ok directory =>
    let g := { g with directory, items := g.items.insert item.id item }
    g.multicastPacket item.spawnPacket (g.isNear item.position.chunk)

def tick (g : Game) : Game :=
  let g := { g with time := g.time + g.config.tickStep }
  g.multicastPacket (.timeUpdate g.time) fun _ => true

def answer (g : Game) : Query → Reply
  | .playerCount => .count g.players.size
  | .time => .time g.time
  | .playerNames => .names (g.players.values.map (·.name))

def firstStalled (g : Game) : Option EntityId :=
  (g.players.values.find? (·.stalled)).map (·.id)

/-- Removes stalled players, at most `n` of them, and tells which, in order. -/
def evict : (n : Nat) → Game → Game × List Player
  | 0, g => (g, [])
  | n + 1, g =>
    match g.firstStalled with
    | none => (g, [])
    | some id =>
      let (g, removed) := g.removePlayer id
      let (g, more) := evict n g
      (g, removed.toList ++ more)

def evictStalled (g : Game) : Game × List Player := evict g.players.size g

structure Step where
  game : Game
  reply : Reply := .none
  /-- The player that the command refused or removed. -/
  parted : Option Player := none
  /-- The players removed because they fell behind, in order. -/
  evicted : List Player := []

/-- The effect of a command itself, before anyone is evicted. -/
def perform (g : Game) : Command → Step
  | .allocateId =>
    let (id, directory) := g.directory.allocate
    { game := { g with directory }, reply := id.elim .none .id }
  | .addPlayer p =>
    let (game, accepted) := g.addPlayer p
    { game, parted := if accepted then none else some p }
  | .removePlayer id =>
    let (game, parted) := g.removePlayer id
    { game, parted }
  | .movePlayer id position orientation => { game := g.movePlayer id position orientation }
  | .addItem item => { game := g.addItem item }
  | .multicast packet except => { game := g.multicast packet fun p => some p.id != except }
  | .say text => { game := g.say text }
  | .tick => { game := g.tick }
  | .query q => { game := g, reply := g.answer q }

def apply (g : Game) (c : Command) : Step :=
  let s := g.perform c
  let (game, evicted) := s.game.evictStalled
  { s with game, evicted }

def Step.departed (s : Step) : List Player := s.parted.toList ++ s.evicted

end Game

end BlockWorld
