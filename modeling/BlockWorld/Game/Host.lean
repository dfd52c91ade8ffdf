import BlockWorld.Game.Command

/-! # The game and its connections

A connection outlives its player: what was sent before the player parted from the game can still be
read. The host keeps the inboxes of parted players until their connections have read them or gone.
-/

namespace BlockWorld

/-- What a connection finds when it reads its inbox. -/
structure Delivery where
  packets : List Bytes
  /-- Whether nothing more can come. -/
  closed : Bool

structure Host where
  game : Game
  /-- The players that have parted from the game and are not yet read out. -/
  parted : List Player := []

namespace Host

def new (config : GameConfig) (time : Int64) : Host := { game := .new config time }

def submit (h : Host) (c : Command) : Host × Reply :=
  let s := h.game.apply c
  ({ game := s.game, parted := h.parted ++ s.departed.filter (·.inbox.attended) }, s.reply)

def submitAll (h : Host) (cs : List Command) : Host := cs.foldl (fun h c => (h.submit c).1) h

/-- Parts a player that was never in the game from it. -/
def dismiss (h : Host) (p : Player) : Host := { h with parted := h.parted ++ [p] }

def collect (h : Host) (connection : Nat) : Delivery × Host :=
  match h.game.players.values.find? (·.connection == connection) with
  | some p =>
    let players := h.game.players.modify p.id fun p => { p with inbox := p.inbox.drain }
    (⟨p.inbox.waiting, false⟩, { h with game := { h.game with players } })
  | none =>
    match h.parted.find? (·.connection == connection) with
    | some p => (⟨p.inbox.waiting, true⟩,
        { h with parted := h.parted.filter (·.connection != connection) })
    | none => (⟨[], false⟩, h)

def hangUp (h : Host) (connection : Nat) : Host :=
  let leave (p : Player) : Player :=
    if p.connection == connection then { p with inbox := p.inbox.abandon } else p
  { game := { h.game with players := h.game.players.map leave }
    parted := h.parted.filter (·.connection != connection) }

/-- The game ends: every registered player parts from it. -/
def stop (h : Host) : Host :=
  { game := { h.game with players := .empty }
    parted := h.parted ++ h.game.players.values.filter (·.inbox.attended) }

end Host

end BlockWorld
