import BlockWorld.Game.Inbox
import BlockWorld.Wire.ServerPacket

/-! # Players and dropped items -/

namespace BlockWorld

structure Player where
  id : EntityId
  name : String
  position : Position
  orientation : Orientation := .ahead
  item : ItemKind := emptyHand
  /-- The number of the connection that the player plays through. -/
  connection : Nat
  inbox : Inbox
  /-- Whether a packet was dropped because the client fell behind. -/
  stalled : Bool := false

namespace Player

/-- Sends a packet without waiting. One that finds no room is lost and marks the player. -/
def transmit (p : Player) (packet : Bytes) : Player :=
  { p with inbox := p.inbox.post packet, stalled := p.stalled || p.inbox.overflows }

def spawnPacket (p : Player) : Wire.ServerPacket :=
  .namedSpawn p.id p.name p.position p.orientation p.item

end Player

structure DroppedItem where
  id : EntityId
  item : ItemKind
  count : Int8
  position : Position

def DroppedItem.spawnPacket (d : DroppedItem) : Wire.ServerPacket :=
  .pickupSpawn d.id d.item d.count d.position

end BlockWorld
