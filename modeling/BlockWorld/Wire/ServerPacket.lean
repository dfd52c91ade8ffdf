import BlockWorld.Wire.Field

/-! # Packets from the server

A packet is an identifying octet and its fields in order.
-/

namespace BlockWorld

/-- The kind of an item; no item at all is `-1`. -/
abbrev ItemKind := Int16

def emptyHand : ItemKind := -1

abbrev EntityId := Int32

namespace Wire

inductive ServerPacket
  | handshake (hash : String)
  | loginResponse (id : EntityId) (seed : Int64) (dimension : Dimension)
  | chat (text : String)
  | timeUpdate (time : Int64)
  | spawnPosition (position : Position)
  | positionLook (position : Position) (orientation : Orientation) (onGround : Bool)
  | namedSpawn (id : EntityId) (name : String) (position : Position) (orientation : Orientation)
      (item : ItemKind)
  | pickupSpawn (id : EntityId) (item : ItemKind) (count : Int8) (position : Position)
  | destroyEntity (id : EntityId)
  | disconnect (reason : String)

def dimensionCode : Dimension → Int8
  | .normal => 0
  | .nether => -1

namespace ServerPacket

/-- The octets of a packet. A string over the limit and a stack of no or more than 64 items have
none. Eyes are 1.62 above the feet. -/
def encode : ServerPacket → Except WireError Bytes
  | .handshake hash => return 0x02 :: (← putString hash)
  | .loginResponse id seed dimension =>
    return 0x01 :: putInt32 id ++ (← putString "") ++ (← putString "") ++ putInt64 seed ++
      putInt8 (dimensionCode dimension)
  | .chat text => return 0x03 :: (← putString text)
  | .timeUpdate time => return 0x04 :: putInt64 time
  | .spawnPosition p =>
    return 0x06 :: putInt32 (Ieee.floorToInt32 p.x) ++ putInt32 (Ieee.floorToInt32 p.y) ++
      putInt32 (Ieee.floorToInt32 p.z)
  | .positionLook p o onGround =>
    return 0x0d :: putFloat p.x ++ putFloat (p.y + 1.62) ++ putFloat p.y ++ putFloat p.z ++
      putFloat32 o.yaw ++ putFloat32 o.pitch ++ putBool onGround
  | .namedSpawn id name p o item =>
    return 0x14 :: putInt32 id ++ (← putString name) ++ putFixed p ++
      [packedAngle o.yaw, packedAngle o.pitch] ++ putInt16 item
  | .pickupSpawn id item count p =>
    if 0 < count ∧ count ≤ 64 then
      return 0x15 :: putInt32 id ++ putInt16 item ++ putInt8 count ++ putFixed p ++ [0, 0, 0]
    else throw (.invalidItemCount count)
  | .destroyEntity id => return 0x1d :: putInt32 id
  | .disconnect reason => return 0xff :: (← putString reason)

end ServerPacket

end Wire

end BlockWorld
