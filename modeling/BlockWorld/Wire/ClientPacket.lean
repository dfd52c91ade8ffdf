import BlockWorld.Wire.Field

/-! # Packets from the client

The handshake names the user, the login settles the protocol version, and play packets follow. An
unknown identifier is an error, since the length of what follows is not known.
-/

namespace BlockWorld

namespace Wire

structure Login where
  version : Int32
  username : String
  password : String
  seed : Int64
  dimension : Int8

inductive ClientPacket
  | keepAlive
  | chat (text : String)
  | flying (onGround : Bool)
  | position (x y stance z : Float) (onGround : Bool)
  | look (yaw pitch : Float32) (onGround : Bool)
  | positionLook (x y stance z : Float) (yaw pitch : Float32) (onGround : Bool)
  | disconnect (reason : String)

namespace Read

def expect (id : UInt8) : Read Unit := do
  let found ← octet
  if found = id then pure () else throw (.unexpectedPacket found)

def handshake : Read String := do
  expect 0x02
  string

/-- The version is judged once the whole request is read. -/
def login : Read Login := do
  expect 0x01
  let request : Login := ⟨← int32, ← string, ← string, ← int64, ← int8⟩
  if request.version = Wire.version then pure request
  else throw (.unsupportedVersion request.version)

def clientPacket : Read ClientPacket := do
  match ← octet with
  | 0x00 => pure .keepAlive
  | 0x03 => return .chat (← string)
  | 0x0a => return .flying (← bool)
  | 0x0b => return .position (← float) (← float) (← float) (← float) (← bool)
  | 0x0c => return .look (← float32) (← float32) (← bool)
  | 0x0d =>
    return .positionLook (← float) (← float) (← float) (← float) (← float32) (← float32) (← bool)
  | 0xff => return .disconnect (← string)
  | id => throw (.unexpectedPacket id)

end Read

end Wire

end BlockWorld
