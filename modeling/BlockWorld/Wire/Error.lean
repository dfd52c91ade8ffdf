import BlockWorld.Bytes.Hex

/-! # Wire errors -/

namespace BlockWorld

inductive WireError
  | truncated
  | stringTooLong (length : Nat)
  | invalidString
  | unexpectedPacket (id : UInt8)
  | invalidItemCount (count : Int8)
  | unsupportedVersion (version : Int32)
  deriving DecidableEq

def WireError.message : WireError → String
  | .truncated => "IO error: unexpected end of file"
  | .stringTooLong n => s!"string of {n} bytes exceeds the protocol limit"
  | .invalidString => "string is not valid UTF-8"
  | .unexpectedPacket id => "unexpected packet id 0x" ++ Hex.ofNat 2 id.toNat
  | .invalidItemCount n => "invalid item count " ++ toString n.toInt
  | .unsupportedVersion v => "unsupported protocol version " ++ toString v.toInt

end BlockWorld
